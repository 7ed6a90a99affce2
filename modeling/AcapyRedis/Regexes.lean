import Mathlib.Data.List.TakeWhile
import Mathlib.Logic.Function.Basic

/-!
Regular expressions as a backtracking matcher takes them. `runs` lists the ways to match at a
place in the order in which they are tried, and the first one is the match. A star is one of a
class of characters and takes as many of them as it can first.
-/
namespace AcapyRedis.Regexes

variable {α : Type}

inductive Regex (α : Type)
  | literal (word : List α)
  | one (accepts : α → Bool)
  | many (accepts : α → Bool)
  | seq (first second : Regex α)
  | maybe (inner : Regex α)
  | group (number : Nat) (inner : Regex α)
  /-- `^`: nothing was passed. -/
  | start
  /-- `$`: nothing is left but perhaps a newline. -/
  | finish (newline : α)

/-- What was passed, what is left, and what the groups have matched. -/
structure Place (α : Type) where
  passed : List α
  rest : List α
  groups : Nat → Option (List α)

def Place.advance (place : Place α) (n : Nat) : Place α :=
  { place with passed := place.passed ++ place.rest.take n, rest := place.rest.drop n }

/-- The place where a match of a text begins. -/
def Place.initial (text : List α) : Place α := ⟨[], text, fun _ => none⟩

namespace Regex
variable [DecidableEq α]

def runs : Regex α → Place α → List (Place α)
  | literal word, place => if word.isPrefixOf place.rest then [place.advance word.length] else []
  | one accepts, place => if place.rest.head?.any accepts then [place.advance 1] else []
  | many accepts, place => (List.range ((place.rest.takeWhile accepts).length + 1)).reverse.map place.advance
  | seq first second, place => (first.runs place).flatMap second.runs
  | maybe inner, place => inner.runs place ++ [place]
  | group number inner, place => (inner.runs place).map (fun reached =>
    { reached with groups := Function.update reached.groups number (some (reached.passed.drop place.passed.length)) })
  | start, place => if place.passed = [] then [place] else []
  | finish newline, place => if place.rest = [] ∨ place.rest = [newline] then [place] else []

/-- The match of a prefix of a text. -/
def found (regex : Regex α) (text : List α) : Option (Place α) := (regex.runs (.initial text)).head?

/-- Whether a prefix of the text matches. -/
def accepts (regex : Regex α) (text : List α) : Bool := (regex.found text).isSome

/-! ### One expression -/

section
variable {place reached : Place α}

theorem runs_literal {word : List α} : (literal word).runs place =
    if word.isPrefixOf place.rest then [place.advance word.length] else [] := rfl

theorem runs_many {accepts : α → Bool} : (many accepts).runs place =
    (List.range ((place.rest.takeWhile accepts).length + 1)).reverse.map place.advance := rfl

theorem runs_seq {first second : Regex α} :
    (seq first second).runs place = (first.runs place).flatMap second.runs := rfl

theorem runs_maybe {inner : Regex α} : (maybe inner).runs place = inner.runs place ++ [place] := rfl

theorem runs_group {number : Nat} {inner : Regex α} : (group number inner).runs place =
    (inner.runs place).map (fun reached =>
      { reached with groups := Function.update reached.groups number (some (reached.passed.drop place.passed.length)) }) :=
  rfl

theorem runs_start : (start : Regex α).runs place = if place.passed = [] then [place] else [] := rfl

theorem runs_finish {newline : α} : (finish newline).runs place =
    if place.rest = [] ∨ place.rest = [newline] then [place] else [] := rfl

@[simp] theorem mem_literal {word : List α} : reached ∈ (literal word).runs place ↔
    ∃ rest, place.rest = word ++ rest ∧ reached = ⟨place.passed ++ word, rest, place.groups⟩ := by
  rw [runs_literal]
  split
  · next begins =>
    obtain ⟨rest,same⟩ := List.isPrefixOf_iff_prefix.mp begins
    simp [Place.advance,← same]
  · next other =>
    refine iff_of_false List.not_mem_nil ?_
    rintro ⟨rest,same,_⟩
    exact other (List.isPrefixOf_iff_prefix.mpr ⟨rest,same.symm⟩)

@[simp] theorem mem_many {accepts : α → Bool} : reached ∈ (many accepts).runs place ↔
    ∃ word rest, place.rest = word ++ rest ∧ (∀ character ∈ word, accepts character = true) ∧
      reached = ⟨place.passed ++ word, rest, place.groups⟩ := by
  simp only [runs_many,List.mem_map,List.mem_reverse,List.mem_range,Nat.lt_succ_iff]
  constructor
  · rintro ⟨n,few,rfl⟩
    refine ⟨place.rest.take n, place.rest.drop n, (List.take_append_drop n _).symm, fun character member => ?_, rfl⟩
    -- Within the longest run of the class a prefix of the text is a prefix of the run.
    rw [← List.takeWhile_append_dropWhile (p := accepts) (l := place.rest),List.take_append_of_le_length few] at member
    exact List.mem_takeWhile_imp (List.mem_of_mem_take member)
  · rintro ⟨word,rest,same,inside,rfl⟩
    refine ⟨word.length, ?_, ?_⟩
    · rw [same,List.takeWhile_append_of_pos inside,List.length_append]
      exact Nat.le_add_right _ _
    · rw [Place.advance,same,List.take_left,List.drop_left]

@[simp] theorem mem_seq {first second : Regex α} : reached ∈ (seq first second).runs place ↔
    ∃ middle ∈ first.runs place, reached ∈ second.runs middle := List.mem_flatMap

@[simp] theorem mem_maybe {inner : Regex α} :
    reached ∈ (maybe inner).runs place ↔ reached ∈ inner.runs place ∨ reached = place := by
  simp [runs_maybe]

@[simp] theorem mem_group {number : Nat} {inner : Regex α} : reached ∈ (group number inner).runs place ↔
    ∃ inside ∈ inner.runs place, { inside with
      groups := Function.update inside.groups number (some (inside.passed.drop place.passed.length)) } = reached :=
  List.mem_map

@[simp] theorem mem_start : reached ∈ (start : Regex α).runs place ↔ place.passed = [] ∧ reached = place := by
  rw [runs_start]
  split <;> simp [*]

@[simp] theorem mem_finish {newline : α} : reached ∈ (finish newline).runs place ↔
    (place.rest = [] ∨ place.rest = [newline]) ∧ reached = place := by
  rw [runs_finish]
  split <;> simp [*]

theorem accepts_iff {regex : Regex α} {text : List α} :
    regex.accepts text = true ↔ ∃ reached, reached ∈ regex.runs (.initial text) := by
  rw [accepts,found]
  cases regex.runs (.initial text) <;> simp

/-- What begins with a word accepts only texts that do. -/
theorem accepts_begins {word text : List α} {second : Regex α}
    (accepted : (seq start (seq (literal word) second)).accepts text = true) : ∃ rest, text = word ++ rest := by
  obtain ⟨_,matched⟩ := accepts_iff.mp accepted
  simp only [mem_seq,mem_start,mem_literal] at matched
  obtain ⟨_,⟨_,rfl⟩,_,⟨rest,same,_⟩,_⟩ := matched
  exact ⟨rest,same⟩

/-- The first match of a sequence whose second part always matches. -/
theorem head_seq {first second : Regex α} (total : ∀ middle, second.runs middle ≠ []) :
    ((seq first second).runs place).head? = (first.runs place).head?.bind (fun middle => (second.runs middle).head?) := by
  rw [runs_seq]
  cases first.runs place with
  | nil => rfl
  | cons middle later =>
    rw [List.flatMap_cons,List.head?_append]
    cases reached : second.runs middle with
    | nil => exact absurd reached (total middle)
    | cons first rest => simp [reached]

theorem runs_literal_seq (word : List α) (second : Regex α) (place : Place α) : (seq (literal word) second).runs place =
    if word.isPrefixOf place.rest then second.runs (place.advance word.length) else [] := by
  rw [runs_seq,runs_literal]
  split
  · exact List.flatMap_singleton second.runs _
  · rfl

/-- A star takes as many characters as it can. -/
theorem head_many (accepts : α → Bool) (place : Place α) : ((many accepts).runs place).head? =
    some ⟨place.passed ++ place.rest.takeWhile accepts, place.rest.dropWhile accepts, place.groups⟩ := by
  have taken : (place.rest.takeWhile accepts ++ place.rest.dropWhile accepts).take (place.rest.takeWhile accepts).length =
      place.rest.takeWhile accepts := List.take_left
  have left : (place.rest.takeWhile accepts ++ place.rest.dropWhile accepts).drop (place.rest.takeWhile accepts).length =
      place.rest.dropWhile accepts := List.drop_left
  rw [List.takeWhile_append_dropWhile] at taken left
  rw [runs_many,List.range_succ,List.reverse_append,List.reverse_singleton,List.singleton_append,List.map_cons,
    List.head?_cons,Place.advance,taken,left]

end
end Regex
end AcapyRedis.Regexes
