import Mathlib.Data.Int.CardIntervalMod

/-!
Items of a list taken in turn: after the last item comes the first (`taken`). However the
turn begins, every item is taken as often as any other, up to one time (`taken_even`).
When the first item is taken once more before a turn, that is so exactly if the turn goes
around whole (`again_even_iff`).
-/
namespace AcapyRedis.Rotations

variable {α : Type}

/-- As many items as asked, from a position on. -/
def taken (items : List α) : Nat → Nat → List α
  | _, 0 => []
  | start, m+1 => (items[start % items.length]?).toList ++ taken items (start + 1) m

/-- No item was picked more often than another one and one time more. -/
def EvenPicks [DecidableEq α] (items picks : List α) : Prop :=
  ∀ a ∈ items, ∀ b ∈ items, picks.count a ≤ picks.count b + 1

theorem taken_length {items : List α} (some_item : items ≠ []) (start m : Nat) : (taken items start m).length = m := by
  induction m generalizing start with
  | zero => rfl
  | succ m ih =>
    have inside : start % items.length < items.length := Nat.mod_lt _ (List.length_pos_iff.mpr some_item)
    rw [taken,List.length_append,ih,List.getElem?_eq_getElem inside]
    simp [Nat.add_comm]

/-- Only the position of the start in the list matters. -/
theorem taken_mod (items : List α) (start m : Nat) : taken items (start % items.length) m = taken items start m := by
  have later : ∀ i j, i % items.length = j % items.length → taken items i m = taken items j m := by
    induction m with
    | zero => exact fun _ _ _ => rfl
    | succ m ih =>
      intro i j same
      rw [taken,taken,same,ih (i + 1) (j + 1) (Nat.ModEq.add_right 1 same)]
  exact later _ _ (Nat.mod_mod _ _)

section
variable [DecidableEq α] {items : List α}

theorem count_taken_eq (distinct : items.Nodup) {p : Nat} {a : α} (there : items[p]? = some a) (start m : Nat) :
    (taken items start m).count a = Nat.count (fun j => (start + j) % items.length = p) m := by
  obtain ⟨inside,rfl⟩ := List.getElem?_eq_some_iff.mp there
  induction m generalizing start with
  | zero => rfl
  | succ m ih =>
    have here : start % items.length < items.length := Nat.mod_lt _ (Nat.zero_lt_of_lt inside)
    have shifted : ∀ j, start + 1 + j = start + (j + 1) := by omega
    rw [taken,List.count_append,ih,Nat.count_succ',List.getElem?_eq_getElem here,Option.toList_some,List.count_singleton]
    simp only [beq_iff_eq,distinct.getElem_inj_iff,shifted,Nat.add_zero]
    exact Nat.add_comm _ _

theorem turn_iff {n p start : Nat} (inside : p < n) (j : Nat) :
    (start + j) % n = p ↔ j ≡ p + (n - start % n) [MOD n] := by
  have small : start % n < n := Nat.mod_lt _ (Nat.zero_lt_of_lt inside)
  have whole : start % n + (p + (n - start % n)) = p + n := by omega
  have target : start % n + (p + (n - start % n)) ≡ p [MOD n] := by
    rw [whole]
    exact Nat.add_mod_right p n
  have start_mod : start + j ≡ start % n + j [MOD n] := Nat.ModEq.add_right j (Nat.mod_modEq start n).symm
  constructor
  · intro here
    have reaches : start + j ≡ p [MOD n] := by rw [Nat.ModEq,here,Nat.mod_eq_of_lt inside]
    exact Nat.ModEq.add_left_cancel' (start % n) ((start_mod.symm.trans reaches).trans target.symm)
  · intro same
    have reaches : start + j ≡ p [MOD n] := (start_mod.trans (Nat.ModEq.add_left _ same)).trans target
    rw [Nat.ModEq,Nat.mod_eq_of_lt inside] at reaches
    exact reaches

/-- How often an item is taken. -/
theorem count_taken (distinct : items.Nodup) {p : Nat} {a : α} (there : items[p]? = some a) (start m : Nat) :
    (taken items start m).count a = m / items.length +
      if (p + (items.length - start % items.length)) % items.length < m % items.length then 1 else 0 := by
  have inside : p < items.length := (List.getElem?_eq_some_iff.mp there).1
  rw [count_taken_eq distinct there,← Nat.count_modEq_card m (Nat.zero_lt_of_lt inside),
    Nat.count_eq_card_filter_range,Nat.count_eq_card_filter_range]
  exact congrArg Finset.card (Finset.filter_congr (fun j _ => turn_iff inside j))

/-- Rounded down or up. -/
theorem taken_fair (distinct : items.Nodup) {a : α} (member : a ∈ items) (start m : Nat) :
    (taken items start m).count a = m / items.length ∨
    (taken items start m).count a = (m + items.length - 1) / items.length := by
  obtain ⟨p,there⟩ := List.mem_iff_getElem?.mp member
  have positive : 0 < items.length := List.length_pos_of_mem member
  rw [count_taken distinct there]
  split
  · next before =>
    have rest : ¬ items.length ∣ m := fun whole => by rw [Nat.mod_eq_zero_of_dvd whole] at before; omega
    right
    cases m with
    | zero => exact absurd (dvd_zero _) rest
    | succ m =>
      have shifted : m + 1 + items.length - 1 = m + items.length := by omega
      rw [shifted,Nat.add_div_right m positive,Nat.succ_div_of_not_dvd rest]
  · exact .inl rfl

theorem taken_even (distinct : items.Nodup) (start m : Nat) : EvenPicks items (taken items start m) := by
  intro a inside b other
  obtain ⟨p,there⟩ := List.mem_iff_getElem?.mp inside
  obtain ⟨q,there'⟩ := List.mem_iff_getElem?.mp other
  rw [count_taken distinct there,count_taken distinct there']
  split_ifs <;> omega

/-- Taking the first item before a turn from the beginning. -/
theorem again_even_iff {first : α} {rest : List α} (distinct : (first :: rest).Nodup) (m : Nat) :
    EvenPicks (first :: rest) (first :: taken (first :: rest) 0 m) ↔ (first :: rest).length ∣ m := by
  have positive : 0 < (first :: rest).length := Nat.succ_pos _
  have counts : ∀ p a, (first :: rest)[p]? = some a → (taken (first :: rest) 0 m).count a =
      m / (first :: rest).length + if p < m % (first :: rest).length then 1 else 0 := by
    intro p a there
    have inside : p < (first :: rest).length := (List.getElem?_eq_some_iff.mp there).1
    rw [count_taken distinct there,Nat.zero_mod,Nat.sub_zero,Nat.add_mod_right,Nat.mod_eq_of_lt inside]
  constructor
  · intro even
    by_contra partly
    have some_left : 0 < m % (first :: rest).length := Nat.pos_of_ne_zero (fun none => partly (Nat.dvd_of_mod_eq_zero none))
    have below : m % (first :: rest).length < (first :: rest).length := Nat.mod_lt _ positive
    -- the turn stops before the last item, which is not the first one
    have last : rest.length < (first :: rest).length := by simp
    have there : (first :: rest)[rest.length]? = some ((first :: rest)[rest.length]) := List.getElem?_eq_getElem last
    have other : (first :: rest)[rest.length] ≠ first := by
      intro same
      have both : (first :: rest)[rest.length] = (first :: rest)[0] := same
      have zero : rest.length = 0 := distinct.getElem_inj_iff.mp both
      simp only [List.length_cons,zero] at below some_left
      omega
    have few := even first List.mem_cons_self _ (List.getElem_mem last)
    rw [List.count_cons_self,List.count_cons_of_ne other.symm,counts 0 first rfl,counts _ _ there,if_pos some_left,
      if_neg (by simp only [List.length_cons] at below ⊢; omega)] at few
    omega
  · intro whole a inside b other
    obtain ⟨p,there⟩ := List.mem_iff_getElem?.mp inside
    obtain ⟨q,there'⟩ := List.mem_iff_getElem?.mp other
    have none : m % (first :: rest).length = 0 := Nat.mod_eq_zero_of_dvd whole
    have equal : (taken (first :: rest) 0 m).count a = (taken (first :: rest) 0 m).count b := by
      rw [counts p a there,counts q b there',none]
      simp
    rw [List.count_cons,List.count_cons,equal]
    split_ifs <;> omega

end

end AcapyRedis.Rotations
