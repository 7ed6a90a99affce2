import Mathlib

/-!
Sums of integers in containers: of the selected fields of a hash, and of a measure of
the entries of a list. Each lemma says what one write of the container does to the sum.
-/
namespace AcapyRedis.Sums

variable {K V : Type}

/-- The measure of what is selected. -/
def one (selected : Bool) : Int := if selected then 1 else 0

theorem one_decide (p : Prop) [Decidable p] : one (decide p) = ((if p then 1 else 0 : Nat) : Int) := by
  by_cases holds : p <;> simp [one,holds]

@[simp] theorem one_true : one true = 1 := rfl

@[simp] theorem one_false : one false = 0 := rfl

theorem one_nonneg (selected : Bool) : 0 ≤ one selected := by
  cases selected <;> decide

/-! ### Hashes -/

section
variable [DecidableEq K] (selects : K → Bool)

/-- The sum of the values of the selected fields. -/
def total (h : AList (fun _ : K => Int)) : Int :=
  (h.entries.map (fun entry => if selects entry.1 then entry.2 else 0)).sum

theorem total_kerase (a : K) (l : List (Sigma (fun _ : K => Int))) :
    ((l.kerase a).map (fun entry => if selects entry.1 then entry.2 else 0)).sum =
      (l.map (fun entry => if selects entry.1 then entry.2 else 0)).sum -
        (if selects a then (l.dlookup a).getD 0 else 0) := by
  induction l with
  | nil => simp
  | cons entry rest ih =>
    obtain ⟨b,v⟩ := entry
    by_cases same : a = b
    · subst same
      have erased : List.kerase a (⟨a,v⟩ :: rest) = rest := List.kerase_cons_eq rfl
      rw [erased,List.dlookup_cons_eq]
      simp
    · have erased : List.kerase a (⟨b,v⟩ :: rest) = ⟨b,v⟩ :: List.kerase a rest := List.kerase_cons_ne same
      have found : List.dlookup a (⟨b,v⟩ :: rest) = List.dlookup a rest := List.dlookup_cons_ne rest ⟨b,v⟩ same
      rw [erased,found]
      simp only [List.map_cons,List.sum_cons,ih]
      omega

theorem total_erase (a : K) (h : AList (fun _ : K => Int)) :
    total selects (h.erase a) = total selects h - (if selects a then (h.lookup a).getD 0 else 0) :=
  total_kerase selects a h.entries

theorem total_insert (a : K) (v : Int) (h : AList (fun _ : K => Int)) :
    total selects (h.insert a v) =
      total selects h + (if selects a then v - (h.lookup a).getD 0 else 0) := by
  have entries : (h.insert a v).entries = ⟨a, v⟩ :: h.entries.kerase a := rfl
  rw [total,entries,List.map_cons,List.sum_cons,total_kerase,total,AList.lookup]
  dsimp only
  split <;> omega

end

/-! ### Lists -/

/-- Replacing one entry changes the sum of a measure by the difference of the entries. -/
theorem sum_map_set (measure : V → Int) {entries : List V} {i : Nat} {old : V} (new : V)
    (here : entries[i]? = some old) :
    ((entries.set i new).map measure).sum = (entries.map measure).sum - measure old + measure new := by
  obtain ⟨inside,rfl⟩ := List.getElem?_eq_some_iff.mp here
  have inside' : i < (entries.map measure).length := by rwa [List.length_map]
  rw [List.map_set,List.sum_set',dif_pos inside',List.getElem_map]
  omega

theorem sum_map_zero (measure : V → Int) {entries : List V} (zero : ∀ entry ∈ entries, measure entry = 0) :
    (entries.map measure).sum = 0 := by
  apply List.sum_eq_zero
  intro value member
  obtain ⟨entry,there,rfl⟩ := List.mem_map.mp member
  exact zero entry there

@[simp] theorem sum_map_nothing (entries : List V) : (entries.map (fun _ => (0 : Int))).sum = 0 :=
  sum_map_zero _ (fun _ _ => rfl)

theorem sum_map_neg (measure : V → Int) (entries : List V) :
    (entries.map (fun entry => - measure entry)).sum = - (entries.map measure).sum := by
  induction entries with
  | nil => rfl
  | cons entry rest ih =>
    simp only [List.map_cons,List.sum_cons,ih]
    omega

theorem sum_map_sub (measure other : V → Int) (entries : List V) :
    (entries.map (fun entry => measure entry - other entry)).sum =
      (entries.map measure).sum - (entries.map other).sum := by
  induction entries with
  | nil => rfl
  | cons entry rest ih =>
    simp only [List.map_cons,List.sum_cons,ih]
    omega

/-- Measuring the selected entries as 1 counts them. -/
theorem sum_map_one (selects : V → Bool) (entries : List V) :
    (entries.map (fun entry => one (selects entry))).sum = entries.countP selects := by
  induction entries with
  | nil => rfl
  | cons entry rest ih =>
    rw [List.map_cons,List.sum_cons,ih,List.countP_cons,one]
    split <;> omega

/-- A measure of some entries counts them when it is 1 on the selected ones and 0 on the others. -/
theorem sum_map_countP (measure : V → Int) (selects : V → Bool) {entries : List V}
    (same : ∀ entry ∈ entries, measure entry = one (selects entry)) :
    (entries.map measure).sum = entries.countP selects := by
  rw [List.map_congr_left same,sum_map_one]

theorem sum_map_length (measure : V → Int) {entries : List V} (same : ∀ entry ∈ entries, measure entry = 1) :
    (entries.map measure).sum = entries.length := by
  rw [sum_map_countP measure (fun _ => true) same,List.countP_true]

theorem sum_map_nonneg (measure : V → Int) {entries : List V} (nonneg : ∀ entry ∈ entries, 0 ≤ measure entry) :
    0 ≤ (entries.map measure).sum := by
  apply List.sum_nonneg
  intro value member
  obtain ⟨entry,there,rfl⟩ := List.mem_map.mp member
  exact nonneg entry there

theorem le_sum_map (measure : V → Int) {entries : List V} (nonneg : ∀ entry ∈ entries, 0 ≤ measure entry) {entry : V}
    (member : entry ∈ entries) : measure entry ≤ (entries.map measure).sum := by
  refine List.single_le_sum (fun value there => ?_) _ (List.mem_map_of_mem member)
  obtain ⟨other,inside,rfl⟩ := List.mem_map.mp there
  exact nonneg other inside

/-- When the keys of the entries differ, the entries with the key of one entry weigh what it weighs. -/
theorem sum_map_unique [DecidableEq K] (key : V → K) (measure : V → Int) {entries : List V}
    (different : (entries.map key).Nodup) {entry : V} (member : entry ∈ entries) :
    (entries.map (fun other => if key other = key entry then measure other else 0)).sum = measure entry := by
  induction entries with
  | nil => cases member
  | cons first rest ih =>
    obtain ⟨apart,different'⟩ := List.nodup_cons.mp different
    rw [List.map_cons,List.sum_cons]
    obtain rfl | later := List.mem_cons.mp member
    · have others : (rest.map (fun other => if key other = key entry then measure other else 0)).sum = 0 := by
        refine sum_map_zero _ (fun other inside => if_neg (fun same => apart ?_))
        exact same ▸ List.mem_map_of_mem inside
      rw [if_pos rfl,others]
      omega
    · have other : key first ≠ key entry := fun same => apart (same ▸ List.mem_map_of_mem later)
      rw [if_neg other,ih different' later]
      omega

end AcapyRedis.Sums
