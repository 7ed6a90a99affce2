import AcapyRedis.Sums
import Mathlib.Data.List.Sort

/-!
Redis sorted sets: members with an integer score. `ZADD` of a present member only
changes its score, `ZREM` says how many members it removed, and `ZRANGEBYSCORE` lists
a range by score and, among equal scores, by the order of the members.
-/
namespace AcapyRedis.SortedSets
open AcapyRedis.Sums

variable {M : Type}

abbrev SortedSet (M : Type) := AList (fun _ : M => Int)

/-- The sum of a measure of the members. -/
def weigh (measure : M → Int) (z : SortedSet M) : Int := (z.keys.map measure).sum

@[simp] theorem weigh_nothing (z : SortedSet M) : weigh (fun _ => 0) z = 0 := sum_map_nothing z.keys

variable [DecidableEq M]

def zadd (z : SortedSet M) (member : M) (score : Int) : SortedSet M := z.insert member score

/-- The number of removed members and what is left. -/
def zrem (z : SortedSet M) (member : M) : Nat × SortedSet M :=
  if member ∈ z then (1, z.erase member) else (0, z)

/-- The first `num` members with scores from `min` to `max`; `before` is the order of
    the members. -/
def zrangebyscore (before : M → M → Bool) (z : SortedSet M) (min max : Int) (num : Nat) : List M :=
  let inRange := z.entries.filter (fun entry => decide (min ≤ entry.2 ∧ entry.2 ≤ max))
  let sorted := inRange.insertionSort (fun a b => a.2 < b.2 ∨ (a.2 = b.2 ∧ before a.1 b.1 = true))
  (sorted.take num).map (fun entry => entry.1)

@[simp] theorem mem_zadd {z : SortedSet M} {member other : M} {score : Int} :
    other ∈ zadd z member score ↔ other = member ∨ other ∈ z := AList.mem_insert z

section
variable (before : M → M → Bool) (z : SortedSet M) (min max : Int) (num : Nat)

omit [DecidableEq M] in
theorem zrangebyscore_length : (zrangebyscore before z min max num).length ≤ num := by
  rw [zrangebyscore,List.length_map]
  exact List.length_take_le _ _

omit [DecidableEq M] in
theorem zrangebyscore_mem {member : M} (listed : member ∈ zrangebyscore before z min max num) : member ∈ z := by
  obtain ⟨entry,taken,rfl⟩ := List.mem_map.mp listed
  have sorted := (List.mem_insertionSort _).mp (List.mem_of_mem_take taken)
  exact AList.mem_keys.mpr (List.mem_keys_of_mem (List.mem_filter.mp sorted).1)

/-- A member in the range makes the answer nonempty. -/
theorem zrangebyscore_nonempty {member : M} {score : Int} (scored : z.lookup member = some score)
    (inside : min ≤ score ∧ score ≤ max) (some_rows : 0 < num) : zrangebyscore before z min max num ≠ [] := by
  have there : (⟨member, score⟩ : Sigma (fun _ : M => Int)) ∈ z.entries := AList.mem_lookup_iff.mp scored
  have sorted : (⟨member, score⟩ : Sigma (fun _ : M => Int)) ∈
      (z.entries.filter (fun entry => decide (min ≤ entry.2 ∧ entry.2 ≤ max))).insertionSort
        (fun a b => a.2 < b.2 ∨ (a.2 = b.2 ∧ before a.1 b.1 = true)) :=
    (List.mem_insertionSort _).mpr (List.mem_filter.mpr ⟨there,decide_eq_true inside⟩)
  intro empty
  rw [zrangebyscore,List.map_eq_nil_iff,List.take_eq_nil_iff] at empty
  rcases empty with zero | none_there
  · omega
  · rw [none_there] at sorted
    cases sorted

end

theorem weigh_zadd (measure : M → Int) (z : SortedSet M) (member : M) (score : Int) :
    weigh measure (zadd z member score) = weigh measure z + if member ∈ z then 0 else measure member := by
  rw [weigh,zadd,AList.keys_insert,List.map_cons,List.sum_cons,weigh]
  split
  · next there => rw [List.sum_map_erase measure (AList.mem_keys.mp there)]; omega
  · next absent => rw [List.erase_of_not_mem (fun there => absent (AList.mem_keys.mpr there))]; omega

theorem weigh_erase (measure : M → Int) {z : SortedSet M} {member : M} (there : member ∈ z) :
    weigh measure (z.erase member) = weigh measure z - measure member := by
  have whole := List.sum_map_erase measure (AList.mem_keys.mp there)
  rw [weigh,AList.keys_erase,weigh]
  omega

/-- The answer of a removal says whether the member was there. -/
theorem zrem_one {z left : SortedSet M} {member : M} (answer : zrem z member = (1, left)) :
    member ∈ z ∧ left = z.erase member := by
  by_cases there : member ∈ z
  · rw [zrem,if_pos there] at answer
    exact ⟨there, (Prod.mk.inj answer).2.symm⟩
  · rw [zrem,if_neg there] at answer
    exact absurd (Prod.mk.inj answer).1 (by decide)

theorem zrem_zero {z left : SortedSet M} {member : M} (answer : zrem z member = (0, left)) :
    member ∉ z ∧ left = z := by
  by_cases there : member ∈ z
  · rw [zrem,if_pos there] at answer
    exact absurd (Prod.mk.inj answer).1 (by decide)
  · rw [zrem,if_neg there] at answer
    exact ⟨there, (Prod.mk.inj answer).2.symm⟩

/-- Measuring one member as 1 says whether it is there. -/
theorem weigh_member (z : SortedSet M) (member : M) :
    weigh (fun other => one (decide (other = member))) z = one (decide (member ∈ z)) := by
  have counted : weigh (fun other => one (decide (other = member))) z = z.keys.count member := sum_map_one _ z.keys
  rw [counted,z.keys_nodup.count]
  by_cases there : member ∈ z
  · simp only [AList.mem_keys.mp there,there,↓reduceIte,decide_true,one_true]
    rfl
  · have absent : member ∉ z.keys := fun key => there (AList.mem_keys.mpr key)
    simp only [absent,there,↓reduceIte,decide_false,one_false]
    rfl

end AcapyRedis.SortedSets
