import AcapyRedis.Commands
import AcapyRedis.Rotations

/-!
Which uid `get_new_valid_uid` returns. It takes the candidate at the iterator, or the first
one when the iterator is past the end, and moves the iterator on (`picked`, `moved_on`,
`get_new_valid_uid_picks`). While `HKEYS` lists the uids in one order, calls that follow
one another take them in turn (`round_robin_fair`).
-/
namespace AcapyRedis.RoundRobin
open AcapyRedis.Programs AcapyRedis.Programs.Program AcapyRedis.Python AcapyRedis.RedisStore AcapyRedis.Utils
open AcapyRedis.Threads.Discipline (Issues issues_bind)
open AcapyRedis.Commands AcapyRedis.Rotations

/-! ### The order of the uids -/

/-- Redis when a function rules over what the environment chooses. -/
def exec_by (f : Choice → Choice) (c : Command) (choice : Choice) (s : Store) : c.Reply × Store := exec c (f choice) s

/-- `HKEYS` lists the uids in one order. -/
def in_order (order : List Uid) (choice : Choice) : Choice := { choice with uids := order }

/-- Every `HKEYS` of a run has listed the uids in this order. -/
def Fixed (order : List Uid) (log : List (Event Command Command.Reply)) : Prop :=
  ∀ reply, ⟨.hkeys_recip_keys, reply⟩ ∈ log → reply = order

theorem arranged_order {order keys : List Uid} (perm : order.Perm keys) : arranged order keys = order :=
  if_pos (List.isPerm_iff.mpr perm)

/-- Only `HKEYS` depends on the order. -/
theorem exec_in_order {order : List Uid} {c : Command} {choice : Choice} {s : Store}
    (listed : ∀ reply, (⟨c, (exec c choice s).1⟩ : Event Command Command.Reply) = ⟨.hkeys_recip_keys, reply⟩ → reply = order) :
    exec_by (in_order order) c choice s = exec c choice s := by
  cases c with
  | hkeys_recip_keys =>
    have same := listed _ rfl
    have perm := arranged_perm choice.uids s.uid_recip_keys_map.keys
    rw [show arranged choice.uids s.uid_recip_keys_map.keys = order from same] at perm
    show (arranged order s.uid_recip_keys_map.keys, s) = (arranged choice.uids s.uid_recip_keys_map.keys, s)
    rw [arranged_order perm]
    exact congrArg (·, s) same.symm
  | _ => rfl

/-- A run with a fixed order is one of a Redis that lists the uids in it. -/
theorem runs_in_order {α : Type} {p : Redis α} {order : List Uid} {s s' : Store} {log : List (Event Command Command.Reply)}
    {outcome : Except PyError α} (run : Runs exec p s log outcome s') (fixed : Fixed order log) :
    Runs (exec_by (in_order order)) p s log outcome s' := by
  induction run with
  | done => exact .done
  | raise => exact .raise
  | @command c next s log outcome s' choice _ ih =>
    have same : exec_by (in_order order) c choice s = exec c choice s :=
      exec_in_order (fun reply here => fixed reply (here ▸ List.mem_cons_self))
    have rest := ih (fun reply member => fixed reply (List.mem_cons_of_mem _ member))
    rw [← same] at rest ⊢
    exact .command choice rest

theorem runs_exec {α : Type} {p : Redis α} {f : Choice → Choice} {s s' : Store} {log : List (Event Command Command.Reply)}
    {outcome : Except PyError α} (run : Runs (exec_by f) p s log outcome s') : Runs exec p s log outcome s' := by
  induction run with
  | done => exact .done
  | raise => exact .raise
  | command choice _ ih => exact .command (f choice) ih

/-- A program that only selects uids sees the same uids all the time. -/
theorem selects_fixed {α : Type} {p : Redis α} {order : List Uid} {s s' : Store} {log : List (Event Command Command.Reply)}
    {outcome : Except PyError α} (selects : Issues Selects p) (perm : order.Perm s.uid_recip_keys_map.keys)
    (run : Runs (exec_by (in_order order)) p s log outcome s') : Fixed order log := by
  induction run with
  | done => exact fun _ member => absurd member List.not_mem_nil
  | raise => exact fun _ member => absurd member List.not_mem_nil
  | @command c next s log outcome s' choice _ ih =>
    have kept : (exec_by (in_order order) c choice s).2.uid_recip_keys_map = s.uid_recip_keys_map := by
      cases c <;> first | rfl | exact selects.1.elim
    have later := ih (selects.2 _ trivial) (by rw [kept]; exact perm)
    intro reply member
    obtain here | there := List.mem_cons.mp member
    · cases here
      exact arranged_order perm
    · exact later reply there

/-! ### One call -/

/-- The iterator as a call reads it. -/
def iterator (s : Store) : Int := s.round_robin_iterator.getD 0

/-- The uid at the iterator, or the first one. -/
def picked (next_iter : Int) : List Uid → Option Uid
  | [] => none
  | first :: rest => some ((subscript (first :: rest) next_iter).getD first)

/-- The next iterator for a number of uids. -/
def moved_on (next_iter : Int) (uids : Nat) : Int := if next_iter + 1 < uids then next_iter + 1 else 0

/-- The uids to choose from, as Redis lists them. -/
def listed_candidates (f : Choice → Choice) (to_ignore_uid : Option Uid) (choice : Choice) (s : Store) : List Uid :=
  candidates to_ignore_uid (arranged (f choice).uids s.uid_recip_keys_map.keys)

theorem candidates_ne_nil {ignored : Option Uid} {uid_list : List Uid} (some_uid : uid_list ≠ []) :
    candidates ignored uid_list ≠ [] := by
  cases ignored with
  | none => exact some_uid
  | some old =>
    simp only [candidates]
    split
    · next many =>
      have := List.le_length_erase (a := old) (l := uid_list)
      exact List.length_pos_iff.mp (by omega)
    · exact some_uid

/-- A uid that may be chosen from a list: the one to ignore only if there is no other. -/
structure Choosable (to_ignore_uid : Option Uid) (uid_list : List Uid) (uid : Uid) : Prop where
  listed : uid ∈ uid_list
  alone : to_ignore_uid = some uid → uid_list = [uid]

theorem candidates_choosable {ignored : Option Uid} {uid_list : List Uid} {uid : Uid} (distinct : uid_list.Nodup)
    (member : uid ∈ candidates ignored uid_list) : Choosable ignored uid_list uid := by
  cases ignored with
  | none => exact ⟨member, fun none => by cases none⟩
  | some old =>
    simp only [candidates] at member
    split at member
    · obtain ⟨different,there⟩ := distinct.mem_erase_iff.mp member
      exact ⟨there, fun same => absurd (Option.some.inj same).symm different⟩
    · next few =>
      refine ⟨member, fun _ => ?_⟩
      obtain ⟨only,rfl⟩ := List.length_eq_one_iff.mp (show uid_list.length = 1 by
        have := List.length_pos_of_mem member
        omega)
      rw [List.mem_singleton.mp member]

theorem read_round_robin_ends {f : Choice → Choice} {post : Except PyError Int → Store → Prop} (s : Store)
    (read : post (.ok (iterator s)) { s with round_robin_iterator := some (iterator s) }) :
    Ends (exec_by f) post read_round_robin s := by
  rw [read_round_robin]
  cases present : s.round_robin_iterator with
  | none =>
    simp only [iterator,present,Option.getD_none] at read
    simpa [exec_by,exec,present] using read
  | some n =>
    have same : { s with round_robin_iterator := some n } = s := by rw [← present]
    simp only [iterator,present,Option.getD_some,same] at read
    simpa [exec_by,exec,present] using read

/-- With a registered uid the selection ends at once: it returns the candidate at the
    iterator and changes nothing but the iterator. -/
theorem get_new_valid_uid_picks {f : Choice → Choice} {post : Except PyError Uid → Store → Prop} (ignored : Option Uid)
    (patience : Nat) (s : Store) (some_uid : s.uid_recip_keys_map.keys ≠ [])
    (chosen : ∀ choice u, picked (iterator s) (listed_candidates f ignored choice s) = some u →
      post (.ok u) { s with
        round_robin_iterator := some (moved_on (iterator s) (listed_candidates f ignored choice s).length) }) :
    Ends (exec_by f) post (get_new_valid_uid ignored (patience+1)) s := by
  rw [get_new_valid_uid,ends_bind]
  apply read_round_robin_ends
  simp only [continues_ok,ends_bind,Program.call,ends_command,ends_done,exec_by,exec]
  intro choice
  have perm := arranged_perm (f choice).uids s.uid_recip_keys_map.keys
  have ends := chosen choice
  rw [listed_candidates] at ends
  cases listed : candidates ignored (arranged (f choice).uids s.uid_recip_keys_map.keys) with
  | nil => exact absurd listed (candidates_ne_nil (fun none => some_uid (none ▸ perm).nil_eq.symm))
  | cons first rest =>
    rw [listed] at ends
    simp only [take_uid,ends_bind,Program.call,ends_command,ends_done,continues_ok,Program.pure_eq]
    intro _
    exact ends _ rfl

theorem picked_mem {next_iter : Int} {uids : List Uid} {u : Uid} (found : picked next_iter uids = some u) : u ∈ uids := by
  cases uids with
  | nil => cases found
  | cons first rest =>
    cases item : subscript (first :: rest) next_iter with
    | none =>
      rw [picked,item] at found
      exact Option.some.inj found ▸ List.mem_cons_self
    | some other =>
      rw [picked,item] at found
      exact Option.some.inj found ▸ subscript_mem item

theorem moved_on_nonneg {next_iter : Int} (nonneg : 0 ≤ next_iter) (uids : Nat) : 0 ≤ moved_on next_iter uids := by
  unfold moved_on
  split <;> omega

/-- Inside the list the iterator goes around. -/
theorem moved_on_inside {i n : Nat} (inside : i < n) : moved_on i n = ((i + 1) % n : Nat) := by
  unfold moved_on
  by_cases last : i + 1 < n
  · rw [if_pos (by omega),Nat.mod_eq_of_lt last]
    rfl
  · have whole : i + 1 = n := by omega
    rw [if_neg (by omega),whole,Nat.mod_self]
    rfl

theorem picked_inside {uids : List Uid} {i : Nat} (inside : i < uids.length) : picked i uids = uids[i]? := by
  cases uids with
  | nil => exact absurd inside (Nat.not_lt_zero i)
  | cons first rest =>
    have found : subscript (first :: rest) (i : Int) = (first :: rest)[i]? := by
      rw [subscript,if_pos (Int.natCast_nonneg i),Int.toNat_natCast]
    rw [picked,found,List.getElem?_eq_getElem inside]
    rfl

/-- Past the end it is the first uid. -/
theorem picked_outside {first : Uid} {rest : List Uid} {next_iter : Int} (outside : (first :: rest).length ≤ next_iter) :
    picked next_iter (first :: rest) = some first := by
  have nonneg : 0 ≤ next_iter := le_trans (Int.natCast_nonneg _) outside
  have found : subscript (first :: rest) next_iter = none := by
    rw [subscript,if_pos nonneg]
    exact List.getElem?_eq_none (by omega)
  rw [picked,found]
  rfl

/-! ### Calls in a row -/

/-- Calls that follow one another, none of which ignores a uid. -/
def calls (patience : Nat) : Nat → Redis (List Uid)
  | 0 => return []
  | m+1 => do
    let new_uid ← get_new_valid_uid none patience
    return new_uid :: (← calls patience m)

theorem calls_issues (patience m : Nat) : Issues Selects (calls patience m) := by
  induction m with
  | zero => trivial
  | succ m ih =>
    exact issues_bind (get_new_valid_uid_issues none patience) (fun _ => issues_bind ih (fun _ => trivial))

/-- The store has its iterator at a position of the order. -/
def At (order : List Uid) (i : Nat) (s : Store) : Prop := iterator s = i ∧ order.Perm s.uid_recip_keys_map.keys

theorem calls_take {order : List Uid} (some_uid : order ≠ []) (patience m : Nat) :
    ∀ (i : Nat) (s : Store) (post : Except PyError (List Uid) → Store → Prop), i < order.length → At order i s →
      (∀ s', At order ((i + m) % order.length) s' →
        (s.round_robin_iterator ≠ none ∨ m ≠ 0 → s'.round_robin_iterator ≠ none) → post (.ok (taken order i m)) s') →
      Ends (exec_by (in_order order)) post (calls (patience+1) m) s := by
  induction m with
  | zero =>
    intro i s post inside here ends
    refine ends s ?_ (fun stored => stored.resolve_right (fun some_call => some_call rfl))
    rwa [Nat.add_zero,Nat.mod_eq_of_lt inside]
  | succ m ih =>
    intro i s post inside here ends
    obtain ⟨start,perm⟩ := here
    have some_key : s.uid_recip_keys_map.keys ≠ [] := by
      intro none
      rw [none] at perm
      exact some_uid perm.eq_nil
    rw [calls,ends_bind]
    apply get_new_valid_uid_picks none patience s some_key
    intro choice u found
    have listed : listed_candidates (in_order order) none choice s = order := arranged_order perm
    rw [listed,start] at found ⊢
    rw [picked_inside inside] at found
    have later : At order ((i + 1) % order.length) { s with round_robin_iterator := some (moved_on i order.length) } :=
      ⟨moved_on_inside inside, perm⟩
    simp only [continues_ok,ends_bind]
    apply ih _ _ _ (Nat.mod_lt _ (List.length_pos_iff.mpr some_uid)) later
    intro s' there kept
    have turn : taken order i (m+1) = u :: taken order ((i + 1) % order.length) m := by
      rw [taken,Nat.mod_eq_of_lt inside,found,taken_mod]
      rfl
    have last : ((i + 1) % order.length + m) % order.length = (i + (m + 1)) % order.length := by
      rw [Nat.add_comm m 1,← Nat.add_assoc]
      exact Nat.ModEq.add_right m (Nat.mod_modEq _ _)
    rw [last] at there
    rw [turn] at ends
    exact ends s' there (fun _ => kept (.inl (Option.some_ne_none _)))

/-- Calls in a row while the order of the uids does not change return, each uid as often as
    the others up to rounding, and leave the iterator inside the list. -/
theorem round_robin_fair (patience : Nat) {s : Store} {order : List Uid} (some_uid : order ≠ [])
    (perm : order.Perm s.uid_recip_keys_map.keys)
    (stored : ∀ i, s.round_robin_iterator = some i → 0 ≤ i ∧ i < order.length) {m : Nat} (some_call : 1 ≤ m) :
    (∃ log us s', Runs exec (calls (patience+1) m) s log (.ok us) s' ∧ Fixed order log) ∧
    ∀ log outcome s', Runs exec (calls (patience+1) m) s log outcome s' → Fixed order log →
      ∃ us, outcome = .ok us ∧ us.length = m ∧
        (∀ u ∈ s.uid_recip_keys_map, us.count u = m / order.length ∨ us.count u = (m + order.length - 1) / order.length) ∧
        ∃ i, s'.round_robin_iterator = some i ∧ 0 ≤ i ∧ i < order.length := by
  have positive : 0 < order.length := List.length_pos_iff.mpr some_uid
  obtain ⟨i,inside,start⟩ : ∃ i : Nat, i < order.length ∧ iterator s = i := by
    cases value : s.round_robin_iterator with
    | none => exact ⟨0, positive, by rw [iterator,value]; rfl⟩
    | some i =>
      obtain ⟨nonneg,below⟩ := stored i value
      refine ⟨i.toNat, by omega, ?_⟩
      rw [iterator,value]
      exact (Int.toNat_of_nonneg nonneg).symm
  have ends : Ends (exec_by (in_order order)) (fun outcome s' => outcome = .ok (taken order i m) ∧
      At order ((i + m) % order.length) s' ∧ s'.round_robin_iterator ≠ none) (calls (patience+1) m) s :=
    calls_take some_uid patience m i s _ inside ⟨start,perm⟩
      (fun s' there kept => ⟨rfl, there, kept (.inr (Nat.ne_of_gt some_call))⟩)
  constructor
  · obtain ⟨log,outcome,s',run⟩ := ends.runs
    obtain ⟨rfl,_⟩ := ends.post_of_runs run
    exact ⟨log, _, s', runs_exec run, selects_fixed (calls_issues (patience+1) m) perm run⟩
  · intro log outcome s' run fixed
    obtain ⟨rfl,⟨there,_⟩,stays⟩ := ends.post_of_runs (runs_in_order run fixed)
    have distinct : order.Nodup := perm.nodup_iff.mpr s.uid_recip_keys_map.keys_nodup
    refine ⟨_, rfl, taken_length some_uid i m, fun u registered => ?_, ?_⟩
    · exact taken_fair distinct (perm.mem_iff.mpr registered) i m
    · obtain ⟨j,last⟩ := Option.ne_none_iff_exists'.mp stays
      rw [iterator,last,Option.getD_some] at there
      have below : (i + m) % order.length < order.length := Nat.mod_lt _ positive
      exact ⟨j, last, by omega, by omega⟩

/-- Two registered uids and no iterator. -/
def two_uids : Store :=
  { Store.empty with uid_recip_keys_map := (Store.empty.uid_recip_keys_map.insert uid_b []).insert uid_a [] }

theorem round_robin_fair_two : ∃ log us s', Runs exec (calls 1 3) two_uids log (.ok us) s' ∧
    us.length = 3 ∧ (us.count uid_a = 1 ∨ us.count uid_a = 2) := by
  have perm : [uid_b, uid_a].Perm two_uids.uid_recip_keys_map.keys := by decide
  have stored : ∀ i, two_uids.round_robin_iterator = some i → 0 ≤ i ∧ i < [uid_b, uid_a].length :=
    fun _ there => by cases there
  obtain ⟨⟨log,us,s',run,fixed⟩,each⟩ := round_robin_fair 0 (by decide) perm stored (show 1 ≤ 3 by decide)
  obtain ⟨_,⟨rfl⟩,three,counts,_⟩ := each log _ s' run fixed
  exact ⟨log, us, s', run, three, counts uid_a (by decide)⟩

end AcapyRedis.RoundRobin
