import Mathlib.Logic.Relation
import AcapyRedis.Orphans

/-!
Calls that fail midway. A call that runs alone finds its copies of the key lists up
to date at every write (`Exact`), so after each of its commands a key is listed by its
owner or owed by the call. When a command raises, the call stops with the duty that
its executed commands leave: the key of that duty may be lost for good, no other is.
-/
namespace AcapyRedis.Failures
open AcapyRedis.Programs AcapyRedis.Programs.Program AcapyRedis.Python AcapyRedis.RedisStore AcapyRedis.Utils
open AcapyRedis.Threads AcapyRedis.Commands AcapyRedis.Orphans

/-! ### One call alone -/

/-- The copies of a call that runs alone: what it read first and has not written since
    is still stored, and nothing was added to what it read last. -/
structure Exact (g : Ledger) (s : Store) : Prop where
  first : ∀ u copy, g.first u = some copy → ∀ k, k ∈ s.recip_keys u ↔ k ∈ copy
  last : ∀ u copy, g.last u = some copy → ∀ k ∈ s.recip_keys u, k ∈ copy

theorem exact_up_to_date {g : Ledger} {s : Store} (copies : Exact g s) (c : Command) : g.up_to_date s c := by
  cases c with
  | hset_recip_keys u change ks =>
    intro copy read k listed _
    cases change with
    | gains l => exact .inl (copies.last u copy read k listed)
    | loses l => exact .inl ((copies.first u copy read k).mp listed)
  | hdel_recip_keys u => exact fun copy read k listed _ => copies.last u copy read k listed
  | _ => trivial

/-- The copies that are left after one of a uid was used up. -/
theorem update_none {f : Uid → Option (List RecipKey)} {u v : Uid} {copy : List RecipKey}
    (read : Function.update f u none v = some copy) : v ≠ u ∧ f v = some copy := by
  by_cases same : v = u
  · subst same
    simp at read
  · exact ⟨same, by rwa [Function.update_of_ne same] at read⟩

/-- Without a copy there is nothing to be out of date. -/
theorem blank_exact (duty : Duty) (s : Store) : Exact ⟨duty, fun _ => none, fun _ => none⟩ s :=
  ⟨fun _ _ read => absurd read (by simp), fun _ _ read => absurd read (by simp)⟩

section
variable {g : Ledger} {s s' : Store} {u : Uid}

/-- A list that was written or deleted is not among the copies read first any more. -/
theorem first_dropped (copies : Exact g s) (others : ∀ v, v ≠ u → s'.recip_keys v = s.recip_keys v) :
    ∀ v copy, Function.update g.first u none v = some copy → ∀ k, k ∈ s'.recip_keys v ↔ k ∈ copy := by
  intro v copy read k
  obtain ⟨other,before⟩ := update_none read
  rw [others v other]
  exact copies.first v copy before k

theorem last_dropped (copies : Exact g s) (others : ∀ v, v ≠ u → s'.recip_keys v = s.recip_keys v) :
    ∀ v copy, Function.update g.last u none v = some copy → ∀ k ∈ s'.recip_keys v, k ∈ copy := by
  intro v copy read k listed
  obtain ⟨other,before⟩ := update_none read
  rw [others v other] at listed
  exact copies.last v copy before k listed

theorem read_exact (copies : Exact g s) (u : Uid) :
    Exact (g.next ⟨.hget_recip_keys u, s.uid_recip_keys_map.lookup u⟩) s := by
  constructor
  · intro v copy read k
    by_cases same : v = u
    · subst same
      simp only [Ledger.next,Function.update_self,Option.some.injEq] at read
      subst read
      cases before : g.first v with
      | none => rfl
      | some old => exact copies.first v old before k
    · simp only [Ledger.next,Function.update_of_ne same] at read
      exact copies.first v copy read k
  · intro v copy read k listed
    by_cases same : v = u
    · subst same
      simp only [Ledger.next,Function.update_self,Option.some.injEq] at read
      subst read
      exact listed
    · simp only [Ledger.next,Function.update_of_ne same] at read
      exact copies.last v copy read k listed

/-- A list that lost a key has no key that the copy read last does not have. -/
theorem lose_exact (copies : Exact g s) {l : RecipKey} {ks ks' : List RecipKey} (perm : ks'.Perm ks)
    (may : g.may (.hset_recip_keys u (.loses l) ks)) :
    Exact (g.next ⟨.hset_recip_keys u (.loses l) ks, ()⟩)
      { s with uid_recip_keys_map := s.uid_recip_keys_map.insert u ks' } := by
  obtain ⟨_,first,read_first,same⟩ := may
  constructor
  · exact first_dropped copies (fun v other => recip_keys_insert_ne s ks' other)
  · intro v copy read k listed
    refine copies.last v copy read k ?_
    have stored : k ∈ ((s.uid_recip_keys_map.insert u ks').lookup v).getD [] := listed
    by_cases here : v = u
    · subst here
      have written : k ∈ ks := by simpa [perm.mem_iff] using stored
      exact (copies.first v first read_first k).mpr ((same k).mp written).1
    · rwa [recip_keys_insert_ne s ks' here] at stored

end

theorem step_exact {g : Ledger} {s : Store} {c : Command} (choice : Choice) (copies : Exact g s) (may : g.may c) :
    Exact (g.next ⟨c, (exec c choice s).1⟩) (exec c choice s).2 := by
  cases c with
  | get_round_robin => exact blank_exact g.duty s
  | hget_recip_keys u => exact read_exact copies u
  | hset_recip_keys u change ks =>
    cases change with
    | gains l =>
      exact ⟨first_dropped copies (fun v other => recip_keys_insert_ne s _ other),
        last_dropped copies (fun v other => recip_keys_insert_ne s _ other)⟩
    | loses l => exact lose_exact copies (arranged_perm _ _) may
  | hset_no_recip_keys u => exact may.elim
  | hdel_recip_keys u =>
    exact ⟨first_dropped copies (fun v other => recip_keys_erase_ne s other),
      last_dropped copies (fun v other => recip_keys_erase_ne s other)⟩
  | _ => exact ⟨copies.first, copies.last⟩

/-- The invariant of one call alone, where the `lost` keys need not be listed. -/
def Alone (lost : RecipKey → Prop) (g : Ledger) (s : Store) : Prop := Owed lost s [g] ∧ Exact g s

theorem step_alone (lost : RecipKey → Prop) (g : Ledger) (s : Store) (c : Command) (choice : Choice)
    (inv : Alone lost g s) (may : keeper.may g c) :
    keeper.answers g ⟨c, (exec c choice s).1⟩ ∧ Alone lost (keeper.next g ⟨c, (exec c choice s).1⟩) (exec c choice s).2 :=
  ⟨trivial, step_owed inv.1 (i := 0) rfl choice may ((exact_up_to_date inv.2 c).but lost), step_exact choice inv.2 may⟩

/-- Every owned key is in the list of its owner, except for the lost ones. -/
def ListedBut (lost : RecipKey → Prop) (s : Store) : Prop :=
  ∀ k u, s.recip_key_uid_map.lookup k = some u → k ∈ s.recip_keys u ∨ lost k

theorem start_alone {lost : RecipKey → Prop} {s : Store} (start : ListedBut lost s) : Alone lost keeper.first s :=
  ⟨fun k u owner => (start k u owner).imp_right .inl, blank_exact .settled s⟩

/-- A call that runs to its end loses no further key. -/
theorem call_keeps {json_loads : Bytes ⊕ Text → Except PyError Json} {lost : RecipKey → Prop} {p : Redis (String × Entry)}
    {s s' : Store} {log : List (Event Command Command.Reply)} {outcome : Except PyError (String × Entry)}
    (call : IsCall json_loads p) (start : ListedBut lost s) (run : Runs exec p s log outcome s') : ListedBut lost s' := by
  obtain ⟨patience,now,payload,topic,rfl⟩ := call
  obtain ⟨⟨owed,_⟩,settled⟩ := Discipline.follows_runs (Alone lost) (step_alone lost)
    (process_payload_settles json_loads patience now payload topic keeper.first rfl) (start_alone start) run
  exact fun k u owner => owed.settled (fun g there => List.mem_singleton.mp there ▸ settled) owner

/-! ### A call that fails -/

/-- The key that a failed call had halfway: taken out of a list and given no owner yet,
    or given an owner and not listed yet. -/
def halfway (log : List (Event Command Command.Reply)) (k : RecipKey) : Prop :=
  (keeper.ghost log).duty = .moved k ∨ ∃ u, (keeper.ghost log).duty = .adding k u

/-- One call without errors, run to its end. -/
def Called (json_loads : Bytes ⊕ Text → Except PyError Json) (s s' : Store) : Prop :=
  ∃ p log outcome, IsCall json_loads p ∧ Runs exec p s log outcome s'

theorem fail_keeps {json_loads : Bytes ⊕ Text → Except PyError Json} {s s' : Store} {patience n : Nat} {now : Int}
    {payload : Bytes} {topic : String} {error : PyError} {log : List (Event Command Command.Reply)}
    {outcome : Except PyError (String × Entry)} (start : NoOrphans s)
    (run : Runs exec ((process_payload_recip_key json_loads patience now payload topic).failAt error n) s log outcome s') :
    ListedBut (halfway log) s' := by
  have alone : Alone (fun _ => False) keeper.first s := start_alone (fun k u owner => .inl (start k u owner))
  obtain ⟨owed,_⟩ := Discipline.follows_fails (Alone fun _ => False) (step_alone _) error n
    (process_payload_settles json_loads patience now payload topic keeper.first rfl)
    (process_payload_escapes json_loads patience now payload topic) alone run
  intro k u owner
  rcases owed k u owner with listed | gone | ⟨g,there,owes⟩
  · exact .inl listed
  · exact gone.elim
  · rw [List.mem_singleton.mp there] at owes
    exact .inr (owes.imp_right (fun adding => ⟨u,adding⟩))

/-- When a command of a call raises and is not executed, then in the state that the call
    leaves and after any later calls without errors every owned key is in the list of
    its owner, except for the key that the failed call had halfway. -/
theorem failed_call_orphans {json_loads : Bytes ⊕ Text → Except PyError Json} {s s' s'' : Store} {patience n : Nat}
    {now : Int} {payload : Bytes} {topic : String} {error : PyError} {log : List (Event Command Command.Reply)}
    {outcome : Except PyError (String × Entry)} (start : NoOrphans s)
    (run : Runs exec ((process_payload_recip_key json_loads patience now payload topic).failAt error n) s log outcome s')
    (later : Relation.ReflTransGen (Called json_loads) s' s'') :
    ∀ k u, s''.recip_key_uid_map.lookup k = some u → k ∈ s''.recip_keys u ∨ halfway log k := by
  induction later with
  | refl => exact fail_keeps start run
  | tail _ called ih =>
    obtain ⟨p,log',outcome',call,run'⟩ := called
    exact call_keeps call ih run'

/-! ### A failed assignment

The first call fails when it reads the list of the uid that it has made the owner of
the key `k`; a second call for the key finds the owner and lists nothing. -/

/-- The store that the failed call leaves. -/
def half_assigned : Store := (((call_of (packed protected_k)).failAt .RedisError 7).leaves exec one_uid).1

/-- The store after another call for the same key. -/
def called_again : Store := ((call_of (packed protected_k)).leaves exec half_assigned).1

theorem half_assigned_runs :
    ∃ log, Runs exec ((call_of (packed protected_k)).failAt .RedisError 7) one_uid log (.error .RedisError) half_assigned :=
  leaves_runs rfl

theorem called_again_called : Called loads_two half_assigned called_again := by
  obtain ⟨log,run⟩ := leaves_runs (show ((call_of (packed protected_k)).leaves exec half_assigned).2 =
    some (.ok (topic_list "t" "k", .inbound (packed protected_k) none)) from rfl)
  exact ⟨_, log, _, ⟨1,0,packed protected_k,"t",rfl⟩, run⟩

theorem failed_call_orphans_key : NoOrphans one_uid ∧
    (∃ log, Runs exec ((call_of (packed protected_k)).failAt .RedisError 7) one_uid log (.error .RedisError) half_assigned) ∧
    ¬ NoOrphans half_assigned ∧ Called loads_two half_assigned called_again ∧ ¬ NoOrphans called_again := by
  refine ⟨one_uid_no_orphans, half_assigned_runs, ?_, called_again_called, ?_⟩
  · intro kept
    exact absurd (kept "k" uid_a (by decide)) (by decide)
  · intro kept
    exact absurd (kept "k" uid_a (by decide)) (by decide)

theorem failed_call_orphans_half :
    ∃ log, Runs exec ((call_of (packed protected_k)).failAt .RedisError 7) one_uid log (.error .RedisError) half_assigned ∧
      ∀ k u, called_again.recip_key_uid_map.lookup k = some u → k ∈ called_again.recip_keys u ∨ halfway log k := by
  obtain ⟨log,run⟩ := half_assigned_runs
  exact ⟨log, run, failed_call_orphans one_uid_no_orphans run (.single called_again_called)⟩

end AcapyRedis.Failures
