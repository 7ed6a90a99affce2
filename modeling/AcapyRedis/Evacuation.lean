import AcapyRedis.Sequential

/-!
What a call does to a stale uid that has a pending message. All its keys are moved one
after another (`Moves`): each with its counter (`moves_counters`). With another uid in the
map nothing of the old one is left (`Vacated`), without one everything comes back to it
(`Kept`); the message is counted for the owner of its key in the end
(`count_for_runs`).
-/
namespace AcapyRedis.Evacuation
open AcapyRedis.Programs AcapyRedis.Programs.Program AcapyRedis.Python AcapyRedis.RedisStore AcapyRedis.Utils
open AcapyRedis.Inbound AcapyRedis.RoundRobin AcapyRedis.Sharding AcapyRedis.Sequential

/-! ### The parts of a call -/

/-- What a call does once its key has an owner. -/
def count_for (patience : Nat) (now : Int) (recip_key_in : RecipKey) (plugin_uid : Uid) : Redis Unit := do
  let last_accessed_map_value ← redis (.hget_last_access plugin_uid)
  let plugin_uid ← if stale_uid_check now last_accessed_map_value then
      evacuate patience plugin_uid recip_key_in
    else pure plugin_uid
  redis (.hincrby_pending (uid_recip_key plugin_uid recip_key_in) 1)

theorem process_recip_key_parts (patience : Nat) (now : Int) (recip_key_in : RecipKey) :
    process_recip_key patience now recip_key_in =
      find_or_assign patience recip_key_in >>= count_for patience now recip_key_in := rfl

/-- The uid is stale for the call and one of its keys has a pending message. -/
def Reassigns (now : Int) (old : Uid) (s : Store) : Prop :=
  stale_uid_check now (s.uid_last_access_map.lookup old) = true ∧ hasPending s old (s.recip_keys old) = true

theorem count_for_ends {f : Choice → Choice} {post : Except PyError Unit → Store → Prop} (patience : Nat) (now : Int)
    {k : RecipKey} {old : Uid} {s : Store} (inv : Listed s)
    (rests : ¬ Reassigns now old s → post (.ok ()) (counted_up s old k))
    (ends : Reassigns now old s → ∀ moves s', Moves f old moves s s' → moves.map (·.1) = s.recip_keys old →
      post (.ok ()) (counted_up (swept s' old) (landed k old moves) k)) :
    Ends (exec_by f) post (count_for (patience+1) now k old) s := by
  simp only [count_for,ends_bind,Program.call,ends_command,ends_done,continues_ok,exec_by,exec]
  intro _
  cases stale : stale_uid_check now (s.uid_last_access_map.lookup old) with
  | true =>
    simp only [↓reduceIte,ends_bind]
    refine evacuate_moves patience inv (fun settled => ?_) (fun pending moves s' run same => ?_)
    · have still : ¬ Reassigns now old s := fun reassigns => by rw [reassigns.2] at settled; cases settled
      simp only [continues_ok,ends_command,ends_done]
      exact fun _ => rests still
    · simp only [continues_ok,ends_command,ends_done]
      exact fun _ => ends ⟨stale,pending⟩ moves s' run same
  | false =>
    have still : ¬ Reassigns now old s := fun reassigns => by rw [reassigns.1] at stale; cases stale
    simp only [Bool.false_eq_true,↓reduceIte,pure_eq]
    exact fun _ => rests still

/-- Without a uid the key has no owner and the call waits. -/
theorem no_uid_waits {post : Except PyError Uid → Store → Prop} (patience : Nat) {k : RecipKey} {s : Store}
    (inv : Listed s) (none : s.uid_recip_keys_map.keys = []) : Leads exec post (find_or_assign patience k) s := by
  have waits : ∀ (post : Except PyError Uid → Store → Prop) (patience : Nat) (s : Store), s.uid_recip_keys_map.keys = [] →
      Leads exec post (get_new_valid_uid Option.none patience) s := by
    intro post patience
    induction patience with
    | zero => exact fun _ _ => trivial
    | succ patience ih =>
      intro s none
      have nothing : ∀ order, arranged order ([] : List Uid) = [] := fun order => (arranged_perm order []).eq_nil
      cases present : s.round_robin_iterator with
      | none =>
        have later := ih { s with round_robin_iterator := some 0 } none
        simpa [get_new_valid_uid,read_round_robin,exec,present,none,nothing,candidates] using later
      | some n => simpa [get_new_valid_uid,read_round_robin,exec,present,none,nothing,candidates] using ih _ none
  have free : s.recip_key_uid_map.lookup k = Option.none := by
    cases owner : s.recip_key_uid_map.lookup k with
    | none => rfl
    | some u =>
      have there : u ∈ s.uid_recip_keys_map.keys := inv.owner_in_map owner
      rw [none] at there
      cases there
  simp only [find_or_assign,Program.call,leads_bind,leads_command,leads_done,onward_ok,exec,free,Option.isSome_none,
    Bool.false_eq_true,↓reduceIte,assign_recip_key_to_new_uid]
  exact fun _ => waits _ patience s none

/-- A call for a key that comes to its end has found or assigned the owner of its key and
    has then counted the message. -/
theorem call_parts {json_loads : Bytes ⊕ Text → Except PyError Json} {patience : Nat} {now : Int} {payload : Bytes}
    {topic : String} {s s' : Store} {log : List (Event Command Command.Reply)} {outcome : Except PyError (String × Entry)}
    (inv : Listed s) {k : RecipKey} (key : recip_key_of json_loads payload = .ok k)
    (run : Runs exec (process_payload_recip_key json_loads (patience+1) now payload topic) s log outcome s') :
    ∃ old s₁ first later, log = first ++ later ∧ Runs exec (find_or_assign (patience+1) k) s first (.ok old) s₁ ∧
      Found k old s s₁ ∧ Runs exec (count_for (patience+1) now k old) s₁ later (.ok ()) s' := by
  have some_uid : s.uid_recip_keys_map.keys ≠ [] := by
    intro none
    have never : Leads exec (fun _ _ => False) (process_payload_recip_key json_loads (patience+1) now payload topic) s := by
      simp only [process_payload_recip_key,key,process_recip_key_parts,leads_bind]
      exact no_uid_waits (patience+1) inv none
    exact never.post_of_runs run
  have found : Ends exec (fun outcome s₁ => ∃ old, outcome = .ok old ∧ Found k old s s₁) (find_or_assign (patience+1) k) s :=
    find_or_assign_ends patience inv some_uid (fun old s₁ found => ⟨old,rfl,found⟩)
  simp only [process_payload_recip_key,key,process_recip_key_parts,bind_bind] at run
  obtain ⟨error,_,raised⟩ | ⟨old,s₁,first,rest,rfl,first_run,run⟩ := runs_bind run
  · obtain ⟨_,same,_⟩ := found.post_of_runs raised
    cases same
  obtain ⟨_,⟨rfl⟩,owner⟩ := found.post_of_runs first_run
  have counts : Ends exec (fun outcome _ => outcome = .ok ()) (count_for (patience+1) now k old) s₁ :=
    count_for_ends (f := id) patience now owner.listed (fun _ => rfl) (fun _ _ _ _ _ => rfl)
  obtain ⟨error,_,raised⟩ | ⟨_,s₂,later,last,rfl,count_run,run⟩ := runs_bind run
  · cases counts.post_of_runs raised
  cases run
  exact ⟨old, s₁, first, later, by rw [List.append_nil], first_run, owner, count_run⟩

/-! ### Counters -/

/-- The counters of a key that went from `old` to `new`, perhaps the same uid. -/
structure Carried (old : Uid) (k : RecipKey) (new : Uid) (s s' : Store) : Prop where
  added : new ≠ old →
    s'.pending (uid_recip_key new k) = s.pending (uid_recip_key old k) + s.pending (uid_recip_key new k)
  cleared : new ≠ old → s'.uid_recip_key_pending_msg_count.lookup (uid_recip_key old k) = none
  returned : new = old → s'.uid_recip_key_pending_msg_count.lookup (uid_recip_key old k) =
    s.uid_recip_key_pending_msg_count.lookup (uid_recip_key old k)
  others : ∀ v, v ≠ old → v ≠ new → s'.uid_recip_key_pending_msg_count.lookup (uid_recip_key v k) =
    s.uid_recip_key_pending_msg_count.lookup (uid_recip_key v k)

section
variable {f : Choice → Choice} {k : RecipKey} {old new : Uid} {moves : List (RecipKey × Uid)} {s s' s'' : Store}

theorem countMoved_ne {field : String} (other : field ≠ uid_recip_key old k) (other' : field ≠ uid_recip_key new k) :
    (countMoved s k old new).lookup field = s.uid_recip_key_pending_msg_count.lookup field := by
  unfold countMoved
  split
  · rw [AList.lookup_insert_ne other',AList.lookup_erase_ne other]
  · rw [AList.lookup_erase_ne other]

theorem moved_carried (n : Int) (ks ks' : List RecipKey) : Carried old k new s (moved s n k old new ks ks') where
  added other := by
    have apart : uid_recip_key new k ≠ uid_recip_key old k := uid_recip_key_ne_uid k k other
    simp only [Store.pending,moved,countMoved]
    cases count : s.uid_recip_key_pending_msg_count.lookup (uid_recip_key old k) with
    | none => simp [AList.lookup_erase_ne apart]
    | some count => simp [AList.lookup_erase_ne apart,Int.add_comm]
  cleared other := by
    have apart : uid_recip_key old k ≠ uid_recip_key new k := uid_recip_key_ne_uid k k (Ne.symm other)
    simp only [moved,countMoved]
    split
    · rw [AList.lookup_insert_ne apart,AList.lookup_erase]
    · exact AList.lookup_erase _ _
  returned same := by
    subst same
    simp only [moved,countMoved]
    cases count : s.uid_recip_key_pending_msg_count.lookup (uid_recip_key new k) with
    | none => exact AList.lookup_erase _ _
    | some count => simp
  others v other other' := countMoved_ne (uid_recip_key_ne_uid k k other) (uid_recip_key_ne_uid k k other')

/-- Counters of the key that are the same in other stores. -/
theorem Carried.congr {t t' : Store} (carried : Carried old k new s s')
    (before : ∀ v, s.uid_recip_key_pending_msg_count.lookup (uid_recip_key v k) =
      t.uid_recip_key_pending_msg_count.lookup (uid_recip_key v k))
    (after : ∀ v, s'.uid_recip_key_pending_msg_count.lookup (uid_recip_key v k) =
      t'.uid_recip_key_pending_msg_count.lookup (uid_recip_key v k)) : Carried old k new t t' := by
  obtain ⟨added,cleared,returned,others⟩ := carried
  simp only [Store.pending,before,after] at added cleared returned others
  exact ⟨added,cleared,returned,others⟩

/-- Every counter goes with its key; the counters of other keys stay. -/
theorem moves_counters (run : Moves f old moves s s') (distinct : (moves.map (·.1)).Nodup) :
    (∀ field, (∀ k ∈ moves.map (·.1), ∀ v, field ≠ uid_recip_key v k) →
      s'.uid_recip_key_pending_msg_count.lookup field = s.uid_recip_key_pending_msg_count.lookup field) ∧
    ∀ k new, (k, new) ∈ moves → Carried old k new s s' := by
  induction run with
  | nil => exact ⟨fun _ _ => rfl, fun _ _ member => absurd member List.not_mem_nil⟩
  | @cons s s' l target ks ks' moves choice found left gained rest ih =>
    obtain ⟨fresh,distinct⟩ := List.nodup_cons.mp distinct
    obtain ⟨untouched,carried⟩ := ih distinct
    -- the rest of the moves leaves the counters of the first key alone
    have apart : ∀ v, ∀ k ∈ moves.map (·.1), ∀ w, uid_recip_key v l ≠ uid_recip_key w k := by
      intro v k member w
      exact uid_recip_key_ne_key w v (by rintro rfl; exact fresh member)
    constructor
    · intro field other
      rw [untouched field (fun k member => other k (List.mem_cons_of_mem l member))]
      exact countMoved_ne (other l List.mem_cons_self old) (other l List.mem_cons_self target)
    · intro k new member
      obtain here | later := List.mem_cons.mp member
      · cases here
        exact (moved_carried _ ks ks').congr (fun _ => rfl) (fun v => (untouched _ (apart v)).symm)
      · have other : k ≠ l := by
          rintro rfl
          exact fresh (List.mem_map.mpr ⟨_, later, rfl⟩)
        refine (carried k new later).congr (fun v => ?_) (fun _ => rfl)
        exact countMoved_ne (uid_recip_key_ne_key old v other) (uid_recip_key_ne_key target v other)

end

/-! ### After the call -/

/-- Nothing of `old` is left: each of its keys is in the list of its new owner alone, with its
    counter, where the message of the call is counted; other keys are left alone. -/
structure Vacated (key : RecipKey) (old : Uid) (s s' : Store) : Prop where
  gone : old ∉ s'.uid_recip_keys_map
  unowned : ∀ k, s'.recip_key_uid_map.lookup k ≠ some old
  uncounted : ∀ k ∈ s.recip_keys old, s'.uid_recip_key_pending_msg_count.lookup (uid_recip_key old k) = none
  placed : ∀ k ∈ s.recip_keys old, ∃ new, s'.recip_key_uid_map.lookup k = some new ∧ new ≠ old ∧
    new ∈ s.uid_recip_keys_map ∧ (∀ v, (s'.recip_keys v).count k = if v = new then 1 else 0) ∧
    s'.pending (uid_recip_key new k) = s.pending (uid_recip_key old k) + s.pending (uid_recip_key new k) +
      if k = key then 1 else 0
  others : ∀ k ∉ s.recip_keys old, s'.recip_key_uid_map.lookup k = s.recip_key_uid_map.lookup k ∧
    ∀ v, (s'.recip_keys v).count k = (s.recip_keys v).count k ∧
      s'.uid_recip_key_pending_msg_count.lookup (uid_recip_key v k) =
        s.uid_recip_key_pending_msg_count.lookup (uid_recip_key v k)

/-- The maps are as before, the lists up to the order of their keys, and only the message of
    the call is counted. -/
structure Kept (key : RecipKey) (old : Uid) (s s' : Store) : Prop where
  uids : ∀ v, v ∈ s'.uid_recip_keys_map ↔ v ∈ s.uid_recip_keys_map
  lists : ∀ v, (s'.recip_keys v).Perm (s.recip_keys v)
  owners : ∀ k, s'.recip_key_uid_map.lookup k = s.recip_key_uid_map.lookup k
  counted : s'.uid_recip_key_pending_msg_count.lookup (uid_recip_key old key) =
    some (s.pending (uid_recip_key old key) + 1)
  counters : ∀ field, field ≠ uid_recip_key old key →
    s'.uid_recip_key_pending_msg_count.lookup field = s.uid_recip_key_pending_msg_count.lookup field

section
variable {f : Choice → Choice} {key : RecipKey} {old : Uid} {moves : List (RecipKey × Uid)} {s s' : Store}

theorem count_listed (inv : Listed s) (k : RecipKey) (v : Uid) :
    (s.recip_keys v).count k = if s.recip_key_uid_map.lookup k = some v then 1 else 0 := by
  by_cases owned : s.recip_key_uid_map.lookup k = some v
  · rw [if_pos owned,List.count_eq_one_of_mem (inv.distinct v) ((inv.listed k v).mpr owned)]
  · rw [if_neg owned,List.count_eq_zero.mpr (fun listed => owned ((inv.listed k v).mp listed))]

theorem another_iff (there : old ∈ s.uid_recip_keys_map) :
    (∃ v ∈ s.uid_recip_keys_map, v ≠ old) ↔ 1 < s.uid_recip_keys_map.keys.length := by
  have distinct := s.uid_recip_keys_map.keys_nodup
  have size : (s.uid_recip_keys_map.keys.erase old).length + 1 = s.uid_recip_keys_map.keys.length := by
    rw [List.length_erase_of_mem (AList.mem_keys.mp there)]
    exact Nat.succ_pred_eq_of_pos (List.length_pos_of_mem (AList.mem_keys.mp there))
  constructor
  · rintro ⟨v,registered,other⟩
    have left := List.length_pos_of_mem (distinct.mem_erase_iff.mpr ⟨other, AList.mem_keys.mp registered⟩)
    omega
  · intro many
    obtain ⟨v,member⟩ := List.exists_mem_of_length_pos (l := s.uid_recip_keys_map.keys.erase old) (by omega)
    obtain ⟨other,registered⟩ := distinct.mem_erase_iff.mp member
    exact ⟨v, AList.mem_keys.mpr registered, other⟩

theorem counted_up_lookup (s : Store) (u : Uid) (k : RecipKey) :
    (counted_up s u k).uid_recip_key_pending_msg_count.lookup (uid_recip_key u k) =
      some (s.pending (uid_recip_key u k) + 1) := AList.lookup_insert _

theorem counted_up_ne (s : Store) {u : Uid} {k : RecipKey} {field : String} (other : field ≠ uid_recip_key u k) :
    (counted_up s u k).uid_recip_key_pending_msg_count.lookup field = s.uid_recip_key_pending_msg_count.lookup field :=
  AList.lookup_insert_ne other

/-- The message is counted for the new owner of its key. -/
theorem counted_up_pending (s : Store) (u v : Uid) (key k : RecipKey) (own : k = key → u = v) :
    (counted_up s v key).pending (uid_recip_key u k) = s.pending (uid_recip_key u k) + if k = key then 1 else 0 := by
  by_cases here : k = key
  · obtain rfl := own here
    subst here
    rw [Store.pending,counted_up_lookup,if_pos rfl]
    rfl
  · rw [Store.pending,counted_up_ne s (uid_recip_key_ne_key v u here),if_neg here]
    exact (Int.add_zero _).symm

/-- What the moves of all keys of a uid have done. -/
structure Moved (f : Choice → Choice) (old : Uid) (moves : List (RecipKey × Uid)) (s s' : Store) : Prop where
  run : Moves f old moves s s'
  all : moves.map (·.1) = s.recip_keys old

namespace Moved

theorem relocated (moved : Moved f old moves s s') (inv : Listed s) : Relocated old (s.recip_keys old) s s' := by
  have distinct : (moves.map (·.1)).Nodup := moved.all ▸ inv.distinct old
  exact moved.all ▸ moved.run.relocated inv distinct (fun k member => (inv.listed k old).mp (moved.all ▸ member))

theorem owner (moved : Moved f old moves s s') (inv : Listed s) {k : RecipKey} {new : Uid}
    (member : (k, new) ∈ moves) : s'.recip_key_uid_map.lookup k = some new := by
  have distinct : (moves.map (·.1)).Nodup := moved.all ▸ inv.distinct old
  exact moved.run.owners inv distinct (fun k member => (inv.listed k old).mp (moved.all ▸ member)) member

theorem carried (moved : Moved f old moves s s') (inv : Listed s) {k : RecipKey} {new : Uid}
    (member : (k, new) ∈ moves) : Carried old k new s s' :=
  (moves_counters moved.run (moved.all ▸ inv.distinct old)).2 k new member

theorem untouched (moved : Moved f old moves s s') (inv : Listed s) {field : String}
    (other : ∀ k ∈ s.recip_keys old, ∀ v, field ≠ uid_recip_key v k) :
    s'.uid_recip_key_pending_msg_count.lookup field = s.uid_recip_key_pending_msg_count.lookup field :=
  (moves_counters moved.run (moved.all ▸ inv.distinct old)).1 field (fun k member => other k (moved.all ▸ member))

theorem target (moved : Moved f old moves s s') {k : RecipKey} (listed : k ∈ s.recip_keys old) :
    ∃ new, (k, new) ∈ moves := by
  rw [← moved.all] at listed
  obtain ⟨⟨_,new⟩,member,rfl⟩ := List.mem_map.mp listed
  exact ⟨new,member⟩

/-- The key of the call is among those that were moved. -/
theorem landed_owner (moved : Moved f old moves s s') (inv : Listed s) (owner : s.recip_key_uid_map.lookup key = some old) :
    (key, landed key old moves) ∈ moves := by
  refine landed_mem ?_
  rw [moved.all]
  exact (inv.listed key old).mpr owner

end Moved

/-- With another uid in the map all keys leave the old one. -/
theorem moved_vacated (inv : Listed s) (owner : s.recip_key_uid_map.lookup key = some old)
    (moved : Moved f old moves s s') (another : ∃ v ∈ s.uid_recip_keys_map, v ≠ old) :
    Vacated key old s (counted_up (swept s' old) (landed key old moves) key) := by
  have there := inv.owner_in_map owner
  have many := (another_iff there).mp another
  have relocated := moved.relocated inv
  have empty : s'.recip_keys old = [] := (relocated_recip_keys inv relocated there).1 many
  have same : swept s' old = { s' with uid_recip_keys_map := s'.uid_recip_keys_map.erase old } := by
    rw [swept,empty]
    rfl
  have listed : Listed (swept s' old) := same ▸ erase_empty_listed relocated.listed empty
  have counts : ∀ field, (swept s' old).uid_recip_key_pending_msg_count.lookup field =
      s'.uid_recip_key_pending_msg_count.lookup field := fun field => by rw [same]
  have owners : (swept s' old).recip_key_uid_map = s'.recip_key_uid_map := by rw [same]
  have leaves : ∀ k new, (k, new) ∈ moves → new ≠ old ∧ new ∈ s.uid_recip_keys_map := by
    intro k new member
    obtain ⟨new',owned,eligible⟩ := relocated.placed k (moved.all ▸ List.mem_map.mpr ⟨_, member, rfl⟩)
    obtain rfl := Option.some.inj ((moved.owner inv member).symm.trans owned)
    exact ⟨fun stays => eligible.2 many (by rw [stays]), eligible.1⟩
  have lands := moved.landed_owner inv owner
  have key_listed : key ∈ s.recip_keys old := (inv.listed key old).mpr owner
  have lists : ∀ v, (counted_up (swept s' old) (landed key old moves) key).recip_keys v = (swept s' old).recip_keys v :=
    fun _ => rfl
  refine ⟨?_, fun k owned => ?_, fun k member => ?_, fun k member => ?_, fun k absent => ⟨?_, fun v => ⟨?_, ?_⟩⟩⟩
  · show old ∉ (swept s' old).uid_recip_keys_map
    rw [same]
    simp [AList.mem_erase]
  · have listed' := (listed.listed k old).mpr owned
    have none : (swept s' old).recip_keys old = [] := by
      rw [same]
      exact (erase_empty_recip_keys empty old).trans empty
    rw [none] at listed'
    cases listed'
  · obtain ⟨new,moved_to⟩ := moved.target member
    have other : uid_recip_key old k ≠ uid_recip_key (landed key old moves) key :=
      uid_recip_key_ne_uid key k (Ne.symm (leaves _ _ lands).1)
    rw [counted_up_ne _ other,counts]
    exact (moved.carried inv moved_to).cleared (leaves k new moved_to).1
  · obtain ⟨new,moved_to⟩ := moved.target member
    obtain ⟨other,registered⟩ := leaves k new moved_to
    have owned : (swept s' old).recip_key_uid_map.lookup k = some new := owners ▸ moved.owner inv moved_to
    have own : k = key → new = landed key old moves := by
      rintro rfl
      exact Option.some.inj ((moved.owner inv moved_to).symm.trans (moved.owner inv lands))
    refine ⟨new, owned, other, registered, fun v => ?_, ?_⟩
    · rw [lists,count_listed listed,owned]
      simp only [Option.some.injEq,eq_comm]
    · rw [counted_up_pending _ _ _ _ _ own]
      have added := (moved.carried inv moved_to).added other
      rw [Store.pending] at added ⊢
      rw [counts,added]
  · show (swept s' old).recip_key_uid_map.lookup k = s.recip_key_uid_map.lookup k
    rw [owners]
    exact relocated.kept k absent
  · rw [lists,count_listed listed,count_listed inv,owners,relocated.kept k absent]
  · have other : k ≠ key := fun here => absent (here ▸ key_listed)
    rw [counted_up_ne _ (uid_recip_key_ne_key _ v other),counts]
    refine moved.untouched inv (fun l member w => uid_recip_key_ne_key w v ?_)
    rintro rfl
    exact absent member

/-- Without another uid all keys come back to the old one. -/
theorem moved_kept (inv : Listed s) (owner : s.recip_key_uid_map.lookup key = some old)
    (moved : Moved f old moves s s') (alone : ∀ v ∈ s.uid_recip_keys_map, v = old) :
    Kept key old s (counted_up (swept s' old) (landed key old moves) key) := by
  have there := inv.owner_in_map owner
  have few : ¬ 1 < s.uid_recip_keys_map.keys.length := by
    rw [← another_iff there]
    rintro ⟨v,registered,other⟩
    exact other (alone v registered)
  have relocated := moved.relocated inv
  have key_listed : key ∈ s.recip_keys old := (inv.listed key old).mpr owner
  have some_key : s'.recip_keys old ≠ [] :=
    List.ne_nil_of_mem ((relocated_recip_keys inv relocated there).2 few key key_listed)
  have same : swept s' old = s' := if_neg (by rwa [List.isEmpty_iff])
  have stays : ∀ k new, (k, new) ∈ moves → new = old := by
    intro k new member
    obtain ⟨new',owned,eligible⟩ := relocated.placed k (moved.all ▸ List.mem_map.mpr ⟨_, member, rfl⟩)
    obtain rfl := Option.some.inj ((moved.owner inv member).symm.trans owned)
    exact alone _ eligible.1
  have lands : landed key old moves = old := stays key _ (moved.landed_owner inv owner)
  have owners : ∀ k, s'.recip_key_uid_map.lookup k = s.recip_key_uid_map.lookup k := by
    intro k
    by_cases member : k ∈ s.recip_keys old
    · obtain ⟨new,moved_to⟩ := moved.target member
      rw [moved.owner inv moved_to,stays k new moved_to,(inv.listed k old).mp member]
    · exact relocated.kept k member
  have counters : ∀ field, s'.uid_recip_key_pending_msg_count.lookup field =
      s.uid_recip_key_pending_msg_count.lookup field := by
    intro field
    by_cases touched : ∃ k ∈ s.recip_keys old, ∃ v, field = uid_recip_key v k
    · obtain ⟨k,member,v,rfl⟩ := touched
      obtain ⟨new,moved_to⟩ := moved.target member
      have carried := moved.carried inv moved_to
      by_cases own : v = old
      · rw [own]
        exact carried.returned (stays k new moved_to)
      · exact carried.others v own (fun lands => own (lands.trans (stays k new moved_to)))
    · exact moved.untouched inv (fun k member v here => touched ⟨k, member, v, here⟩)
  rw [same,lands]
  refine ⟨relocated.uids, fun v => ?_, owners, ?_, fun field other => ?_⟩
  · refine (List.perm_ext_iff_of_nodup (relocated.listed.distinct v) (inv.distinct v)).mpr (fun k => ?_)
    rw [relocated.listed.listed,inv.listed,owners]
  · rw [counted_up_lookup,Store.pending,Store.pending,counters]
  · rw [counted_up_ne _ other,counters]

/-- The rest of a call counts the message for the owner, or moves all its keys before. -/
theorem count_for_runs {patience : Nat} {now : Int} (inv : Listed s) {log : List (Event Command Command.Reply)}
    {outcome : Except PyError Unit} (run : Runs (exec_by f) (count_for (patience+1) now key old) s log outcome s') :
    (¬ Reassigns now old s → s' = counted_up s old key) ∧
    (Reassigns now old s → ∃ moves t, Moved f old moves s t ∧
      s' = counted_up (swept t old) (landed key old moves) key) := by
  have ends : Ends (exec_by f) (fun _ s' => (¬ Reassigns now old s → s' = counted_up s old key) ∧
      (Reassigns now old s → ∃ moves t, Moved f old moves s t ∧ s' = counted_up (swept t old) (landed key old moves) key))
      (count_for (patience+1) now key old) s :=
    count_for_ends patience now inv (fun rests => ⟨fun _ => rfl, fun reassigns => absurd reassigns rests⟩)
      (fun reassigns moves t run all => ⟨fun rests => absurd reassigns rests, fun _ => ⟨moves, t, ⟨run,all⟩, rfl⟩⟩)
  exact ends.post_of_runs run

/-- Giving up a uid changes nothing but the key lists. -/
theorem swept_frame (s : Store) (u : Uid) :
    swept s u = { s with uid_recip_keys_map := (swept s u).uid_recip_keys_map } := by
  unfold swept
  split <;> rfl

theorem moves_nonneg (run : Moves f old moves s s') (nonneg : 0 ≤ iterator s) : 0 ≤ iterator s' := by
  induction run with
  | nil => exact nonneg
  | cons choice found left gained rest ih => exact ih (moved_on_nonneg nonneg _)

end

/-- The rest of a call takes at most the uid that it got out of the map. -/
theorem count_for_uids {patience : Nat} {now : Int} {k : RecipKey} {old : Uid} {s s' : Store}
    {log : List (Event Command Command.Reply)} {outcome : Except PyError Unit} (inv : Listed s)
    (owner : s.recip_key_uid_map.lookup k = some old)
    (run : Runs exec (count_for (patience+1) now k old) s log outcome s') :
    ∀ w, w ∈ s'.uid_recip_keys_map ↔ w ∈ s.uid_recip_keys_map ∧
      ¬ (w = old ∧ stale_uid_check now (s.uid_last_access_map.lookup old) = true ∧ gives_up s old = true) := by
  suffices ends : Ends exec (fun _ s' => ∀ w, w ∈ s'.uid_recip_keys_map ↔ w ∈ s.uid_recip_keys_map ∧
      ¬ (w = old ∧ stale_uid_check now (s.uid_last_access_map.lookup old) = true ∧ gives_up s old = true))
      (count_for (patience+1) now k old) s from ends.post_of_runs run
  simp only [count_for,ends_bind,Program.call,ends_command,ends_done,continues_ok,exec]
  intro _
  cases stale : stale_uid_check now (s.uid_last_access_map.lookup old) with
  | true =>
    simp only [↓reduceIte,ends_bind]
    apply evacuate_ends patience inv owner
    intro u s₂ evacuated _
    simp only [continues_ok,ends_command,ends_done,exec]
    intro _ w
    simp only [evacuated.uids,true_and]
  | false =>
    simp only [Bool.false_eq_true,↓reduceIte,Program.pure_eq,Program.done_bind,ends_done,ends_command,exec]
    intro _ w
    simp

/-- A call never makes the iterator negative. -/
theorem call_nonneg {json_loads : Bytes ⊕ Text → Except PyError Json} {patience : Nat} {now : Int} {payload : Bytes}
    {topic : String} {s s' : Store} {log : List (Event Command Command.Reply)} {outcome : Except PyError (String × Entry)}
    (inv : Listed s) (nonneg : 0 ≤ iterator s)
    (run : Runs exec (process_payload_recip_key json_loads (patience+1) now payload topic) s log outcome s') :
    0 ≤ iterator s' := by
  cases key : recip_key_of json_loads payload with
  | error error =>
    rw [process_payload_recip_key,key] at run
    cases run
    exact nonneg
  | ok k =>
    obtain ⟨old,s₁,first,later,_,first_run,found,count_run⟩ := call_parts inv key run
    have some_uid : s.uid_recip_keys_map.keys ≠ [] :=
      List.ne_nil_of_mem ((found.uids old).mp (found.listed.owner_in_map found.owner))
    have ends : Ends exec (fun _ s₁ => 0 ≤ iterator s₁) (find_or_assign (patience+1) k) s :=
      find_or_assign_picks (f := id) patience inv some_uid (fun _ _ => nonneg)
        (fun _ _ _ _ _ _ => moved_on_nonneg nonneg _)
    have nonneg₁ := ends.post_of_runs first_run
    obtain ⟨rests,moves⟩ := count_for_runs (f := id) found.listed count_run
    by_cases reassigns : Reassigns now old s₁
    · obtain ⟨_,t,moved,rfl⟩ := moves reassigns
      have stays : 0 ≤ iterator (swept t old) := by
        have same : iterator (swept t old) = iterator t := by
          rw [swept_frame]
          rfl
        rw [same]
        exact moves_nonneg moved.run nonneg₁
      exact stays
    · rw [rests reassigns]
      exact nonneg₁

end AcapyRedis.Evacuation
