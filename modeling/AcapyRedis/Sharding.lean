import AcapyRedis.Inbound
import AcapyRedis.RoundRobin

/-!
The sharding invariant. Between steps that run alone every key is listed by
exactly its owner, and its owner's counter is the number of messages in its list
(`Sharded`). Assigning a key (`assigned_sharded`) and moving one key to another
uid (`moved_sharded`) keep the invariant; the loop of a stale uid moves all its
keys, which empties its list unless it is the only uid (`evacuate_ends`).
-/
namespace AcapyRedis.Sharding
open AcapyRedis.Programs AcapyRedis.Python AcapyRedis.RedisStore AcapyRedis.Utils AcapyRedis.Inbound
open AcapyRedis.RoundRobin

/-- The key lists are the inverse of the owner map and have no duplicates. -/
structure Listed (s : Store) : Prop where
  distinct : ∀ u, (s.recip_keys u).Nodup
  listed : ∀ k u, k ∈ s.recip_keys u ↔ s.recip_key_uid_map.lookup k = some u

/-- Moreover the counters of the keys under a topic agree with their lists. -/
structure Sharded (topic : String) (s : Store) : Prop extends Listed s where
  counted : ∀ k u, s.recip_key_uid_map.lookup k = some u →
    s.uid_recip_key_pending_msg_count.lookup (uid_recip_key u k) = some ((s.lists (topic_list topic k)).length : Int)
  uncounted : ∀ k u, s.recip_key_uid_map.lookup k ≠ some u →
    s.uid_recip_key_pending_msg_count.lookup (uid_recip_key u k) = none
  unowned : ∀ k, s.recip_key_uid_map.lookup k = none → s.lists (topic_list topic k) = []
  records : ∀ k, ∀ entry ∈ s.lists (topic_list topic k), ∃ payload, entry = .inbound payload none

/-- What assigning and moving keys leaves alone. -/
structure SameQueues (s s' : Store) : Prop where
  lists : s'.lists = s.lists
  accesses : s'.uid_last_access_map = s.uid_last_access_map

theorem SameQueues.refl (s : Store) : SameQueues s s := ⟨rfl,rfl⟩
theorem SameQueues.trans {s s' s'' : Store} (first : SameQueues s s') (second : SameQueues s' s'') :
    SameQueues s s'' := ⟨second.lists.trans first.lists, second.accesses.trans first.accesses⟩

/-- The store with a list written for a uid. -/
def withKeys (s : Store) (u : Uid) (ks : List RecipKey) : Store :=
  { s with uid_recip_keys_map := s.uid_recip_keys_map.insert u ks }

theorem Listed.unlisted {s : Store} (inv : Listed s) {k : RecipKey} (free : s.recip_key_uid_map.lookup k = none)
    (u : Uid) : k ∉ s.recip_keys u := by
  intro listed
  rw [(inv.listed k u).mp listed] at free
  cases free

theorem Listed.elsewhere {s : Store} (inv : Listed s) {k : RecipKey} {u : Uid}
    (owner : s.recip_key_uid_map.lookup k = some u) {v : Uid} (other : v ≠ u) : k ∉ s.recip_keys v := by
  intro listed
  have both := (inv.listed k v).mp listed
  rw [owner] at both
  exact other (Option.some.inj both).symm

theorem Listed.owner_in_map {s : Store} (inv : Listed s) {k : RecipKey} {u : Uid}
    (owner : s.recip_key_uid_map.lookup k = some u) : u ∈ s.uid_recip_keys_map := by
  have listed := (inv.listed k u).mpr owner
  rw [← AList.lookup_isSome]
  cases there : s.uid_recip_keys_map.lookup u with
  | none => simp [Store.recip_keys,there] at listed
  | some ks => rfl

/-- No other uid has a counter for a key than its owner. -/
theorem Sharded.sole_counter {topic : String} {s : Store} (inv : Sharded topic s) {k : RecipKey} {u v : Uid}
    (owner : s.recip_key_uid_map.lookup k = some u) (other : v ≠ u) :
    s.uid_recip_key_pending_msg_count.lookup (uid_recip_key v k) = none := by
  refine inv.uncounted k v ?_
  rw [owner]
  exact fun same => other (Option.some.inj same).symm

/-- A change of one key keeps the counters in step with the lists when only the owner of
    the key has a counter for it, the length of its list. -/
theorem changed_sharded {topic : String} {s s' : Store} (inv : Sharded topic s) (listed : Listed s') {k : RecipKey}
    {u : Uid} (owner : s'.recip_key_uid_map.lookup k = some u)
    (owners : ∀ l, l ≠ k → s'.recip_key_uid_map.lookup l = s.recip_key_uid_map.lookup l)
    (queues : ∀ l, l ≠ k → s'.lists (topic_list topic l) = s.lists (topic_list topic l))
    (records : ∀ entry ∈ s'.lists (topic_list topic k), ∃ payload, entry = .inbound payload none)
    (counter : s'.uid_recip_key_pending_msg_count.lookup (uid_recip_key u k) =
      some ((s'.lists (topic_list topic k)).length : Int))
    (cleared : ∀ v, v ≠ u → s'.uid_recip_key_pending_msg_count.lookup (uid_recip_key v k) = none)
    (counters : ∀ l v, l ≠ k → s'.uid_recip_key_pending_msg_count.lookup (uid_recip_key v l) =
      s.uid_recip_key_pending_msg_count.lookup (uid_recip_key v l)) : Sharded topic s' := by
  refine ⟨listed, ?_, ?_, ?_, ?_⟩
  · intro l v owned
    by_cases same : l = k
    · subst same
      obtain rfl : u = v := Option.some.inj (owner.symm.trans owned)
      exact counter
    · rw [owners l same] at owned
      rw [counters l v same,queues l same]
      exact inv.counted l v owned
  · intro l v other
    by_cases same : l = k
    · subst same
      refine cleared v ?_
      rintro rfl
      exact other owner
    · rw [owners l same] at other
      rw [counters l v same]
      exact inv.uncounted l v other
  · intro l none
    by_cases same : l = k
    · subst same
      rw [owner] at none
      cases none
    · rw [owners l same] at none
      rw [queues l same]
      exact inv.unowned l none
  · intro l entry member
    by_cases same : l = k
    · subst same
      exact records entry member
    · rw [queues l same] at member
      exact inv.records l entry member

/-! ### Choosing a uid -/

/-- A uid that `get_new_valid_uid` may return. -/
def Eligible (s : Store) (to_ignore_uid : Option Uid) (u : Uid) : Prop :=
  u ∈ s.uid_recip_keys_map ∧ (1 < s.uid_recip_keys_map.keys.length → to_ignore_uid ≠ some u)

theorem candidates_eligible {s : Store} {ignored : Option Uid} {order : List Uid} {u : Uid}
    (perm : order.Perm s.uid_recip_keys_map.keys) (member : u ∈ candidates ignored order) : Eligible s ignored u := by
  have distinct : order.Nodup := perm.nodup_iff.mpr s.uid_recip_keys_map.keys_nodup
  have choosable := candidates_choosable distinct member
  refine ⟨perm.mem_iff.mp choosable.listed, fun many same => ?_⟩
  have len := perm.length_eq
  rw [choosable.alone same,List.length_singleton] at len
  omega

theorem picked_eligible {f : Choice → Choice} {s : Store} {ignored : Option Uid} {choice : Choice} {u : Uid}
    (found : picked (iterator s) (listed_candidates f ignored choice s) = some u) : Eligible s ignored u :=
  candidates_eligible (arranged_perm _ _) (picked_mem found)

/-- With a registered uid the selection ends at once: it returns an eligible uid and
    changes nothing but the iterator. -/
theorem get_new_valid_uid_ends {post : Except PyError Uid → Store → Prop} (ignored : Option Uid) (patience : Nat)
    (s : Store) (some_uid : s.uid_recip_keys_map.keys ≠ [])
    (chosen : ∀ u n, Eligible s ignored u → post (.ok u) { s with round_robin_iterator := some n }) :
    Ends exec post (get_new_valid_uid ignored (patience+1)) s := by
  refine get_new_valid_uid_picks (f := id) ignored patience s some_uid (fun choice u found => ?_)
  exact chosen u _ (picked_eligible found)

/-! ### Assigning a key -/

/-- The store after a key without an owner was assigned to a uid, whose list is
    written as `ks`. -/
def assigned (s : Store) (n : Int) (k : RecipKey) (u : Uid) (ks : List RecipKey) : Store :=
  { s with
    round_robin_iterator := some n
    recip_key_uid_map := s.recip_key_uid_map.insert k u
    uid_recip_keys_map := s.uid_recip_keys_map.insert u ks
    uid_recip_key_pending_msg_count := s.uid_recip_key_pending_msg_count.insert (uid_recip_key u k) 0 }

theorem assign_ends {f : Choice → Choice} {post : Except PyError Uid → Store → Prop} (patience : Nat) {k : RecipKey}
    {s : Store} (inv : Listed s) (some_uid : s.uid_recip_keys_map.keys ≠ [])
    (free : s.recip_key_uid_map.lookup k = none)
    (ends : ∀ choice u ks, picked (iterator s) (listed_candidates f none choice s) = some u →
      ks.Perm (k :: s.recip_keys u) →
      post (.ok u) (assigned s (moved_on (iterator s) (listed_candidates f none choice s).length) k u ks)) :
    Ends (exec_by f) post (assign_recip_key_to_new_uid (patience+1) k) s := by
  rw [assign_recip_key_to_new_uid,ends_bind]
  apply get_new_valid_uid_picks none patience s some_uid
  intro choice u found
  have fresh : k ∉ (s.uid_recip_keys_map.lookup u).getD [] := inv.unlisted free u
  have written : (s.recip_keys u).dedup.insert k = k :: s.recip_keys u := by
    rw [(inv.distinct u).dedup,List.insert_of_not_mem (inv.unlisted free u)]
  simp only [get_recip_keys_list_for_uid,continues_ok,ends_bind,Program.call,ends_command,ends_done,exec_by,exec,
    Program.pure_eq,List.mem_dedup,fresh,not_false_eq_true,↓reduceIte]
  intro _ _ order _
  exact ends choice u _ found (by rw [← written]; exact arranged_perm _ _)

theorem assigned_recip_keys (s : Store) (n : Int) (k : RecipKey) (u : Uid) (ks : List RecipKey) (v : Uid) :
    (assigned s n k u ks).recip_keys v = if v = u then ks else s.recip_keys v := recip_keys_insert s u v ks

theorem assigned_uids {s : Store} (n : Int) (k : RecipKey) {u : Uid} (ks : List RecipKey)
    (there : u ∈ s.uid_recip_keys_map) (v : Uid) :
    v ∈ (assigned s n k u ks).uid_recip_keys_map ↔ v ∈ s.uid_recip_keys_map := by
  simp only [assigned,AList.mem_insert,or_iff_right_iff_imp]
  rintro rfl
  exact there

theorem assigned_listed {s : Store} (inv : Listed s) {k : RecipKey} (u : Uid) (n : Int) {ks : List RecipKey}
    (free : s.recip_key_uid_map.lookup k = none) (perm : ks.Perm (k :: s.recip_keys u)) :
    Listed (assigned s n k u ks) := by
  constructor
  · intro v
    rw [assigned_recip_keys]
    split
    · exact perm.nodup_iff.mpr (List.nodup_cons.mpr ⟨inv.unlisted free u, inv.distinct u⟩)
    · exact inv.distinct v
  · intro l v
    rw [assigned_recip_keys]
    by_cases same : l = k
    · subst same
      by_cases owner : v = u
      · subst owner; simp [assigned,perm.mem_iff]
      · simp [assigned,owner,inv.unlisted free,Ne.symm owner]
    · simp only [assigned,AList.lookup_insert_ne same]
      split
      · next owner => subst owner; simp [perm.mem_iff,same,inv.listed]
      · exact inv.listed l v

/-- An unowned key has no messages, as its new counter says. -/
theorem assigned_sharded {topic : String} {s : Store} (inv : Sharded topic s) {k : RecipKey} (u : Uid) (n : Int)
    {ks : List RecipKey} (free : s.recip_key_uid_map.lookup k = none) (perm : ks.Perm (k :: s.recip_keys u)) :
    Sharded topic (assigned s n k u ks) := by
  refine changed_sharded inv (assigned_listed inv.toListed u n free perm) (AList.lookup_insert _) ?_ (fun _ _ => rfl)
    (inv.records k) ?_ ?_ ?_
  · intro l other
    exact AList.lookup_insert_ne other
  · simp [assigned,inv.unowned k free]
  · intro v other
    have before : s.recip_key_uid_map.lookup k ≠ some v := by simp [free]
    exact (AList.lookup_insert_ne (uid_recip_key_ne_uid k k other)).trans (inv.uncounted k v before)
  · intro l v other
    exact AList.lookup_insert_ne (uid_recip_key_ne_key u v other)

/-! ### Moving a key -/

/-- The counters after the count of a key, if there is one, moved from `old` to `new`. -/
def countMoved (s : Store) (k : RecipKey) (old new : Uid) : Hash String Int :=
  match s.uid_recip_key_pending_msg_count.lookup (uid_recip_key old k) with
  | some count =>
    (s.uid_recip_key_pending_msg_count.erase (uid_recip_key old k)).insert (uid_recip_key new k)
      (((s.uid_recip_key_pending_msg_count.erase (uid_recip_key old k)).lookup (uid_recip_key new k)).getD 0 + count)
  | none => s.uid_recip_key_pending_msg_count.erase (uid_recip_key old k)

/-- The store after a key moved from `old` to `new`, whose lists are written as `ks`
    and `ks'`. -/
def moved (s : Store) (n : Int) (k : RecipKey) (old new : Uid) (ks ks' : List RecipKey) : Store :=
  { s with
    round_robin_iterator := some n
    recip_key_uid_map := s.recip_key_uid_map.insert k new
    uid_recip_keys_map := (s.uid_recip_keys_map.insert old ks).insert new ks'
    uid_recip_key_pending_msg_count := countMoved s k old new }

/-- The keys of the uid that a key moves to, which may be the old uid. -/
def keysAfterMove (s : Store) (k : RecipKey) (old new : Uid) : List RecipKey :=
  if new = old then s.recip_keys old else k :: s.recip_keys new

theorem reassign_ends {f : Choice → Choice} {post : Except PyError Uid → Store → Prop} (patience : Nat) {k : RecipKey}
    {old : Uid} {s : Store} (inv : Listed s) (owner : s.recip_key_uid_map.lookup k = some old)
    (ends : ∀ choice new ks ks', picked (iterator s) (listed_candidates f (some old) choice s) = some new →
      ks.Perm ((s.recip_keys old).erase k) → ks'.Perm (keysAfterMove s k old new) →
      post (.ok new)
        (moved s (moved_on (iterator s) (listed_candidates f (some old) choice s).length) k old new ks ks')) :
    Ends (exec_by f) post (reassign_recip_key_to_uid (patience+1) old k) s := by
  have some_uid : s.uid_recip_keys_map.keys ≠ [] := List.ne_nil_of_mem (inv.owner_in_map owner)
  rw [reassign_recip_key_to_uid,ends_bind]
  apply get_new_valid_uid_picks (some old) patience s some_uid
  intro choice new found
  have left : ∀ order, (arranged order ((s.recip_keys old).dedup.erase k)).Perm ((s.recip_keys old).erase k) := by
    intro order
    rw [(inv.distinct old).dedup]
    exact arranged_perm _ _
  have gained : ∀ order, (arranged order ((s.recip_keys new).dedup.insert k)).Perm (keysAfterMove s k old new) := by
    intro order
    have written : (s.recip_keys new).dedup.insert k = keysAfterMove s k old new := by
      rw [(inv.distinct new).dedup,keysAfterMove]
      split
      · next same => rw [same,List.insert_of_mem ((inv.listed k old).mpr owner)]
      · next other => exact List.insert_of_not_mem (inv.elsewhere owner other)
    rw [← written]
    exact arranged_perm _ _
  simp only [get_recip_keys_list_for_uid,continues_ok,ends_bind,Program.call,ends_command,ends_done,exec_by,exec,
    Program.pure_eq]
  intro _ _ first _ _ _ second
  have ended := ends choice new _ _ found (left (f first).recip_keys) (gained (f second).recip_keys)
  cases count : s.uid_recip_key_pending_msg_count.lookup (uid_recip_key old k) with
  | some count =>
    simp only [ends_bind,ends_command,ends_done,continues_ok]
    intro _
    simp only [moved,countMoved,count] at ended
    exact ended
  | none =>
    simp only [moved,countMoved,count] at ended
    exact ended

/-- Moving a key takes it from the list of its owner to the list of the new one. -/
theorem moved_recip_keys {s : Store} {n : Int} {k : RecipKey} {old new : Uid} {ks ks' : List RecipKey}
    (v : Uid) : (moved s n k old new ks ks').recip_keys v =
      if v = new then ks' else if v = old then ks else s.recip_keys v := by
  refine (recip_keys_insert (withKeys s old ks) new v ks').trans ?_
  split
  · rfl
  · exact recip_keys_insert s old v ks

/-- The lists stay the inverse of the owner map, also when the new uid is the old one. -/
theorem moved_listed {s : Store} (inv : Listed s) {k : RecipKey} {old : Uid} (new : Uid) (n : Int)
    {ks ks' : List RecipKey} (owner : s.recip_key_uid_map.lookup k = some old)
    (left : ks.Perm ((s.recip_keys old).erase k)) (gained : ks'.Perm (keysAfterMove s k old new)) :
    Listed (moved s n k old new ks ks') := by
  have listed : k ∈ s.recip_keys old := (inv.listed k old).mpr owner
  constructor
  · intro v
    rw [moved_recip_keys]
    split
    · rw [gained.nodup_iff,keysAfterMove]
      split
      · exact inv.distinct old
      · next other => exact List.nodup_cons.mpr ⟨inv.elsewhere owner other, inv.distinct new⟩
    · split
      · exact left.nodup_iff.mpr ((inv.distinct old).erase k)
      · exact inv.distinct v
  · intro l v
    rw [moved_recip_keys]
    by_cases same : l = k
    · subst same
      simp only [moved,AList.lookup_insert,Option.some.injEq]
      by_cases target : v = new
      · subst target
        rw [if_pos rfl,gained.mem_iff,keysAfterMove]
        split <;> simp [listed]
      · rw [if_neg target]
        split
        · next source =>
          subst source
          simp [left.mem_iff,(inv.distinct v).mem_erase_iff,Ne.symm target]
        · next source => simp [inv.elsewhere owner source,Ne.symm target]
    · simp only [moved,AList.lookup_insert_ne same]
      rw [← inv.listed l v]
      split
      · next target =>
        subst target
        rw [gained.mem_iff,keysAfterMove]
        split
        · next source => rw [source]
        · simp [same]
      · split
        · next source =>
          subst source
          rw [left.mem_iff,(inv.distinct v).mem_erase_iff]
          simp [same]
        · rfl

/-- Without the counter of its owner a key has no counter. -/
theorem erased_counter {topic : String} {s : Store} (inv : Sharded topic s) {k : RecipKey} {old : Uid}
    (owner : s.recip_key_uid_map.lookup k = some old) (v : Uid) :
    (s.uid_recip_key_pending_msg_count.erase (uid_recip_key old k)).lookup (uid_recip_key v k) = none := by
  by_cases same : v = old
  · subst same
    exact AList.lookup_erase _ _
  · rw [AList.lookup_erase_ne (uid_recip_key_ne_uid k k same)]
    exact inv.sole_counter owner same

/-- The counter that a key had moves to its new owner. -/
theorem countMoved_sharded {topic : String} {s : Store} (inv : Sharded topic s) {k : RecipKey} {old : Uid} (new : Uid)
    (owner : s.recip_key_uid_map.lookup k = some old) :
    countMoved s k old new = (s.uid_recip_key_pending_msg_count.erase (uid_recip_key old k)).insert
      (uid_recip_key new k) (s.lists (topic_list topic k)).length := by
  rw [countMoved,inv.counted k old owner]
  simp only [erased_counter inv owner new,Option.getD_none,Int.zero_add]

theorem moved_sharded {topic : String} {s : Store} (inv : Sharded topic s) {k : RecipKey} {old : Uid} (new : Uid)
    (n : Int) {ks ks' : List RecipKey} (owner : s.recip_key_uid_map.lookup k = some old)
    (left : ks.Perm ((s.recip_keys old).erase k)) (gained : ks'.Perm (keysAfterMove s k old new)) :
    Sharded topic (moved s n k old new ks ks') := by
  have counters := countMoved_sharded inv new owner
  refine changed_sharded inv (moved_listed inv.toListed new n owner left gained) (AList.lookup_insert _) ?_
    (fun _ _ => rfl) (inv.records k) ?_ ?_ ?_
  · intro l other
    exact AList.lookup_insert_ne other
  · simp [moved,counters]
  · intro v target
    simp only [moved,counters,AList.lookup_insert_ne (uid_recip_key_ne_uid k k target)]
    exact erased_counter inv owner v
  · intro l v other
    simp only [moved,counters,AList.lookup_insert_ne (uid_recip_key_ne_key new v other),
      AList.lookup_erase_ne (uid_recip_key_ne_key old v other)]

/-! ### Evacuating a stale uid -/

theorem map_keys_length {s s' : Store} (uids : ∀ v, v ∈ s'.uid_recip_keys_map ↔ v ∈ s.uid_recip_keys_map) :
    s'.uid_recip_keys_map.keys.length = s.uid_recip_keys_map.keys.length :=
  ((List.perm_ext_iff_of_nodup s'.uid_recip_keys_map.keys_nodup s.uid_recip_keys_map.keys_nodup).mpr uids).length_eq

theorem eligible_congr {s s' : Store} {ignored : Option Uid} {u : Uid}
    (uids : ∀ v, v ∈ s'.uid_recip_keys_map ↔ v ∈ s.uid_recip_keys_map) :
    Eligible s' ignored u ↔ Eligible s ignored u := by
  rw [Eligible,Eligible,uids,map_keys_length uids]

/-- `s'` comes from `s` by moving the given keys of `old`, each to an eligible uid. -/
structure Relocated (old : Uid) (keys : List RecipKey) (s s' : Store) : Prop where
  listed : Listed s'
  sharded : ∀ topic, Sharded topic s → Sharded topic s'
  queues : SameQueues s s'
  uids : ∀ v, v ∈ s'.uid_recip_keys_map ↔ v ∈ s.uid_recip_keys_map
  kept : ∀ k, k ∉ keys → s'.recip_key_uid_map.lookup k = s.recip_key_uid_map.lookup k
  placed : ∀ k ∈ keys, ∃ new, s'.recip_key_uid_map.lookup k = some new ∧ Eligible s (some old) new

theorem moved_relocated {s : Store} (inv : Listed s) {k : RecipKey} {old new : Uid} {n : Int} {ks ks' : List RecipKey}
    (owner : s.recip_key_uid_map.lookup k = some old) (eligible : Eligible s (some old) new)
    (left : ks.Perm ((s.recip_keys old).erase k)) (gained : ks'.Perm (keysAfterMove s k old new)) :
    Relocated old [k] s (moved s n k old new ks ks') := by
  refine ⟨moved_listed inv new n owner left gained, fun _ sharded => moved_sharded sharded new n owner left gained,
    ⟨rfl,rfl⟩, ?_, ?_, ?_⟩
  · intro v
    have oldThere := inv.owner_in_map owner
    simp only [moved,AList.mem_insert]
    constructor
    · rintro (rfl | rfl | there)
      · exact eligible.1
      · exact oldThere
      · exact there
    · exact fun there => .inr (.inr there)
  · intro l other
    exact AList.lookup_insert_ne (List.mem_singleton.not.mp other)
  · intro l member
    cases List.mem_singleton.mp member
    exact ⟨new, by simp [moved], eligible⟩

theorem Relocated.trans {old : Uid} {k : RecipKey} {rest : List RecipKey} {s s' s'' : Store}
    (first : Relocated old [k] s s') (second : Relocated old rest s' s'') (fresh : k ∉ rest) :
    Relocated old (k :: rest) s s'' := by
  have sharded : ∀ topic, Sharded topic s → Sharded topic s'' := fun topic before =>
    second.sharded topic (first.sharded topic before)
  refine ⟨second.listed, sharded, first.queues.trans second.queues, fun v => (second.uids v).trans (first.uids v),
    ?_, ?_⟩
  · intro l other
    rw [List.mem_cons,not_or] at other
    rw [second.kept l other.2,first.kept l (by simpa using other.1)]
  · intro l member
    by_cases later : l ∈ rest
    · obtain ⟨new,owner,eligible⟩ := second.placed l later
      exact ⟨new, owner, (eligible_congr first.uids).mp eligible⟩
    · have same : l = k := (List.mem_cons.mp member).resolve_right later
      subst same
      rw [second.kept l fresh]
      exact first.placed l (by simp)

/-- The keys that are still to be moved belong to `old` as before. -/
theorem Relocated.owned {old : Uid} {k : RecipKey} {rest : List RecipKey} {s s' : Store}
    (first : Relocated old [k] s s') (fresh : k ∉ rest)
    (owned : ∀ l ∈ k :: rest, s.recip_key_uid_map.lookup l = some old) :
    ∀ l ∈ rest, s'.recip_key_uid_map.lookup l = some old := by
  intro l member
  rw [first.kept l (by rintro same; exact fresh (List.mem_singleton.mp same ▸ member))]
  exact owned l (List.mem_cons_of_mem k member)

/-- The keys move from `old` one after another, each to the candidate at the iterator. -/
inductive Moves (f : Choice → Choice) (old : Uid) : List (RecipKey × Uid) → Store → Store → Prop
  | nil (s : Store) : Moves f old [] s s
  | cons {s s' : Store} {k : RecipKey} {new : Uid} {ks ks' : List RecipKey} {moves : List (RecipKey × Uid)}
      (choice : Choice) : picked (iterator s) (listed_candidates f (some old) choice s) = some new →
      ks.Perm ((s.recip_keys old).erase k) → ks'.Perm (keysAfterMove s k old new) →
      Moves f old moves
        (moved s (moved_on (iterator s) (listed_candidates f (some old) choice s).length) k old new ks ks') s' →
      Moves f old ((k, new) :: moves) s s'

/-- The uid that a key got, if it was moved. -/
def landed (key : RecipKey) (plugin_uid : Uid) (moves : List (RecipKey × Uid)) : Uid :=
  moves.foldl (fun u move => if move.1 = key then move.2 else u) plugin_uid

theorem landed_stays {key : RecipKey} {plugin_uid : Uid} {moves : List (RecipKey × Uid)}
    (absent : key ∉ moves.map (·.1)) : landed key plugin_uid moves = plugin_uid := by
  induction moves generalizing plugin_uid with
  | nil => rfl
  | cons move rest ih =>
    rw [List.map_cons,List.mem_cons,not_or] at absent
    rw [landed,List.foldl_cons,if_neg (Ne.symm absent.1)]
    exact ih absent.2

theorem landed_mem {key : RecipKey} {plugin_uid : Uid} {moves : List (RecipKey × Uid)}
    (moved : key ∈ moves.map (·.1)) : (key, landed key plugin_uid moves) ∈ moves := by
  induction moves generalizing plugin_uid with
  | nil => cases moved
  | cons move rest ih =>
    by_cases later : key ∈ rest.map (·.1)
    · exact List.mem_cons_of_mem _ (ih later)
    · obtain ⟨k,new⟩ := move
      obtain rfl : key = k := by simpa [later] using moved
      have here : landed key plugin_uid ((key, new) :: rest) = landed key new rest := by
        rw [landed,List.foldl_cons,if_pos rfl]
        rfl
      rw [here,landed_stays later]
      exact List.mem_cons_self

section
variable {f : Choice → Choice} {old : Uid} {moves : List (RecipKey × Uid)} {s s' : Store}

theorem Moves.relocated (run : Moves f old moves s s') (inv : Listed s) (distinct : (moves.map (·.1)).Nodup)
    (owned : ∀ k ∈ moves.map (·.1), s.recip_key_uid_map.lookup k = some old) :
    Relocated old (moves.map (·.1)) s s' := by
  induction run with
  | nil s =>
    exact ⟨inv, fun _ sharded => sharded, .refl s, fun _ => .rfl, fun _ _ => rfl, fun _ member => absurd member (by simp)⟩
  | @cons s s' k new ks ks' moves choice found left gained _ ih =>
    obtain ⟨fresh,distinct⟩ := List.nodup_cons.mp distinct
    have owner := owned k List.mem_cons_self
    have first := moved_relocated (n := moved_on (iterator s) (listed_candidates f (some old) choice s).length) inv owner
      (picked_eligible found) left gained
    exact first.trans (ih first.listed distinct (first.owned fresh owned)) fresh

/-- Every moved key belongs to the uid that it was moved to. -/
theorem Moves.owners (run : Moves f old moves s s') (inv : Listed s) (distinct : (moves.map (·.1)).Nodup)
    (owned : ∀ k ∈ moves.map (·.1), s.recip_key_uid_map.lookup k = some old) {k : RecipKey} {new : Uid}
    (member : (k, new) ∈ moves) : s'.recip_key_uid_map.lookup k = some new := by
  induction run with
  | nil => cases member
  | @cons s s' l target ks ks' moves choice found left gained rest ih =>
    obtain ⟨fresh,distinct'⟩ := List.nodup_cons.mp distinct
    have first := moved_relocated (n := moved_on (iterator s) (listed_candidates f (some old) choice s).length) inv
      (owned l List.mem_cons_self) (picked_eligible found) left gained
    have owned' := first.owned fresh owned
    obtain here | later := List.mem_cons.mp member
    · cases here
      rw [(rest.relocated first.listed distinct' owned').kept k fresh]
      exact AList.lookup_insert _
    · exact ih first.listed distinct' owned' later

end

/-- The loop that reassigns keys moves them and returns the uid that the payload's key got. -/
theorem reassign_all_ends {f : Choice → Choice} {post : Except PyError Uid → Store → Prop} (patience : Nat) (old : Uid)
    (key : RecipKey) (rest : List RecipKey) :
    ∀ (s : Store) (plugin_uid : Uid), Listed s → rest.Nodup →
      (∀ k ∈ rest, s.recip_key_uid_map.lookup k = some old) →
      (∀ moves s', Moves f old moves s s' → moves.map (·.1) = rest → post (.ok (landed key plugin_uid moves)) s') →
      Ends (exec_by f) post (reassign_all (patience+1) old key plugin_uid rest) s := by
  induction rest with
  | nil => exact fun s _ _ _ _ ends => ends [] s (.nil s) rfl
  | cons k rest ih =>
    intro s plugin_uid inv nodup owned ends
    obtain ⟨fresh,nodup⟩ := List.nodup_cons.mp nodup
    have owner := owned k (by simp)
    rw [reassign_all,ends_bind]
    apply reassign_ends patience inv owner
    intro choice new ks ks' found left gained
    have first := moved_relocated (n := moved_on (iterator s) (listed_candidates f (some old) choice s).length) inv owner
      (picked_eligible found) left gained
    apply ih _ _ first.listed nodup (first.owned fresh owned)
    intro moves s' later same
    exact ends ((k, new) :: moves) s' (.cons choice found left gained later) (by rw [List.map_cons,same])

/-- Whether one of the keys has a pending message for the uid. -/
def hasPending (s : Store) (u : Uid) (ks : List RecipKey) : Bool :=
  ks.any (fun k => decide (1 ≤ s.pending (uid_recip_key u k)))

theorem any_pending_ends {f : Choice → Choice} {post : Except PyError Bool → Store → Prop} (s : Store) (u : Uid)
    (ks : List RecipKey) (ends : post (.ok (hasPending s u ks)) s) : Ends (exec_by f) post (any_pending u ks) s := by
  induction ks with
  | nil => exact ends
  | cons k rest ih =>
    simp only [any_pending,ends_bind,Program.call,ends_command,ends_done,continues_ok,exec_by,exec]
    intro _
    cases found : s.uid_recip_key_pending_msg_count.lookup (uid_recip_key u k) with
    | none => exact ih (by simpa [hasPending,Store.pending,found] using ends)
    | some count =>
      by_cases positive : 1 ≤ count
      · simpa [positive,hasPending,Store.pending,found] using ends
      · simp only [positive,↓reduceIte]
        exact ih (by simpa [hasPending,Store.pending,found,positive] using ends)

/-- Whether the branch of a stale uid gives up the uid: some key of it has a pending
    message and another uid is registered. -/
def gives_up (s : Store) (u : Uid) : Bool :=
  hasPending s u (s.recip_keys u) && decide (1 < s.uid_recip_keys_map.keys.length)

/-- `s'` comes from `s` by the branch of a stale uid. -/
structure Evacuated (old : Uid) (s s' : Store) : Prop where
  listed : Listed s'
  sharded : ∀ topic, Sharded topic s → Sharded topic s'
  queues : SameQueues s s'
  uids : ∀ v, v ∈ s'.uid_recip_keys_map ↔ v ∈ s.uid_recip_keys_map ∧ ¬ (v = old ∧ gives_up s old = true)

theorem erase_empty_recip_keys {s : Store} {u : Uid} (empty : s.recip_keys u = []) (v : Uid) :
    ((s.uid_recip_keys_map.erase u).lookup v).getD [] = s.recip_keys v := by
  by_cases here : v = u
  · subst here; simp [empty]
  · rw [AList.lookup_erase_ne here]; rfl

theorem erase_empty_listed {s : Store} (inv : Listed s) {u : Uid} (empty : s.recip_keys u = []) :
    Listed { s with uid_recip_keys_map := s.uid_recip_keys_map.erase u } :=
  ⟨fun v => by rw [Store.recip_keys,erase_empty_recip_keys empty]; exact inv.distinct v,
    fun k v => by rw [Store.recip_keys,erase_empty_recip_keys empty]; exact inv.listed k v⟩

/-- When another uid is registered, moving all keys of a uid empties its list; when
    it is the only one, they come back to it. -/
theorem relocated_recip_keys {old : Uid} {s s' : Store} (inv : Listed s)
    (relocated : Relocated old (s.recip_keys old) s s') (there : old ∈ s.uid_recip_keys_map) :
    (1 < s.uid_recip_keys_map.keys.length → s'.recip_keys old = []) ∧
    (¬ 1 < s.uid_recip_keys_map.keys.length → ∀ k ∈ s.recip_keys old, k ∈ s'.recip_keys old) := by
  constructor
  · intro many
    apply List.eq_nil_iff_forall_not_mem.mpr
    intro k listed
    have owner := (relocated.listed.listed k old).mp listed
    by_cases before : k ∈ s.recip_keys old
    · obtain ⟨new,placed,eligible⟩ := relocated.placed k before
      rw [placed] at owner
      exact eligible.2 many owner.symm
    · rw [relocated.kept k before] at owner
      exact before ((inv.listed k old).mpr owner)
  · intro few k listed
    obtain ⟨new,placed,eligible⟩ := relocated.placed k listed
    have sole : new = old := by
      have one : s.uid_recip_keys_map.keys.length ≤ 1 := Nat.le_of_not_lt few
      match shape : s.uid_recip_keys_map.keys, one with
      | [], _ => exact absurd (AList.mem_keys.mp there) (by simp [shape])
      | [only], _ =>
        have a : new ∈ [only] := shape ▸ AList.mem_keys.mp eligible.1
        have b : old ∈ [only] := shape ▸ AList.mem_keys.mp there
        rw [List.mem_singleton.mp a,List.mem_singleton.mp b]
    exact (relocated.listed.listed k old).mpr (sole ▸ placed)

/-- The store after a uid without keys was taken out of the map. -/
def swept (s : Store) (old : Uid) : Store :=
  if (s.recip_keys old).isEmpty then { s with uid_recip_keys_map := s.uid_recip_keys_map.erase old } else s

/-- The branch of a stale uid moves all its keys if one of them has a pending message. -/
theorem evacuate_moves {f : Choice → Choice} {post : Except PyError Uid → Store → Prop} (patience : Nat) {old : Uid}
    {key : RecipKey} {s : Store} (inv : Listed s)
    (rests : hasPending s old (s.recip_keys old) = false → post (.ok old) s)
    (ends : hasPending s old (s.recip_keys old) = true → ∀ moves s', Moves f old moves s s' →
      moves.map (·.1) = s.recip_keys old → post (.ok (landed key old moves)) (swept s' old)) :
    Ends (exec_by f) post (evacuate (patience+1) old key) s := by
  simp only [evacuate,get_recip_keys_list_for_uid,ends_bind,Program.call,ends_command,ends_done,continues_ok,exec_by,exec,
    Program.pure_eq]
  intro _
  apply any_pending_ends
  rw [show (s.uid_recip_keys_map.lookup old).getD [] = s.recip_keys old from rfl]
  cases pending : hasPending s old (s.recip_keys old) with
  | false => exact rests pending
  | true =>
    simp only [continues_ok,↓reduceIte,ends_bind]
    apply reassign_all_ends patience old key (s.recip_keys old) s old inv (inv.distinct old)
      (fun k member => (inv.listed k old).mp member)
    intro moves s' run same
    have ended := ends pending moves s' run same
    simp only [continues_ok,ends_bind,ends_command,ends_done,exec_by,exec]
    intro _
    rw [show (s'.uid_recip_keys_map.lookup old).getD [] = s'.recip_keys old from rfl]
    unfold swept at ended
    split at ended
    · next empty =>
      simp only [empty,↓reduceIte,ends_bind,ends_command,ends_done,continues_ok]
      exact fun _ => ended
    · next some_key =>
      simp only [some_key,Bool.false_eq_true,↓reduceIte,ends_done]
      exact ended

theorem evacuate_ends {post : Except PyError Uid → Store → Prop} (patience : Nat) {old : Uid}
    {key : RecipKey} {s : Store} (inv : Listed s) (owner : s.recip_key_uid_map.lookup key = some old)
    (ends : ∀ u s', Evacuated old s s' → s'.recip_key_uid_map.lookup key = some u → post (.ok u) s') :
    Ends exec post (evacuate (patience+1) old key) s := by
  have there := inv.owner_in_map owner
  have listed := (inv.listed key old).mpr owner
  refine evacuate_moves (f := id) patience inv (fun settled => ?_) (fun pending moves s' run same => ?_)
  · exact ends old s ⟨inv, fun _ sharded => sharded, .refl s, fun v => by simp [gives_up,settled]⟩ owner
  · have distinct : (moves.map (·.1)).Nodup := same ▸ inv.distinct old
    have owned : ∀ k ∈ moves.map (·.1), s.recip_key_uid_map.lookup k = some old :=
      fun k member => (inv.listed k old).mp (same ▸ member)
    have relocated : Relocated old (s.recip_keys old) s s' := same ▸ run.relocated inv distinct owned
    have owner' : s'.recip_key_uid_map.lookup key = some (landed key old moves) :=
      run.owners inv distinct owned (landed_mem (same.symm ▸ listed))
    obtain ⟨emptied,returned⟩ := relocated_recip_keys inv relocated there
    by_cases many : 1 < s.uid_recip_keys_map.keys.length
    · have empty := emptied many
      have listed' := erase_empty_listed relocated.listed empty
      have gone : swept s' old = { s' with uid_recip_keys_map := s'.uid_recip_keys_map.erase old } := by
        rw [swept,empty]
        rfl
      rw [gone]
      refine ends _ _ ⟨listed', fun topic sharded => ?_, ⟨relocated.queues.1,relocated.queues.2⟩, fun v => ?_⟩ owner'
      · have kept := relocated.sharded topic sharded
        exact ⟨listed', kept.counted, kept.uncounted, kept.unowned, kept.records⟩
      · simp [AList.mem_erase,relocated.uids,gives_up,pending,many,and_comm]
    · have kept : s'.recip_keys old ≠ [] := List.ne_nil_of_mem (returned many key listed)
      have stays : swept s' old = s' := if_neg (by rwa [List.isEmpty_iff])
      rw [stays]
      have all_stay : Evacuated old s s' :=
        ⟨relocated.listed, relocated.sharded, relocated.queues, fun v => by simp [relocated.uids,gives_up,many]⟩
      exact ends _ s' all_stay owner'

end AcapyRedis.Sharding
