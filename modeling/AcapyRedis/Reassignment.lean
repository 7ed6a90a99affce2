import AcapyRedis.Eviction

/-!
When a call reassigns the keys of a uid and what is left then. In every reachable state the
keys of a stale uid with a pending message leave it completely when another uid is there
(`stale_uid_evacuated`), and nothing else is ever reassigned (`reassigned_when_stale`). The
design document calls a uid stale after more than 15 seconds and not without an entry, the
code from 15 seconds on and without an entry; a call does what the document says except in
these two cases (`as_designed_iff`).
-/
namespace AcapyRedis.Reassignment
open AcapyRedis.Programs AcapyRedis.Programs.Program AcapyRedis.Python AcapyRedis.RedisStore AcapyRedis.Utils
open AcapyRedis.Inbound AcapyRedis.RoundRobin AcapyRedis.Sharding AcapyRedis.Sequential AcapyRedis.Evacuation
open AcapyRedis.Eviction

section
variable {json_loads : Bytes ⊕ Text → Except PyError Json} {patience : Nat} {now : Int} {payload : Bytes}
variable {topic : String} {s s' : Store} {log : List (Event Command Command.Reply)}
variable {outcome : Except PyError (String × Entry)} {k : RecipKey} {u : Uid}

theorem owner_found (inv : Listed s) (owner : s.recip_key_uid_map.lookup k = some u) :
    Ends exec (fun outcome s₁ => outcome = .ok u ∧ s₁ = s) (find_or_assign (patience+1) k) s := by
  refine find_or_assign_picks (f := id) patience inv (List.ne_nil_of_mem (inv.owner_in_map owner)) ?_ ?_
  · intro v owned
    exact ⟨congrArg Except.ok (Option.some.inj (owned.symm.trans owner)), rfl⟩
  · intro free
    rw [owner] at free
    cases free

/-- A call for a key with an owner goes on with the store as it is. -/
theorem owned_call (inv : Listed s) (key : recip_key_of json_loads payload = .ok k)
    (owner : s.recip_key_uid_map.lookup k = some u)
    (run : Runs exec (process_payload_recip_key json_loads (patience+1) now payload topic) s log outcome s') :
    ∃ later, Runs exec (count_for (patience+1) now k u) s later (.ok ()) s' := by
  obtain ⟨old,s₁,first,later,_,first_run,_,count_run⟩ := call_parts inv key run
  obtain ⟨⟨rfl⟩,rfl⟩ := (owner_found inv owner).post_of_runs first_run
  exact ⟨later,count_run⟩

/-- In every reachable state a call that finds or assigns a stale owner with a pending message
    empties it if another uid is in the map, and else leaves the assignment as it is. -/
theorem stale_uid_evacuated {sys : System} (reached : Reached json_loads (fun _ _ _ => True) sys)
    (key : recip_key_of json_loads payload = .ok k)
    (run : Runs exec (process_payload_recip_key json_loads (patience+1) now payload topic) sys.redis log outcome s') :
    ∃ old s₁ first later, log = first ++ later ∧
      Runs exec (find_or_assign (patience+1) k) sys.redis first (.ok old) s₁ ∧
      s₁.recip_key_uid_map.lookup k = some old ∧
      (Reassigns now old s₁ →
        ((∃ v ∈ s₁.uid_recip_keys_map, v ≠ old) → Vacated k old s₁ s') ∧
        ((∀ v ∈ s₁.uid_recip_keys_map, v = old) → Kept k old s₁ s')) := by
  obtain ⟨old,s₁,first,later,split,first_run,found,count_run⟩ := call_parts (reached_orderly reached).1.listed key run
  refine ⟨old, s₁, first, later, split, first_run, found.owner, fun reassigns => ?_⟩
  obtain ⟨moves,t,moved,rfl⟩ := (count_for_runs (f := id) found.listed count_run).2 reassigns
  exact ⟨moved_vacated found.listed found.owner moved, moved_kept found.listed found.owner moved⟩

end

/-- The store after `b` also got the key `l`. -/
def two_keys : Store :=
  ((process_payload_recip_key loads_two 1 0 (packed protected_l) "t").leaves (exec_by (in_order [uid_a, uid_b])) delivered).1

theorem two_keys_reached : Reached loads_two (fun _ _ _ => True) ⟨two_keys, [uid_b,uid_a], [uid_b,uid_a]⟩ := by
  have ended : ((process_payload_recip_key loads_two 1 0 (packed protected_l) "t").leaves
      (exec_by (in_order [uid_a, uid_b])) delivered).2 =
      some (.ok (topic_list "t" "l", .inbound (packed protected_l) none)) := rfl
  obtain ⟨_,run⟩ := leaves_runs ended
  exact (delivered_reached (fun _ => trivial)).tail (.call (by simp) (fun _ _ => trivial) (runs_exec run))

/-- A message for `k` 100 seconds later moves both keys. -/
theorem stale_uid_evacuated_second : ∃ first later,
    Runs exec (find_or_assign 1 "k") two_keys first (.ok uid_b) two_keys ∧ two_keys.recip_keys uid_b = ["l", "k"] ∧
    Runs exec (process_payload_recip_key loads_two 1 100 (packed protected_k) "t") two_keys
      (first ++ later) (.ok (topic_list "t" "k", .inbound (packed protected_k) none)) (called two_keys 100) ∧
    Vacated "k" uid_b two_keys (called two_keys 100) := by
  have ended : ((process_payload_recip_key loads_two 1 100 (packed protected_k) "t").leaves exec two_keys).2 =
      some (.ok (topic_list "t" "k", .inbound (packed protected_k) none)) := rfl
  obtain ⟨log,run⟩ := leaves_runs ended
  obtain ⟨old,s₁,first,later,rfl,found,_,evacuates⟩ := stale_uid_evacuated two_keys_reached recip_key_of_k run
  have owner : two_keys.recip_key_uid_map.lookup "k" = some uid_b := by decide
  obtain ⟨⟨rfl⟩,rfl⟩ := (owner_found (reached_orderly two_keys_reached).1.listed owner).post_of_runs found
  have reassigns : Reassigns 100 uid_b two_keys := ⟨by decide, by decide⟩
  exact ⟨first, later, found, by decide, run, (evacuates reassigns).1 ⟨uid_a, by decide, by decide⟩⟩

/-! ### The design document -/

/-- The last access is more than 15 seconds ago. -/
def Overdue (now : Int) (u : Uid) (s : Store) : Prop :=
  ∃ time, s.uid_last_access_map.lookup u = some time ∧ 15 < now - time

/-- There is no entry of a last access, or one of 15 seconds ago or more. -/
def Stale (now : Int) (u : Uid) (s : Store) : Prop :=
  ∀ time, s.uid_last_access_map.lookup u = some time → 15 ≤ now - time

/-- Some key of the uid has a pending message. -/
def Waiting (u : Uid) (s : Store) : Prop := ∃ k ∈ s.recip_keys u, 1 ≤ s.pending (uid_recip_key u k)

/-- The key lists, up to their order, and the owners are the same. -/
structure SameMaps (s s' : Store) : Prop where
  uids : ∀ v, v ∈ s'.uid_recip_keys_map ↔ v ∈ s.uid_recip_keys_map
  lists : ∀ v, (s'.recip_keys v).Perm (s.recip_keys v)
  owners : ∀ k, s'.recip_key_uid_map.lookup k = s.recip_key_uid_map.lookup k

/-- Nothing but the iterator and the counter of the key has changed, and the counter by one. -/
structure Counted (k : RecipKey) (u : Uid) (s s' : Store) : Prop where
  maps : SameMaps s s'
  accesses : s'.uid_last_access_map = s.uid_last_access_map
  counted : s'.uid_recip_key_pending_msg_count.lookup (uid_recip_key u k) = some (s.pending (uid_recip_key u k) + 1)
  counters : ∀ field, field ≠ uid_recip_key u k →
    s'.uid_recip_key_pending_msg_count.lookup field = s.uid_recip_key_pending_msg_count.lookup field

/-- Nor has the iterator. -/
structure OnlyCounted (k : RecipKey) (u : Uid) (s s' : Store) : Prop extends Counted k u s s' where
  round_robin : s'.round_robin_iterator = s.round_robin_iterator

/-- What the document says of a call for a key of the uid. -/
def AsDesigned (now : Int) (k : RecipKey) (u : Uid) (s s' : Store) : Prop :=
  (¬ SameMaps s s' → Overdue now u s ∧ Waiting u s) ∧ (¬ (Overdue now u s ∧ Waiting u s) → OnlyCounted k u s s')

/-- No key has a pending message, or the uid has an entry and not one of 15 seconds ago, or it
    is the only one and the iterator is at the beginning. -/
def Agreed (now : Int) (u : Uid) (s : Store) : Prop :=
  Waiting u s → (∃ time, s.uid_last_access_map.lookup u = some time ∧ now - time ≠ 15) ∨
    ((∀ v ∈ s.uid_recip_keys_map, v = u) ∧ s.round_robin_iterator = some 0)

theorem hasPending_iff {u : Uid} {s : Store} : hasPending s u (s.recip_keys u) = true ↔ Waiting u s := by
  simp only [hasPending,List.any_eq_true,decide_eq_true_eq,Waiting]

theorem stale_iff {now : Int} {u : Uid} {s : Store} :
    stale_uid_check now (s.uid_last_access_map.lookup u) = true ↔ Stale now u s := by
  cases entry : s.uid_last_access_map.lookup u with
  | none => simp [stale_uid_check,Stale,entry]
  | some time => simp [stale_uid_check,Stale,entry]

theorem reassigns_iff {now : Int} {u : Uid} {s : Store} : Reassigns now u s ↔ Stale now u s ∧ Waiting u s :=
  and_congr stale_iff hasPending_iff

section
variable {f : Choice → Choice} {now : Int} {k : RecipKey} {u : Uid} {moves : List (RecipKey × Uid)} {s s' : Store}

theorem counted_up_only (s : Store) (u : Uid) (k : RecipKey) : OnlyCounted k u s (counted_up s u k) :=
  ⟨⟨⟨fun _ => .rfl, fun _ => .rfl, fun _ => rfl⟩, rfl, counted_up_lookup s u k, fun _ other => counted_up_ne s other⟩, rfl⟩

/-! ### The iterator of a sole uid -/

theorem sole_candidates (there : u ∈ s.uid_recip_keys_map) (alone : ∀ v ∈ s.uid_recip_keys_map, v = u) (choice : Choice) :
    (listed_candidates f (some u) choice s).length = 1 := by
  have few : ¬ 1 < s.uid_recip_keys_map.keys.length := by
    rw [← another_iff there]
    rintro ⟨v,registered,other⟩
    exact other (alone v registered)
  have some_uid := List.length_pos_of_mem (AList.mem_keys.mp there)
  have size := (arranged_perm (f choice).uids s.uid_recip_keys_map.keys).length_eq
  rw [listed_candidates,candidates,if_neg (by rwa [size]),size]
  omega

/-- Moves of a sole uid leave the iterator at the beginning or before it, and further than it was. -/
theorem sole_iterator (run : Moves f u moves s s') (inv : Listed s) (distinct : (moves.map (·.1)).Nodup)
    (owned : ∀ k ∈ moves.map (·.1), s.recip_key_uid_map.lookup k = some u) (alone : ∀ v ∈ s.uid_recip_keys_map, v = u)
    (some_move : moves ≠ []) :
    ∃ j, s'.round_robin_iterator = some j ∧ j ≤ 0 ∧ (j = 0 ∨ iterator s < j) := by
  induction run with
  | nil => exact absurd rfl some_move
  | @cons s s' l target ks ks' moves choice found left gained rest ih =>
    obtain ⟨fresh,distinct⟩ := List.nodup_cons.mp distinct
    have owner := owned l List.mem_cons_self
    have size := sole_candidates (f := f) (inv.owner_in_map owner) alone choice
    have first := moved_relocated (n := moved_on (iterator s) (listed_candidates f (some u) choice s).length) inv owner
      (picked_eligible found) left gained
    have next : moved_on (iterator s) (listed_candidates f (some u) choice s).length ≤ 0 ∧
        (moved_on (iterator s) (listed_candidates f (some u) choice s).length = 0 ∨
          iterator s < moved_on (iterator s) (listed_candidates f (some u) choice s).length) := by
      rw [size,moved_on]
      split <;> omega
    cases moves with
    | nil =>
      cases rest
      exact ⟨_, rfl, next⟩
    | cons move moves =>
      obtain ⟨j,last,past,further⟩ := ih first.listed distinct (first.owned fresh owned)
        (fun v registered => alone v ((first.uids v).mp registered)) (List.cons_ne_nil _ _)
      refine ⟨j, last, past, ?_⟩
      have start : iterator (moved s (moved_on (iterator s) (listed_candidates f (some u) choice s).length) l u target ks ks') =
        moved_on (iterator s) (listed_candidates f (some u) choice s).length := rfl
      omega

/-- A call that moves the keys of a sole uid leaves them with it, and changes nothing else but the
    iterator. That goes to the beginning, or nearer to it from before it. -/
theorem sole_counted (inv : Listed s) (owner : s.recip_key_uid_map.lookup k = some u) (moved : Moved f u moves s s')
    (alone : ∀ v ∈ s.uid_recip_keys_map, v = u) :
    Counted k u s (counted_up (swept s' u) (landed k u moves) k) ∧
    ∃ j, (counted_up (swept s' u) (landed k u moves) k).round_robin_iterator = some j ∧ j ≤ 0 ∧
      (j = 0 ∨ iterator s < j) := by
  obtain ⟨uids,lists,owners,counted,counters⟩ := moved_kept inv owner moved alone
  have some_move : moves ≠ [] := List.ne_nil_of_mem (moved.landed_owner inv owner)
  obtain ⟨j,last,past,further⟩ := sole_iterator moved.run inv (moved.all ▸ inv.distinct u)
    (fun l member => (inv.listed l u).mp (moved.all ▸ member)) alone some_move
  have after : (counted_up (swept s' u) (landed k u moves) k).round_robin_iterator = some j :=
    (congrArg (·.round_robin_iterator) (swept_frame s' u)).trans last
  have accesses : (counted_up (swept s' u) (landed k u moves) k).uid_last_access_map = s.uid_last_access_map :=
    (congrArg (·.uid_last_access_map) (swept_frame s' u)).trans (moved.relocated inv).queues.accesses
  exact ⟨⟨⟨uids,lists,owners⟩, accesses, counted, counters⟩, j, after, past, further⟩

/-- It leaves the iterator as it is exactly if it is at the beginning. -/
theorem sole_counted_iff (inv : Listed s) (owner : s.recip_key_uid_map.lookup k = some u) (moved : Moved f u moves s s')
    (alone : ∀ v ∈ s.uid_recip_keys_map, v = u) :
    OnlyCounted k u s (counted_up (swept s' u) (landed k u moves) k) ↔ s.round_robin_iterator = some 0 := by
  obtain ⟨counted,j,after,past,further⟩ := sole_counted inv owner moved alone
  constructor
  · intro only
    have same := only.round_robin.symm.trans after
    rw [iterator,same,Option.getD_some] at further
    have zero : j = 0 := by omega
    rw [same,zero]
  · intro start
    rw [iterator,start,Option.getD_some] at further
    have zero : j = 0 := by omega
    exact ⟨counted, by rw [after,zero,start]⟩

/-! ### Which calls reassign -/

/-- A call for a key with an owner reassigns keys only if the owner is stale, has a pending message
    and is not the only uid, and then gives it up. If it is the only one, its keys come back to it,
    and only the iterator may be another; else the call only counts. -/
theorem reassigned_when_stale {json_loads : Bytes ⊕ Text → Except PyError Json} {patience : Nat} {payload : Bytes}
    {topic : String} {log : List (Event Command Command.Reply)} {outcome : Except PyError (String × Entry)}
    (inv : Listed s) (key : recip_key_of json_loads payload = .ok k) (owner : s.recip_key_uid_map.lookup k = some u)
    (run : Runs exec (process_payload_recip_key json_loads (patience+1) now payload topic) s log outcome s') :
    (¬ SameMaps s s' → Stale now u s ∧ Waiting u s ∧ ∃ v ∈ s.uid_recip_keys_map, v ≠ u) ∧
    (¬ (Stale now u s ∧ Waiting u s) → OnlyCounted k u s s') ∧
    (Stale now u s → Waiting u s → (∃ v ∈ s.uid_recip_keys_map, v ≠ u) → u ∉ s'.uid_recip_keys_map) ∧
    (Stale now u s → Waiting u s → (∀ v ∈ s.uid_recip_keys_map, v = u) →
      Counted k u s s' ∧ (∃ j, s'.round_robin_iterator = some j ∧ j ≤ 0 ∧ (j = 0 ∨ iterator s < j)) ∧
      (OnlyCounted k u s s' ↔ s.round_robin_iterator = some 0)) := by
  obtain ⟨later,count_run⟩ := owned_call inv key owner run
  obtain ⟨rests,reassigned⟩ := count_for_runs (f := id) inv count_run
  have only : ¬ (Stale now u s ∧ Waiting u s) → OnlyCounted k u s s' := by
    intro settled
    rw [rests (fun reassigns => settled (reassigns_iff.mp reassigns))]
    exact counted_up_only s u k
  have gives_up : Stale now u s → Waiting u s → (∃ v ∈ s.uid_recip_keys_map, v ≠ u) → u ∉ s'.uid_recip_keys_map := by
    intro stale waiting another
    obtain ⟨moves,t,moved,rfl⟩ := reassigned (reassigns_iff.mpr ⟨stale,waiting⟩)
    exact (moved_vacated inv owner moved another).gone
  have returns : Stale now u s → Waiting u s → (∀ v ∈ s.uid_recip_keys_map, v = u) →
      Counted k u s s' ∧ (∃ j, s'.round_robin_iterator = some j ∧ j ≤ 0 ∧ (j = 0 ∨ iterator s < j)) ∧
      (OnlyCounted k u s s' ↔ s.round_robin_iterator = some 0) := by
    intro stale waiting alone
    obtain ⟨moves,t,moved,rfl⟩ := reassigned (reassigns_iff.mpr ⟨stale,waiting⟩)
    obtain ⟨counted,next⟩ := sole_counted inv owner moved alone
    exact ⟨counted, next, sole_counted_iff inv owner moved alone⟩
  refine ⟨fun changed => ?_, only, gives_up, returns⟩
  by_contra unmoved
  by_cases both : Stale now u s ∧ Waiting u s
  · have alone : ∀ v ∈ s.uid_recip_keys_map, v = u := by
      by_contra another
      push Not at another
      exact unmoved ⟨both.1, both.2, another⟩
    exact changed (returns both.1 both.2 alone).1.maps
  · exact changed (only both).maps

theorem second_reached : Reached loads_two (fun _ _ _ => True)
    ⟨called two_registered 0, [uid_b,uid_a], [uid_b,uid_a]⟩ :=
  two_registered_reached.tail (called_turn (fun _ => trivial) (by simp) rfl)

theorem second_call_runs : ∃ log, Runs exec (process_payload_recip_key loads_two 1 0 (packed protected_k) "t")
    (called two_registered 0) log (.ok (topic_list "t" "k", .inbound (packed protected_k) none))
    (called (called two_registered 0) 0) := by
  have ended : ((process_payload_recip_key loads_two 1 0 (packed protected_k) "t").leaves exec (called two_registered 0)).2 =
      some (.ok (topic_list "t" "k", .inbound (packed protected_k) none)) := rfl
  exact leaves_runs ended

/-- The second message for a key gives up the instance that has no entry yet. -/
theorem reassigned_without_entry : uid_b ∉ (called (called two_registered 0) 0).uid_recip_keys_map := by
  obtain ⟨_,run⟩ := second_call_runs
  have inv := (reached_orderly second_reached).1.listed
  have waiting : Waiting uid_b (called two_registered 0) := hasPending_iff.mp (by decide)
  exact (reassigned_when_stale inv recip_key_of_k (by decide) run).2.2.1 (stale_iff.mp (by decide)) waiting
    ⟨uid_a, by decide, by decide⟩

/-- A call for a key with an owner does what the document says exactly in the agreed cases. -/
theorem as_designed_iff {json_loads : Bytes ⊕ Text → Except PyError Json} {patience : Nat} {payload : Bytes}
    {topic : String} {log : List (Event Command Command.Reply)} {outcome : Except PyError (String × Entry)}
    (inv : Listed s) (key : recip_key_of json_loads payload = .ok k) (owner : s.recip_key_uid_map.lookup k = some u)
    (run : Runs exec (process_payload_recip_key json_loads (patience+1) now payload topic) s log outcome s') :
    AsDesigned now k u s s' ↔ Agreed now u s := by
  obtain ⟨later,count_run⟩ := owned_call inv key owner run
  obtain ⟨rests,reassigned⟩ := count_for_runs (f := id) inv count_run
  by_cases reassigns : Reassigns now u s
  · obtain ⟨moves,t,moved,rfl⟩ := reassigned reassigns
    have waiting := hasPending_iff.mp reassigns.2
    by_cases overdue : Overdue now u s
    · have both : Overdue now u s ∧ Waiting u s := ⟨overdue,waiting⟩
      obtain ⟨time,entry,long⟩ := overdue
      exact iff_of_true ⟨fun _ => both, fun neither => absurd both neither⟩ (fun _ => .inl ⟨time, entry, by omega⟩)
    · -- the entry is missing or of 15 seconds ago
      have edge : ¬ ∃ time, s.uid_last_access_map.lookup u = some time ∧ now - time ≠ 15 := by
        rintro ⟨time,entry,apart⟩
        have stale := reassigns.1
        rw [entry] at stale
        have old := of_decide_eq_true stale
        exact overdue ⟨time, entry, by omega⟩
      have neither : ¬ (Overdue now u s ∧ Waiting u s) := fun both => overdue both.1
      constructor
      · rintro ⟨_,only⟩ _
        have counted := only neither
        have alone : ∀ v ∈ s.uid_recip_keys_map, v = u := by
          by_contra another
          push Not at another
          have vacated := moved_vacated inv owner moved another
          exact vacated.gone ((counted.maps.uids u).mpr (inv.owner_in_map owner))
        exact .inr ⟨alone, (sole_counted_iff inv owner moved alone).mp counted⟩
      · intro agreed
        obtain entry | ⟨alone,start⟩ := agreed waiting
        · exact absurd entry edge
        · have counted := (sole_counted_iff inv owner moved alone).mpr start
          exact ⟨fun changed => absurd counted.maps changed, fun _ => counted⟩
  · rw [rests reassigns]
    have counted := counted_up_only s u k
    refine iff_of_true ⟨fun changed => absurd counted.maps changed, fun _ => counted⟩ (fun waiting => .inl ?_)
    have fresh : stale_uid_check now (s.uid_last_access_map.lookup u) = false :=
      Bool.eq_false_iff.mpr (fun stale => reassigns ⟨stale, hasPending_iff.mpr waiting⟩)
    cases entry : s.uid_last_access_map.lookup u with
    | none =>
      rw [entry] at fresh
      cases fresh
    | some time =>
      rw [entry] at fresh
      have recent := of_decide_eq_false fresh
      exact ⟨time, rfl, by omega⟩

end

/-- The second message takes its key from an instance that has no entry yet. -/
theorem no_entry_reassigned : Listed (called two_registered 0) ∧
    (called two_registered 0).recip_key_uid_map.lookup "k" = some uid_b ∧
    (∃ log outcome, Runs exec (process_payload_recip_key loads_two 1 0 (packed protected_k) "t") (called two_registered 0) log
      outcome (called (called two_registered 0) 0)) ∧
    ¬ AsDesigned 0 "k" uid_b (called two_registered 0) (called (called two_registered 0) 0) := by
  obtain ⟨log,run⟩ := second_call_runs
  refine ⟨(reached_orderly second_reached).1.listed, by decide, ⟨log,_,run⟩, ?_⟩
  rintro ⟨changes,_⟩
  have changed : ¬ SameMaps (called two_registered 0) (called (called two_registered 0) 0) := by
    intro same
    have owner := same.owners "k"
    exact absurd owner (by decide)
  obtain ⟨⟨time,entry,_⟩,_⟩ := changes changed
  have none : (called two_registered 0).uid_last_access_map.lookup uid_b = Option.none := by decide
  rw [none] at entry
  cases entry

end AcapyRedis.Reassignment
