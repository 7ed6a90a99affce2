import AcapyRedis.Reassignment

/-!
How the keys of a stale uid spread over the other uids while `HKEYS` lists the uids in one
order. The first key goes to the uid at the iterator, which earlier calls have moved on over
all uids and which may be past the end of the others; the first of them gets the key then,
and the rest of the keys begin with it again (`moves_past_end`). So the keys are spread
evenly unless this happens and the rest does not go around whole (`keys_spread_iff`).
-/
namespace AcapyRedis.Spreading
open AcapyRedis.Programs AcapyRedis.Programs.Program AcapyRedis.Python AcapyRedis.RedisStore AcapyRedis.Utils
open AcapyRedis.Inbound AcapyRedis.Rotations AcapyRedis.RoundRobin AcapyRedis.Sharding AcapyRedis.Sequential
open AcapyRedis.Evacuation AcapyRedis.Eviction AcapyRedis.Reassignment

/-! ### The targets of the moves -/

section
variable {order : List Uid} {old : Uid} {moves : List (RecipKey × Uid)} {s s' : Store}

theorem insert_keys_perm {h : Hash Uid (List RecipKey)} {u : Uid} (there : u ∈ h) (ks : List RecipKey) :
    (h.insert u ks).keys.Perm h.keys := by
  rw [AList.keys_insert]
  exact (List.perm_cons_erase (AList.mem_keys.mp there)).symm

theorem moved_keys_perm {k : RecipKey} {new : Uid} (there : old ∈ s.uid_recip_keys_map)
    (there' : new ∈ s.uid_recip_keys_map) (n : Int) (ks ks' : List RecipKey) :
    (moved s n k old new ks ks').uid_recip_keys_map.keys.Perm s.uid_recip_keys_map.keys :=
  (insert_keys_perm ((AList.mem_insert _).mpr (.inr there')) ks').trans (insert_keys_perm there ks)

theorem others_listed (perm : order.Perm s.uid_recip_keys_map.keys) (many : 1 < order.length) (choice : Choice) :
    listed_candidates (in_order order) (some old) choice s = order.erase old := by
  have listed : arranged (in_order order choice).uids s.uid_recip_keys_map.keys = order := arranged_order perm
  rw [listed_candidates,listed]
  exact if_pos many

/-- While the iterator points at one of the other uids the keys go around. -/
theorem moves_in_turn (run : Moves (in_order order) old moves s s') (perm : order.Perm s.uid_recip_keys_map.keys)
    (there : old ∈ s.uid_recip_keys_map) (many : 1 < order.length) {i : Nat} (start : iterator s = i)
    (inside : i < (order.erase old).length) : moves.map (·.2) = taken (order.erase old) i moves.length := by
  induction run generalizing i with
  | nil => rfl
  | @cons s s' k new ks ks' moves choice found left gained rest ih =>
    have member := picked_eligible found
    rw [others_listed perm many,start] at found rest ih
    rw [picked_inside inside] at found
    have later : iterator (moved s (moved_on i (order.erase old).length) k old new ks ks') =
        ((i + 1) % (order.erase old).length : Nat) := moved_on_inside inside
    have perm' := perm.trans (moved_keys_perm (k := k) there member.1 (moved_on i (order.erase old).length) ks ks').symm
    have there' : old ∈ (moved s (moved_on i (order.erase old).length) k old new ks ks').uid_recip_keys_map :=
      AList.mem_keys.mpr (perm'.mem_iff.mp (perm.mem_iff.mpr (AList.mem_keys.mp there)))
    have tail := ih perm' there' later (Nat.mod_lt _ (Nat.zero_lt_of_lt inside))
    rw [List.map_cons,tail,List.length_cons,taken,Nat.mod_eq_of_lt inside,found,taken_mod]
    rfl

/-- From past the end the first of them gets the first key and then its turn. -/
theorem moves_past_end (run : Moves (in_order order) old moves s s') (perm : order.Perm s.uid_recip_keys_map.keys)
    (there : old ∈ s.uid_recip_keys_map) (many : 1 < order.length) (some_move : moves ≠ []) {first : Uid} {rest : List Uid}
    (others : order.erase old = first :: rest) (past : (first :: rest).length ≤ iterator s) :
    moves.map (·.2) = first :: taken (first :: rest) 0 (moves.length - 1) := by
  cases run with
  | nil => exact absurd rfl some_move
  | @cons _ _ k new ks ks' moves choice found left gained run =>
    have member := picked_eligible found
    rw [others_listed perm many,others] at found run
    rw [picked_outside past] at found
    obtain rfl := Option.some.inj found
    have back : moved_on (iterator s) (first :: rest).length = 0 := if_neg (by omega)
    rw [back] at run
    have perm' := perm.trans (moved_keys_perm (k := k) there member.1 0 ks ks').symm
    have there' : old ∈ (moved s 0 k old first ks ks').uid_recip_keys_map :=
      AList.mem_keys.mpr (perm'.mem_iff.mp (perm.mem_iff.mpr (AList.mem_keys.mp there)))
    have start : iterator (moved s 0 k old first ks ks') = (0 : Nat) := rfl
    have tail := moves_in_turn run perm' there' many start (by rw [others]; exact Nat.succ_pos _)
    rw [List.map_cons,tail,others]
    rfl

/-- The targets are even if the iterator points at one of the other uids, or if the keys
    after the first one go around whole. -/
theorem targets_even_iff (run : Moves (in_order order) old moves s s') (perm : order.Perm s.uid_recip_keys_map.keys)
    (there : old ∈ s.uid_recip_keys_map) (many : 1 < order.length) (nonneg : 0 ≤ iterator s) (some_move : moves ≠ []) :
    EvenPicks (order.erase old) (moves.map (·.2)) ↔
      iterator s + 1 < order.length ∨ order.length - 1 ∣ moves.length - 1 := by
  have distinct : order.Nodup := perm.nodup_iff.mpr s.uid_recip_keys_map.keys_nodup
  have size : (order.erase old).length = order.length - 1 :=
    List.length_erase_of_mem (perm.mem_iff.mpr (AList.mem_keys.mp there))
  by_cases inside : iterator s + 1 < order.length
  · have start : iterator s = (iterator s).toNat := (Int.toNat_of_nonneg nonneg).symm
    rw [moves_in_turn run perm there many start (by omega)]
    exact iff_of_true (taken_even (distinct.erase old) _ _) (.inl inside)
  · cases others : order.erase old with
    | nil =>
      rw [others,List.length_nil] at size
      omega
    | cons first rest =>
      rw [others] at size
      rw [moves_past_end run perm there many some_move others (by omega),
        again_even_iff (others ▸ distinct.erase old) _,size]
      exact (or_iff_right inside).symm

/-- Among the moved keys a uid owns as many as there were moves to it. -/
theorem count_owned (inv : Listed s) (moved : Moved (in_order order) old moves s s') (v : Uid) :
    (s.recip_keys old).countP (fun k => s'.recip_key_uid_map.lookup k = some v) = (moves.map (·.2)).count v := by
  rw [← moved.all,List.countP_map,List.count,List.countP_map]
  refine List.countP_congr (fun move member => ?_)
  simp only [Function.comp_apply,decide_eq_true_eq,beq_iff_eq,moved.owner inv member,Option.some.injEq]

end

/-! ### Calls -/

/-- The uid that owns the key, or the one that the key is assigned to. -/
def chosen (order : List Uid) (k : RecipKey) (s : Store) : Option Uid :=
  (s.recip_key_uid_map.lookup k).or (picked (iterator s) order)

/-- The keys of the uid once the key of the call has an owner. -/
def keys_to_move (k : RecipKey) (old : Uid) (s : Store) : List RecipKey :=
  if s.recip_key_uid_map.lookup k = none then k :: s.recip_keys old else s.recip_keys old

/-- The iterator once the key of the call has an owner. -/
def turn (k : RecipKey) (s : Store) : Int :=
  if s.recip_key_uid_map.lookup k = none then moved_on (iterator s) s.uid_recip_keys_map.keys.length else iterator s

/-- How many of the keys a uid owns after a call. -/
def received (keys : List RecipKey) (s' : Store) (v : Uid) : Nat :=
  keys.countP (fun k => s'.recip_key_uid_map.lookup k = some v)

/-- The keys that any two other uids have received differ by at most one in number. -/
def SpreadEvenly (k : RecipKey) (old : Uid) (s s' : Store) : Prop :=
  ∀ v ∈ s.uid_recip_keys_map, v ≠ old → ∀ w ∈ s.uid_recip_keys_map, w ≠ old →
    received (keys_to_move k old s) s' v ≤ received (keys_to_move k old s) s' w + 1

section
variable {json_loads : Bytes ⊕ Text → Except PyError Json} {patience : Nat} {now : Int} {payload : Bytes}
variable {topic : String} {order : List Uid} {k : RecipKey} {old : Uid} {s s' : Store}
variable {log : List (Event Command Command.Reply)} {outcome : Except PyError (String × Entry)}

theorem owner_chosen (inv : Listed s) (perm : order.Perm s.uid_recip_keys_map.keys) (some_uid : order ≠ []) :
    Ends (exec_by (in_order order)) (fun outcome s₁ => ∀ u, outcome = .ok u → chosen order k s = some u ∧
        (s₁.recip_keys u).Perm (keys_to_move k u s) ∧ iterator s₁ = turn k s) (find_or_assign (patience+1) k) s := by
  have some_key : s.uid_recip_keys_map.keys ≠ [] := by
    intro none
    rw [none] at perm
    exact some_uid perm.eq_nil
  refine find_or_assign_picks patience inv some_key ?_ ?_
  · rintro u owner _ ⟨rfl⟩
    rw [chosen,keys_to_move,turn,owner]
    exact ⟨rfl, .refl _, rfl⟩
  · rintro free choice u ks found perm' _ ⟨rfl⟩
    have listed : listed_candidates (in_order order) none choice s = order := arranged_order perm
    rw [listed] at found ⊢
    rw [chosen,keys_to_move,turn,free,if_pos rfl,if_pos rfl,← perm.length_eq,assigned_recip_keys,if_pos rfl]
    exact ⟨found, perm', rfl⟩

/-- Finding the owner does not decide whether its keys are moved. -/
theorem found_reassigns {s₁ : Store} (found : Found k old s s₁) (many : 1 < s.uid_recip_keys_map.keys.length)
    (reassigns : Reassigns now old s) : Reassigns now old s₁ := by
  obtain ⟨stale,pending⟩ := reassigns
  have gives : gives_up s₁ old = true := by
    rw [found.givesUp,gives_up,pending]
    exact decide_eq_true many
  rw [gives_up,Bool.and_eq_true] at gives
  exact ⟨found.queues.accesses ▸ stale, gives.1⟩

/-- In every reachable state a call that moves the keys of a stale uid spreads them evenly over
    the others exactly if the iterator points at one of them or the keys after the first go
    around whole. -/
theorem keys_spread_iff {sys : System} (reached : Reached json_loads (fun _ _ _ => True) sys)
    (key : recip_key_of json_loads payload = .ok k) (perm : order.Perm sys.redis.uid_recip_keys_map.keys)
    (many : 2 ≤ order.length) (owner : chosen order k sys.redis = some old) (reassigns : Reassigns now old sys.redis)
    (run : Runs exec (process_payload_recip_key json_loads (patience+1) now payload topic) sys.redis log outcome s')
    (fixed : Fixed order log) :
    SpreadEvenly k old sys.redis s' ↔
      turn k sys.redis + 1 < order.length ∨ order.length - 1 ∣ (keys_to_move k old sys.redis).length - 1 := by
  obtain ⟨inv,nonneg⟩ := reached_orderly reached
  obtain ⟨u,s₁,first,later,split,first_run,found,count_run⟩ := call_parts inv.listed key run
  rw [split] at fixed
  have first_fixed : Fixed order first := fun reply member => fixed reply (List.mem_append_left _ member)
  have later_fixed : Fixed order later := fun reply member => fixed reply (List.mem_append_right _ member)
  have some_uid : order ≠ [] := List.length_pos_iff.mp (by omega)
  have chooses := (owner_chosen inv.listed perm some_uid).post_of_runs (runs_in_order first_run first_fixed)
  obtain ⟨same,keys,start⟩ := chooses u rfl
  obtain rfl := Option.some.inj (same.symm.trans owner)
  obtain ⟨moves,t,moved,rfl⟩ := (count_for_runs found.listed (runs_in_order count_run later_fixed)).2
    (found_reassigns found (perm.length_eq ▸ many) reassigns)
  have perm₁ : order.Perm s₁.uid_recip_keys_map.keys := perm.trans (List.perm_ext_iff_of_nodup
    sys.redis.uid_recip_keys_map.keys_nodup s₁.uid_recip_keys_map.keys_nodup |>.mpr (fun v => (found.uids v).symm))
  have some_move : moves ≠ [] := List.ne_nil_of_mem (moved.landed_owner found.listed found.owner)
  have nonneg₁ : 0 ≤ iterator s₁ := by
    rw [start,turn]
    split
    · exact moved_on_nonneg nonneg _
    · exact nonneg
  have size : moves.length = (keys_to_move k u sys.redis).length := by
    rw [← keys.length_eq,← moved.all,List.length_map]
  have counts : ∀ v, received (keys_to_move k u sys.redis) (counted_up (swept t u) (landed k u moves) k) v =
      (moves.map (·.2)).count v := by
    intro v
    have owners : (counted_up (swept t u) (landed k u moves) k).recip_key_uid_map = t.recip_key_uid_map :=
      congrArg (·.recip_key_uid_map) (swept_frame t u)
    rw [received,← keys.countP_eq,owners]
    exact count_owned found.listed moved v
  have others : ∀ v, v ∈ order.erase u ↔ v ∈ sys.redis.uid_recip_keys_map ∧ v ≠ u := by
    intro v
    rw [(perm.nodup_iff.mpr sys.redis.uid_recip_keys_map.keys_nodup).mem_erase_iff,perm.mem_iff,and_comm]
    rfl
  rw [← start,← size,← targets_even_iff moved.run perm₁ (found.listed.owner_in_map found.owner) many nonneg₁ some_move]
  simp only [SpreadEvenly,EvenPicks,counts,others]
  constructor
  · exact fun even a inside b other => even a inside.1 inside.2 b other.1 other.2
  · exact fun even v registered other w registered' other' => even v ⟨registered,other⟩ w ⟨registered',other'⟩

end

/-! ### Two keys of one uid

Three instances register and the key `k` gets the first one. A second message for `k` moves it
in turn. The key `l` gets the same uid when it stands second in another order; the iterator is
past the end of the others then, and both keys go to one of them. -/

def uid_c : Uid := ⟨"cccccccc-cccc-4ccc-8ccc-cccccccccccc", by decide⟩
def three_registered : Store := registered two_registered uid_c

/-- A call while `HKEYS` lists the uids in an order. -/
def call_in (order : List Uid) (message : String) (s : Store) : Store × Option (Except PyError (String × Entry)) :=
  (process_payload_recip_key loads_two 1 0 (packed message) "t").leaves (exec_by (in_order order)) s

/-- The store after `uid_a` got the key `k`. -/
def one_assigned : Store := (call_in [uid_a, uid_b, uid_c] protected_k three_registered).1

def lists_in (order : List Uid) : Event Command Command.Reply → Bool
  | ⟨.hkeys_recip_keys, reply⟩ => reply == order
  | _ => true

theorem lists_in_fixed {order : List Uid} {log : List (Event Command Command.Reply)}
    (all : log.all (lists_in order) = true) : Fixed order log := by
  intro reply member
  exact beq_iff_eq.mp (List.all_eq_true.mp all _ member)

theorem one_assigned_reached : Reached loads_two (fun _ _ _ => True)
    ⟨one_assigned, [uid_c,uid_b,uid_a], [uid_c,uid_b,uid_a]⟩ := by
  have third : Turn loads_two (fun _ _ _ => True) ⟨two_registered, [uid_b,uid_a], [uid_b,uid_a]⟩
      ⟨three_registered, [uid_c,uid_b,uid_a], [uid_c,uid_b,uid_a]⟩ := .register (by decide) (register_runs _ _)
  have ended : (call_in [uid_a, uid_b, uid_c] protected_k three_registered).2 =
      some (.ok (topic_list "t" "k", .inbound (packed protected_k) none)) := rfl
  have run := runs_exec (leaves_log ended)
  exact (two_registered_reached.tail third).tail (.call (by simp) (fun _ _ => trivial) run)

/-- A second message for `k` finds the iterator at the second of the other uids. -/
theorem keys_spread_again : ∃ log s', Runs exec (process_payload_recip_key loads_two 1 0 (packed protected_k) "t")
      one_assigned log (.ok (topic_list "t" "k", .inbound (packed protected_k) none)) s' ∧
    SpreadEvenly "k" uid_a one_assigned s' := by
  have ended : (call_in [uid_a, uid_b, uid_c] protected_k one_assigned).2 =
      some (.ok (topic_list "t" "k", .inbound (packed protected_k) none)) := rfl
  have run := runs_exec (leaves_log ended)
  have perm : [uid_a, uid_b, uid_c].Perm one_assigned.uid_recip_keys_map.keys := by decide
  have owner : chosen [uid_a, uid_b, uid_c] "k" one_assigned = some uid_a := by decide
  have spread := keys_spread_iff one_assigned_reached recip_key_of_k perm (by decide) owner ⟨by decide, by decide⟩ run
    (lists_in_fixed rfl)
  exact ⟨_, _, run, spread.mpr (.inl (by decide))⟩

theorem recip_key_of_l : recip_key_of loads_two (packed protected_l) = .ok "l" := by rfl

/-- A message for `l` moves both keys of `uid_a` to `uid_b` and none to `uid_c`. -/
theorem both_keys_to_one : Reached loads_two (fun _ _ _ => True) ⟨one_assigned, [uid_c,uid_b,uid_a], [uid_c,uid_b,uid_a]⟩ ∧
    recip_key_of loads_two (packed protected_l) = .ok "l" ∧
    [uid_b, uid_a, uid_c].Perm one_assigned.uid_recip_keys_map.keys ∧
    chosen [uid_b, uid_a, uid_c] "l" one_assigned = some uid_a ∧ Reassigns 0 uid_a one_assigned ∧
    ∃ log s', Runs exec (process_payload_recip_key loads_two 1 0 (packed protected_l) "t") one_assigned log
        (.ok (topic_list "t" "l", .inbound (packed protected_l) none)) s' ∧ Fixed [uid_b, uid_a, uid_c] log ∧
      ¬ SpreadEvenly "l" uid_a one_assigned s' := by
  have ended : (call_in [uid_b, uid_a, uid_c] protected_l one_assigned).2 =
      some (.ok (topic_list "t" "l", .inbound (packed protected_l) none)) := rfl
  refine ⟨one_assigned_reached, recip_key_of_l, by decide, by decide, ⟨by decide, by decide⟩, _, _,
    runs_exec (leaves_log ended), lists_in_fixed (by rfl), fun even => ?_⟩
  have few := even uid_b (by decide) (by decide) uid_c (by decide) (by decide)
  exact absurd few (by decide)

end AcapyRedis.Spreading
