import AcapyRedis.Orphans

/-!
Calls that race for one key. Two calls that both find the key without an owner choose
different uids, and both uids list it (`two_owners`). As long as a new owner is only
written while no other uid lists the key (`Clean`), a uid that lists the key owns it
(`Sole`) and the key of a finished call is listed by its owner (`Owed`), so exactly one
uid lists it (`unique_owner`).
-/
namespace AcapyRedis.Owners
open AcapyRedis.Programs AcapyRedis.Programs.Program AcapyRedis.Python AcapyRedis.RedisStore AcapyRedis.Utils
open AcapyRedis.Threads AcapyRedis.Orphans

/-- The calls that carry the key `k`. -/
def Carries (json_loads : Bytes ⊕ Text → Except PyError Json) (k : RecipKey) (p : Redis (String × Entry)) : Prop :=
  ∃ patience now payload topic, recip_key_of json_loads payload = .ok k ∧
    p = process_payload_recip_key json_loads patience now payload topic

/-- A command writes an owner of `k` only while no other uid lists `k`; it writes a list
    with `k` only for the owner of `k`; and it takes `k` out of the list of its owner, or
    deletes the list, only to reassign `k`. -/
def Clean (k : RecipKey) (s : Store) : Command → Prop
  | .hset_uid l u => l = k → ∀ v ∈ s.uid_recip_keys_map, v ≠ u → k ∉ s.recip_keys v
  | .hset_recip_keys u change ks =>
    (k ∈ ks → s.recip_key_uid_map.lookup k = some u) ∧
      (k ∈ s.recip_keys u → s.recip_key_uid_map.lookup k = some u → k ∈ ks ∨ change = .loses k)
  | .hdel_recip_keys u => k ∈ s.recip_keys u → s.recip_key_uid_map.lookup k ≠ some u
  | _ => True

/-- The check of `Clean`. -/
def checks (k : RecipKey) (s : Store) : Command → Bool
  | .hset_uid l u => decide (l = k → ∀ v ∈ s.uid_recip_keys_map.keys, v ≠ u → k ∉ s.recip_keys v)
  | .hset_recip_keys u change ks =>
    decide ((k ∈ ks → s.recip_key_uid_map.lookup k = some u) ∧
      (k ∈ s.recip_keys u → s.recip_key_uid_map.lookup k = some u → k ∈ ks ∨ change = .loses k))
  | .hdel_recip_keys u => decide (k ∈ s.recip_keys u → s.recip_key_uid_map.lookup k ≠ some u)
  | _ => true

theorem checks_sound {k : RecipKey} {s : Store} {c : Command} (passed : checks k s c = true) : Clean k s c := by
  cases c with
  | hset_uid l u =>
    rw [checks,decide_eq_true_eq] at passed
    exact fun same v there => passed same v (AList.mem_keys.mp there)
  | hset_recip_keys u change ks =>
    rw [checks,decide_eq_true_eq] at passed
    exact passed
  | hdel_recip_keys u =>
    rw [checks,decide_eq_true_eq] at passed
    exact passed
  | _ => trivial

/-! ### Only the owner lists the key -/

/-- Every uid that lists `k` owns it. -/
def Sole (k : RecipKey) (s : Store) : Prop := ∀ v, k ∈ s.recip_keys v → s.recip_key_uid_map.lookup k = some v

theorem listed_in_map {s : Store} {k : RecipKey} {v : Uid} (listed : k ∈ s.recip_keys v) : v ∈ s.uid_recip_keys_map := by
  by_contra absent
  rw [Store.recip_keys,AList.lookup_eq_none.mpr absent] at listed
  cases listed

theorem step_sole {k : RecipKey} {s : Store} {g : Ledger} (sole : Sole k s) {c : Command} (choice : Choice)
    (may : g.may c) (clean : Clean k s c) : Sole k (exec c choice s).2 := by
  cases c with
  | hset_uid l u =>
    intro v listed
    by_cases same : k = l
    · subst same
      by_cases target : v = u
      · subst target
        exact AList.lookup_insert _
      · exact absurd listed (clean rfl v (listed_in_map listed) target)
    · exact (AList.lookup_insert_ne same).trans (sole v listed)
  | hset_recip_keys u change ks =>
    intro v listed
    have written : k ∈ if v = u then arranged choice.recip_keys ks else s.recip_keys v := by
      rw [← recip_keys_insert s u v]
      exact listed
    by_cases target : v = u
    · subst target
      rw [if_pos rfl,mem_arranged] at written
      exact clean.1 written
    · rw [if_neg target] at written
      exact sole v written
  | hset_no_recip_keys u => exact may.elim
  | hdel_recip_keys u =>
    intro v listed
    by_cases target : v = u
    · subst target
      have gone : k ∈ ((s.uid_recip_keys_map.erase v).lookup v).getD [] := listed
      rw [AList.lookup_erase] at gone
      cases gone
    · refine sole v ?_
      rw [← recip_keys_erase_ne s target]
      exact listed
  | _ => exact sole

/-- A clean write of a call keeps what the call has not read of the list of `k`. -/
theorem clean_up_to_date {k : RecipKey} {s : Store} {g : Ledger} {c : Command} (may : g.may c) (clean : Clean k s c) :
    g.up_to_date_but (· ≠ k) s c := by
  cases c with
  | hset_recip_keys u change ks =>
    intro copy read l listed owner
    by_cases same : l = k
    · right
      subst same
      obtain kept | moved := clean.2 listed owner
      · cases change with
        | gains m =>
          obtain ⟨_,copied,held,written⟩ := may
          cases held.symm.trans read
          exact (written l).mp kept
        | loses m =>
          obtain ⟨_,copied,held,written⟩ := may
          cases held.symm.trans read
          exact .inl ((written l).mp kept).1
      · exact .inr (by rw [moved]; rfl)
    · exact .inl same
  | hdel_recip_keys u =>
    intro copy read l listed owner
    by_cases same : l = k
    · subst same
      exact absurd owner (clean listed)
    · exact .inl same
  | _ => trivial

/-! ### A finished call has seen an owner -/

/-- Whether a call has seen that `k` has an owner. -/
def sees (k : RecipKey) (seen : Bool) : Event Command Command.Reply → Bool
  | ⟨.hset_uid l _, _⟩ => seen || decide (l = k)
  | ⟨.hexists_uid l, true⟩ => seen || decide (l = k)
  | _ => seen

/-- It may do anything. -/
def witness (k : RecipKey) : Discipline Command Command.Reply Bool :=
  ⟨false, sees k, fun _ _ => True, fun _ _ => True⟩

theorem sees_mono (k : RecipKey) (seen : Bool) (event : Event Command Command.Reply) (before : seen = true) :
    sees k seen event = true := by
  subst before
  obtain ⟨c,reply⟩ := event
  cases c with
  | hexists_uid l => cases reply <;> rfl
  | _ => rfl

/-- What a call has seen it has seen at its end. -/
theorem still_seen {α : Type} {k : RecipKey} (p : Redis α) :
    (witness k).Follows (fun _ seen => seen = true) p true :=
  Discipline.follows_always (fun seen => seen = true) (fun _ _ => trivial) (sees_mono k) p rfl

theorem find_or_assign_sees (patience : Nat) (k : RecipKey) :
    (witness k).Follows (fun outcome seen => outcome.isOk = true → seen = true) (find_or_assign patience k) false := by
  refine ⟨trivial, ?_⟩
  intro present _
  cases present with
  | true =>
    have seen : (witness k).next false ⟨.hexists_uid k, true⟩ = true := by simp [witness,sees]
    show (witness k).Follows _ _ ((witness k).next false ⟨.hexists_uid k, true⟩)
    rw [seen]
    exact Discipline.follows_mono (still_seen _) (fun _ _ still _ => still)
  | false =>
    show (witness k).Follows _ (assign_recip_key_to_new_uid patience k) false
    rw [assign_recip_key_to_new_uid,Discipline.follows_bind]
    have chosen := Discipline.follows_always (D := witness k) (fun _ => True) (fun _ _ => trivial)
      (fun _ _ _ => trivial) (get_new_valid_uid none patience) (g := false) trivial
    refine Discipline.follows_mono chosen (fun outcome seen _ => ?_)
    cases outcome with
    | error error => exact fun ok => absurd ok Bool.false_ne_true
    | ok u =>
      refine ⟨trivial, fun _ _ => ?_⟩
      have now : (witness k).next seen ⟨.hset_uid k u, ()⟩ = true := by simp [witness,sees]
      rw [now]
      exact Discipline.follows_mono (still_seen _) (fun _ _ still _ => still)

theorem call_sees {json_loads : Bytes ⊕ Text → Except PyError Json} {k : RecipKey} {p : Redis (String × Entry)}
    (carries : Carries json_loads k p) :
    (witness k).Follows (fun outcome seen => outcome.isOk = true → seen = true) p (witness k).first := by
  obtain ⟨patience,now,payload,topic,key,rfl⟩ := carries
  rw [process_payload_recip_key,key]
  show (witness k).Follows _ (process_recip_key patience now k >>= _) _
  rw [process_recip_key,Discipline.follows_bind,Discipline.follows_bind]
  refine Discipline.follows_mono (find_or_assign_sees patience k) (fun outcome seen found => ?_)
  cases outcome with
  | error error => exact fun ok => absurd ok Bool.false_ne_true
  | ok u =>
    have seen_now : seen = true := found rfl
    subst seen_now
    rw [Discipline.continues_ok,← Discipline.follows_bind]
    exact Discipline.follows_mono (still_seen _) (fun _ _ still _ => still)

/-! ### Whole runs -/

/-- A call issues a command only if it is clean for `k`. -/
def clean (k : RecipKey) (_ : List (Event Command Command.Reply)) (s : Store) (c : Command) : Prop := Clean k s c

/-- Only the owner lists `k`, and `k` is listed by its owner or owed by a call. -/
structure Uncontended (k : RecipKey) (s : Store) (gs : List Ledger) : Prop where
  owed : Owed (· ≠ k) s gs
  sole : Sole k s

section
variable {json_loads : Bytes ⊕ Text → Except PyError Json} {k : RecipKey} {init : Store} {pool : Calls}

theorem reach_uncontended (free : init.recip_key_uid_map.lookup k = none) (unlisted : ∀ u, k ∉ init.recip_keys u)
    (reach : Reach exec (Carries json_loads k) (clean k) init pool) :
    Uncontended k pool.store (keeper.ghosts pool) ∧
    ∀ thread ∈ pool.threads, keeper.Follows (fun _ g => g.duty = .settled) thread.program (keeper.ghost thread.log) := by
  apply Discipline.reach_invariant keeper (fun _ g => g.duty = .settled) (Uncontended k) _ _ _ _ _ reach
  · refine ⟨fun l u owner => ?_, fun v listed => absurd listed (unlisted v)⟩
    by_cases same : l = k
    · subst same
      rw [free] at owner
      cases owner
    · exact .inr (.inl same)
  · intro s gs inv
    refine ⟨fun l u owner => ?_, inv.sole⟩
    obtain listed | gone | ⟨g,there,owes⟩ := inv.owed l u owner
    · exact .inl listed
    · exact .inr (.inl gone)
    · exact .inr (.inr ⟨g, List.mem_append_left _ there, owes⟩)
  · rintro _ ⟨patience,now,payload,topic,_,rfl⟩
    exact process_payload_settles json_loads patience now payload topic _ rfl
  · exact fun _ _ _ _ _ _ _ => trivial
  · intro s gs i log c choice inv here may clean
    exact ⟨step_owed inv.owed here choice may (clean_up_to_date may clean), step_sole inv.sole choice may clean⟩

/-- A key that a call has seen to have an owner keeps one. -/
theorem reach_seen (reach : Reach exec (Carries json_loads k) (clean k) init pool) :
    (∀ seen ∈ (witness k).ghosts pool, seen = true → k ∈ pool.store.recip_key_uid_map) ∧
    ∀ thread ∈ pool.threads, (witness k).Follows (fun outcome seen => outcome.isOk = true → seen = true)
      thread.program ((witness k).ghost thread.log) := by
  apply Discipline.reach_invariant (witness k) (fun outcome seen => outcome.isOk = true → seen = true)
    (fun s gs => ∀ seen ∈ gs, seen = true → k ∈ s.recip_key_uid_map) _ _ _ _ _ reach
  · intro seen member
    cases member
  · intro s gs inv seen member now
    obtain old | new := List.mem_append.mp member
    · exact inv seen old now
    · rw [List.mem_singleton.mp new] at now
      cases now
  · exact fun _ carries => call_sees carries
  · exact fun _ _ _ _ _ _ _ => trivial
  · intro s gs i log c choice inv here _ _ seen member now
    have kept : ∀ l, l ∈ s.recip_key_uid_map → l ∈ (exec c choice s).2.recip_key_uid_map := by
      intro l there
      cases c with
      | hset_uid m u => exact (AList.mem_insert _).mpr (.inr there)
      | _ => exact there
    obtain old | rfl := List.mem_or_eq_of_mem_set member
    · exact kept k (inv seen old now)
    · by_cases before : (witness k).ghost log = true
      · exact kept k (inv _ (List.mem_of_getElem? here) before)
      · rw [Bool.not_eq_true] at before
        rw [before] at now
        cases c with
        | hset_uid l u =>
          have same : l = k := by simpa [witness,sees] using now
          exact (AList.mem_insert _).mpr (.inl same.symm)
        | hexists_uid l =>
          have found : (s.recip_key_uid_map.lookup l).isSome = true ∧ l = k := by
            simp only [witness,exec] at now
            cases owner : s.recip_key_uid_map.lookup l with
            | none => simp [sees,owner] at now
            | some u => exact ⟨rfl, by simpa [sees,owner] using now⟩
          exact found.2 ▸ AList.lookup_isSome.mp found.1
        | _ => cases now

/-- When all calls have returned, exactly one uid lists the key, and it is the owner of
    the key, in every run whose commands are clean. -/
theorem unique_owner (free : init.recip_key_uid_map.lookup k = none) (unlisted : ∀ u, k ∉ init.recip_keys u)
    (reach : Reach exec (Carries json_loads k) (clean k) init pool) (some_call : pool.threads ≠ [])
    (returned : ∀ thread ∈ pool.threads, ∃ value, thread.program = .done value) :
    ∃ u, pool.store.recip_key_uid_map.lookup k = some u ∧ ∀ v, k ∈ pool.store.recip_keys v ↔ v = u := by
  obtain ⟨inv,follows⟩ := reach_uncontended free unlisted reach
  obtain ⟨seen,sees⟩ := reach_seen reach
  have settled : ∀ g ∈ keeper.ghosts pool, g.duty = .settled := by
    refine Discipline.quiet_post (fun _ _ ended => ended) (List.all_eq_true.mpr (fun thread member => ?_)) follows
    obtain ⟨value,ended⟩ := returned thread member
    rw [ended]
    rfl
  obtain ⟨thread,member⟩ := List.exists_mem_of_ne_nil _ some_call
  obtain ⟨value,ended⟩ := returned thread member
  have saw := sees thread member
  rw [ended] at saw
  have owned : k ∈ pool.store.recip_key_uid_map := seen _ (List.mem_map_of_mem member) (saw rfl)
  obtain ⟨u,owner⟩ := Option.isSome_iff_exists.mp (AList.lookup_isSome.mpr owned)
  refine ⟨u, owner, fun v => ⟨fun listed => ?_, fun same => ?_⟩⟩
  · rw [inv.sole v listed] at owner
    exact Option.some.inj owner
  · subst same
    exact (inv.owed.settled settled owner).resolve_right (fun other => other rfl)

end

/-! ### Two calls for one key

Two instances are registered, and two producers have a message for the key `k`. -/

def two_uids : Store := { one_uid with uid_recip_keys_map := one_uid.uid_recip_keys_map.insert uid_b [] }

def both_for_k : List CallMove := [.start (call_of (packed protected_k)), .start (call_of (packed protected_k))]

/-- Both calls test for an owner before one is written. -/
def both_test : List CallMove := both_for_k ++ steps 0 1 ++ steps 1 1 ++ steps 0 13 ++ steps 1 12

/-- The second call begins when the first one has written an owner and a list. -/
def one_assigns : List CallMove := both_for_k ++ steps 0 14 ++ steps 1 20

theorem both_carry {ms : List CallMove} (starts : started ms = started both_for_k) :
    ∀ program ∈ started ms, Carries loads_two "k" program := by
  intro program member
  rw [starts] at member
  simp only [both_for_k,started,List.mem_cons,List.not_mem_nil,or_false] at member
  obtain rfl | rfl := member <;> exact ⟨1,0,_,"t",recip_key_of_k,rfl⟩

/-- The key has no owner yet and is in no list. -/
theorem two_uids_free : two_uids.recip_key_uid_map.lookup "k" = none ∧ ∀ u, "k" ∉ two_uids.recip_keys u := by
  refine ⟨rfl, fun u listed => ?_⟩
  have keys : two_uids.uid_recip_keys_map.keys = [uid_b, uid_a] := rfl
  have there := AList.mem_keys.mp (listed_in_map listed)
  rw [keys] at there
  obtain rfl | rfl : u = uid_b ∨ u = uid_a := by simpa using there
  · exact absurd listed (by decide)
  · exact absurd listed (by decide)

/-- Whether all calls have returned and the uids `a` and `b` list the key or not. -/
def listed_by (a b : Bool) (pool : Calls) : Bool :=
  pool.threads.all (fun thread => thread.program.returned) && pool.threads.length == 2 &&
    (decide ("k" ∈ pool.store.recip_keys uid_a) == a) && (decide ("k" ∈ pool.store.recip_keys uid_b) == b)

theorem all_returned {pool : Calls} (tested : pool.threads.all (fun thread => thread.program.returned) = true) :
    ∀ thread ∈ pool.threads, ∃ value, thread.program = .done value :=
  fun thread member => returned_iff.mp (List.all_eq_true.mp tested thread member)

theorem two_owners : two_uids.recip_key_uid_map.lookup "k" = none ∧ (∀ u, "k" ∉ two_uids.recip_keys u) ∧
    ∃ pool : Calls, Reach exec (Carries loads_two "k") anyOrder two_uids pool ∧ pool.threads ≠ [] ∧
      (∀ thread ∈ pool.threads, ∃ value, thread.program = .done value) ∧
      ¬ ∃ u, pool.store.recip_key_uid_map.lookup "k" = some u ∧ ∀ v, "k" ∈ pool.store.recip_keys v ↔ v = u := by
  have ran : ((⟨two_uids, []⟩ : Calls).moves exec (fun _ _ _ => true) both_test).any (listed_by true true) = true := by
    decide
  obtain ⟨pool,reach,tested⟩ := reach_of_test (fun _ _ _ _ => trivial) both_test _ ran (both_carry rfl)
  simp only [listed_by,Bool.and_eq_true,beq_iff_eq,decide_eq_true_eq] at tested
  obtain ⟨⟨⟨returned,two⟩,first⟩,second⟩ := tested
  refine ⟨two_uids_free.1, two_uids_free.2, pool, reach, ?_, all_returned returned, ?_⟩
  · rintro none
    rw [none] at two
    cases two
  · rintro ⟨u,_,only⟩
    have same : uid_a = uid_b := ((only uid_a).mp first).trans ((only uid_b).mp second).symm
    exact absurd same (by decide)

theorem unique_owner_in_turn : ∃ pool : Calls, Reach exec (Carries loads_two "k") (clean "k") two_uids pool ∧
    pool.threads.length = 2 ∧
    ∃ u, pool.store.recip_key_uid_map.lookup "k" = some u ∧ ∀ v, "k" ∈ pool.store.recip_keys v ↔ v = u := by
  have ran : ((⟨two_uids, []⟩ : Calls).moves exec (fun _ s c => checks "k" s c) one_assigns).any
      (listed_by true false) = true := by decide
  obtain ⟨pool,reach,tested⟩ := reach_of_test (fun _ _ _ passed => checks_sound passed) one_assigns _ ran
    (both_carry rfl)
  simp only [listed_by,Bool.and_eq_true,beq_iff_eq] at tested
  obtain ⟨⟨⟨returned,two⟩,_⟩,_⟩ := tested
  have some_call : pool.threads ≠ [] := by
    rintro none
    rw [none] at two
    cases two
  exact ⟨pool, reach, two, unique_owner two_uids_free.1 two_uids_free.2 reach some_call (all_returned returned)⟩

end AcapyRedis.Owners
