import AcapyRedis.Passes
import AcapyRedis.Counters

/-!
Who takes the messages of a key and counts them off. A pass reads the key list of its instance
once and then pops the lists of these keys one after the other, while calls may give the keys to
other uids (`takes_moved_message`). When a key gets a new owner only while no other uid lists it
and no pass of another instance has yet to reach it, a message is popped only once it is counted,
and no counter changes under a pass that is about to lower it (`KeepsPasses`), every pop of a pass
is made by the owner of the key and lowers the owner's counter by one (`exclusive_consumption`).
-/
namespace AcapyRedis.Consumption
open AcapyRedis.Programs AcapyRedis.Programs.Program AcapyRedis.Python AcapyRedis.RedisStore AcapyRedis.Utils
open AcapyRedis.Threads AcapyRedis.Commands AcapyRedis.Inbound AcapyRedis.Pending AcapyRedis.Passes

/-! ### Owners and passes -/

/-- A thread that is a pass of `uid` in progress that has yet to reach the key `k`. -/
def Reaches (thread : Thread Command Command.Reply PyError Unit) (uid : Uid) (k : RecipKey) : Prop :=
  thread.program.finished = false ∧ ∃ pass, role thread.log = .passing pass ∧ pass.uid = uid ∧ k ∈ pass.ahead

/-- A new owner of a key is written only while no other uid lists the key and no pass of
    another uid has yet to reach it, and a list only with keys of its uid. -/
def KeepsOwners (pool : Actors) : Command → Prop
  | .hset_uid k u => (∀ v, v ≠ u → k ∉ pool.store.recip_keys v) ∧
      ∀ thread ∈ pool.threads, ∀ v, v ≠ u → ¬ Reaches thread v k
  | .hset_recip_keys u _ ks => ∀ k ∈ ks, pool.store.recip_key_uid_map.lookup k = some u
  | _ => True

/-- The counter of a popped message is neither reset nor deleted before the pass has
    counted the message off, and nothing is added to it once the pass has read it. -/
def Spares (topic : String) (pass : Pass) : Command → Prop
  | .hset_pending field _ => pass.Counter topic field → pass.due = .nothing
  | .hdel_pending field => pass.Counter topic field → pass.due = .nothing
  | .hincrby_pending field _ => pass.Counter topic field → ∀ count, pass.due ≠ .lower count
  | _ => True

/-- What the command of thread `i` has to keep to. -/
structure KeepsPasses (topic : String) (pool : Actors) (i : Nat) (c : Command) : Prop where
  owners : KeepsOwners pool c
  counted : ∀ thread pass k payload txn_id, pool.threads[i]? = some thread → role thread.log = .passing pass →
    c = .blpop (topic_list topic k) → (pool.store.lists (topic_list topic k)).head? = some (.inbound payload txn_id) →
    1 ≤ pool.store.pending (uid_recip_key pass.uid k)
  spares : ∀ j thread pass, j ≠ i → pool.threads[j]? = some thread → role thread.log = .passing pass →
    Spares topic pass c

/-- Every uid owns the keys that it lists and those that a pass of it has yet to reach. -/
structure Owning (pool : Actors) : Prop where
  lists : ∀ u, ∀ k ∈ pool.store.recip_keys u, pool.store.recip_key_uid_map.lookup k = some u
  passes : ∀ thread ∈ pool.threads, ∀ u k, Reaches thread u k → pool.store.recip_key_uid_map.lookup k = some u

section
variable {pool : Actors} {i : Nat} {c : Command} {log : List (Event Command Command.Reply)}

/-- A key that a pass has yet to reach it had yet to reach before its last command, unless
    that command read the key list. -/
theorem reaches_before (next : Except PyError c.Reply → Redis Unit) {p : Redis Unit} {reply : c.Reply} {u : Uid}
    {k : RecipKey} (reaches : Reaches ⟨p, log ++ [⟨c, reply⟩]⟩ u k) :
    Reaches ⟨.command c next, log⟩ u k ∨
      ∃ ks, (⟨c, reply⟩ : Event Command Command.Reply) = ⟨.hget_recip_keys u, ks⟩ ∧ k ∈ ks.getD [] := by
  obtain ⟨_,pass,here,rfl,member⟩ := reaches
  obtain ⟨v,ks,_,read,rfl⟩ | ⟨old,before,rfl⟩ := role_passing here
  · exact .inr ⟨ks, read, member⟩
  · refine .inl ⟨rfl, old, before, ?_, ?_⟩
    · cases c <;> rfl
    · cases c with
      | blpop list => exact List.mem_of_mem_tail member
      | _ => exact member

/-- Only a write of an owner of a key changes its owner. -/
theorem owner_kept {s : Store} {k : RecipKey} {u : Uid} (choice : Choice)
    (owner : s.recip_key_uid_map.lookup k = some u)
    (same : ∀ v, c = .hset_uid k v → u = v) : (exec c choice s).2.recip_key_uid_map.lookup k = some u := by
  cases c with
  | hset_uid l v =>
    by_cases here : k = l
    · subst here
      rw [same v rfl]
      exact AList.lookup_insert _
    · exact (AList.lookup_insert_ne here).trans owner
  | _ => exact owner

theorem lists_owned (owning : Owning pool) (keeps : KeepsOwners pool c) (choice : Choice) (u : Uid) :
    ∀ k ∈ (exec c choice pool.store).2.recip_keys u,
      (exec c choice pool.store).2.recip_key_uid_map.lookup k = some u := by
  intro k listed
  cases c with
  | hset_recip_keys v change ks =>
    have written : k ∈ if u = v then arranged choice.recip_keys ks else pool.store.recip_keys u := by
      rw [← recip_keys_insert]
      exact listed
    by_cases target : u = v
    · subst target
      rw [if_pos rfl,mem_arranged] at written
      exact keeps k written
    · rw [if_neg target] at written
      exact owning.lists u k written
  | hset_no_recip_keys v =>
    have written : k ∈ if u = v then [] else pool.store.recip_keys u := by
      rw [← recip_keys_insert]
      exact listed
    by_cases target : u = v
    · rw [if_pos target] at written
      cases written
    · rw [if_neg target] at written
      exact owning.lists u k written
  | hdel_recip_keys v =>
    by_cases target : u = v
    · subst target
      have gone : k ∈ ((pool.store.uid_recip_keys_map.erase u).lookup u).getD [] := listed
      rw [AList.lookup_erase] at gone
      cases gone
    · refine owning.lists u k ?_
      rw [← recip_keys_erase_ne pool.store target]
      exact listed
  | hset_uid l v =>
    refine owner_kept choice (owning.lists u k listed) (fun w here => ?_)
    cases here
    by_contra other
    exact keeps.1 u other listed
  | _ => exact owning.lists u k listed

theorem step_owning {next : Except PyError c.Reply → Redis Unit} (owning : Owning pool)
    (found : pool.threads[i]? = some ⟨.command c next, log⟩)
    (keeps : KeepsOwners pool c) (choice : Choice) : Owning (pool.issue exec i c next log choice) := by
  refine ⟨lists_owned owning keeps choice, fun thread member u k reaches => ?_⟩
  -- a thread that still has to reach the key did so before, or has just read the key list
  have owner_at : ∀ other ∈ pool.threads, Reaches other u k →
      (exec c choice pool.store).2.recip_key_uid_map.lookup k = some u := by
    intro other there before
    refine owner_kept choice (owning.passes other there u k before) (fun v here => ?_)
    subst here
    by_contra another
    exact keeps.2 other there u another before
  obtain old | rfl := List.mem_or_eq_of_mem_set member
  · exact owner_at thread old reaches
  · obtain before | ⟨ks,read,listed⟩ := reaches_before next reaches
    · exact owner_at _ (List.mem_of_getElem? found) before
    · cases c with
      | hget_recip_keys v =>
        cases read
        exact owning.lists u k listed
      | _ => cases read

end

/-! ### Counters and passes -/

namespace Due

/-- What a counter has to be for what is due. -/
def Covered : Due → Int → Prop
  | .nothing, _ => True
  | .access, value => 1 ≤ value
  | .read, value => 1 ≤ value
  | .lower count, value => value = count ∧ 1 ≤ count

end Due

/-- The counter of the message that a pass has popped covers what the pass has yet to do. -/
def Covers (topic : String) (s : Store) (pass : Pass) : Prop :=
  ∀ field, pass.Counter topic field → Due.Covered pass.due (s.pending field)

section
variable {topic : String} {s : Store} {pass : Pass} {c : Command}

/-- A command that spares the counter and takes nothing from it. -/
theorem covers_kept (covers : Covers topic s pass) (spares : Spares topic pass c)
    (adds : ∀ field amount, c = .hincrby_pending field amount → 0 ≤ amount) (choice : Choice) :
    Covers topic (exec c choice s).2 pass := by
  intro field counter
  have before := covers field counter
  cases c with
  | hset_pending other value =>
    by_cases same : field = other
    · subst same
      rw [spares counter]
      trivial
    · rw [← pending_insert_ne s value same] at before
      exact before
  | hdel_pending other =>
    by_cases same : field = other
    · subst same
      rw [spares counter]
      trivial
    · rw [← pending_erase_ne s same] at before
      exact before
  | hincrby_pending other amount =>
    by_cases same : field = other
    · subst same
      have more := adds field amount rfl
      show Due.Covered pass.due
        (((s.uid_recip_key_pending_msg_count.insert field (s.pending field + amount)).lookup field).getD 0)
      rw [AList.lookup_insert,Option.getD_some]
      cases due : pass.due with
      | nothing => trivial
      | access =>
        rw [due] at before
        exact Int.le_trans before (Int.le_add_of_nonneg_right more)
      | read =>
        rw [due] at before
        exact Int.le_trans before (Int.le_add_of_nonneg_right more)
      | lower count => exact absurd due (spares counter count)
    · rw [← pending_insert_ne s (s.pending other + amount) same] at before
      exact before
  | _ => exact before

/-- A command of the pass itself, which pops a message only once it is counted. -/
theorem covers_next (covers : Covers topic s pass) (may : pass.may topic c) (choice : Choice)
    (counted : ∀ k payload txn_id, c = .blpop (topic_list topic k) →
      (s.lists (topic_list topic k)).head? = some (.inbound payload txn_id) →
      1 ≤ s.pending (uid_recip_key pass.uid k)) :
    Covers topic (exec c choice s).2 (pass.next ⟨c, (exec c choice s).1⟩) := by
  obtain ⟨uid,popped,ahead,due⟩ := pass
  intro field counter
  cases due with
  | nothing =>
    cases c <;> first | exact may.elim | skip
    · trivial
    · obtain ⟨k,_,rfl⟩ := may
      obtain ⟨l,same,rfl⟩ := counter
      obtain rfl := topic_list_inj.mp (Option.some.inj same)
      show Due.Covered (Due.of_popped (s.lists (topic_list topic k)).head?) (s.pending (uid_recip_key uid k))
      rcases first : (s.lists (topic_list topic k)).head? with _ | ⟨payload,txn_id⟩ | ⟨_,_,_⟩ | _
      · trivial
      · exact counted k payload txn_id rfl first
      · trivial
      · trivial
  | access =>
    cases c <;> first | exact may.elim | exact covers field counter
  | read =>
    cases c <;> first | exact may.elim | skip
    rename_i other
    obtain rfl := Pass.counter_unique may counter
    have least : 1 ≤ s.pending field := covers field counter
    show Due.Covered (Due.of_count (s.pending field)) (s.pending field)
    rw [Due.of_count,if_pos least]
    exact ⟨rfl,least⟩
  | lower count =>
    cases c <;> first | exact may.elim | trivial

end

/-! ### Whole runs -/

section
variable {json_loads : Bytes ⊕ Text → Except PyError Json} {topic : String} {pool : Actors}

theorem reach_owning
    (reach : Guarded exec (IsActor json_loads topic) (KeepsPasses topic) (fun _ => False) Store.empty pool) :
    Owning pool := by
  induction reach with
  | initial => exact ⟨fun _ _ listed => (List.not_mem_nil listed).elim, fun _ none => (List.not_mem_nil none).elim⟩
  | @start pool program _ _ ih =>
    refine ⟨ih.lists, fun thread member u k reaches => ?_⟩
    obtain old | new := List.mem_append.mp member
    · exact ih.passes thread old u k reaches
    · obtain ⟨_,_,here,_⟩ := reaches
      rw [List.mem_singleton.mp new] at here
      cases here
  | step choice _ found keeps ih => exact step_owning ih found keeps.owners choice
  | fail _ _ _ fails => exact fails.elim

theorem reach_runs
    (reach : Guarded exec (IsActor json_loads topic) (KeepsPasses topic) (fun _ => False) Store.empty pool) :
    ∀ thread ∈ pool.threads, (runner topic).Endures (fun _ => False) (fun _ g => g.rests) thread.program
      (role thread.log) := by
  refine (Discipline.guarded_invariant (runner topic) (fun _ g => g.rests) (fun _ _ => True) ?_ ?_ ?_ ?_ ?_ reach).2
  · trivial
  · exact fun _ _ _ => trivial
  · exact fun p actor => Discipline.endures_of_follows (fun _ => id) (actor_runs actor)
  · exact fun _ _ _ _ _ _ _ _ _ => trivial
  · exact fun _ _ _ _ _ _ _ _ _ => trivial

/-- A call adds no negative count to a counter. -/
theorem reach_adds
    (reach : Guarded exec (IsActor json_loads topic) (KeepsPasses topic) (fun _ => False) Store.empty pool) :
    ∀ thread ∈ pool.threads, ∀ field amount next, thread.program = .command (.hincrby_pending field amount) next →
      0 ≤ amount := by
  have disciplined : ∀ p, IsActor json_loads topic p →
      Counters.bookkeeper.Endures (fun _ => False) (fun _ _ => True) p Counters.bookkeeper.first := by
    intro p actor
    cases actor with
    | produces patience now payload =>
      refine Discipline.endures_of_follows (fun _ => id) ?_
      rw [produce,Discipline.follows_bind]
      refine Discipline.follows_mono (Counters.process_payload_follows json_loads patience now payload topic _)
        (fun outcome g _ => ?_)
      cases outcome with
      | ok counted => exact ⟨trivial, fun _ _ => trivial⟩
      | error error => trivial
    | polls self _ => exact Discipline.endures_fewer (Counters.poll_survives self _) (fun _ _ => trivial)
    | registers uid => exact ⟨trivial, fun _ _ => ⟨trivial, fun _ _ => trivial, fun _ fails => fails.elim⟩,
      fun _ fails => fails.elim⟩
  intro thread member field amount next here
  have keeps := (Discipline.guarded_invariant Counters.bookkeeper (fun _ _ => True) Counters.Sound Counters.begins_sound
    (fun _ _ => Counters.spawns_sound) disciplined (fun s gs i g c choice inv _ _ => Counters.answered inv g c choice)
    (fun pool i g c choice inv here may _ => Counters.step_sound inv here choice may) reach).2 thread member
  rw [here] at keeps
  exact keeps.1.1

/-- A pass never waits, and neither does a program that begins as one does. -/
theorem reach_awake
    (reach : Guarded exec (IsActor json_loads topic) (KeepsPasses topic) (fun _ => False) Store.empty pool) :
    ∀ thread ∈ pool.threads, (∀ pass, role thread.log = .passing pass → thread.program.Awake) ∧
      (role thread.log = .fresh → ∀ u next, thread.program = .command (.hget_recip_keys u) next →
        thread.program.Awake) := by
  induction reach with
  | initial => exact fun _ none => (List.not_mem_nil none).elim
  | @start pool program _ actor ih =>
    intro thread member
    obtain old | new := List.mem_append.mp member
    · exact ih thread old
    · obtain rfl := List.mem_singleton.mp new
      exact ⟨fun pass here => (by cases here), fun _ u next begins => pass_awake actor begins⟩
  | @step pool i c next log choice _ found _ ih =>
    intro thread member
    obtain old | rfl := List.mem_or_eq_of_mem_set member
    · exact ih thread old
    · obtain ⟨passing,fresh⟩ := ih _ (List.mem_of_getElem? found)
      constructor
      · intro pass here
        obtain ⟨u,keys,before,read,_⟩ | ⟨old,before,_⟩ := role_passing here
        · cases read
          exact fresh before u next rfl _
        · exact passing old before _
      · exact fun here => absurd here (role_begun log _)
  | fail _ _ _ fails => exact fails.elim

/-- A command keeps the counters of all passes covered, that of its own thread too. -/
theorem step_covers {i : Nat} {c : Command} {next : Except PyError c.Reply → Redis Unit}
    {log : List (Event Command Command.Reply)} (found : pool.threads[i]? = some ⟨.command c next, log⟩)
    (covers : ∀ thread ∈ pool.threads, ∀ pass, role thread.log = .passing pass → Covers topic pool.store pass)
    (may : Role.may topic (role log) c) (adds : ∀ field amount, c = .hincrby_pending field amount → 0 ≤ amount)
    (keeps : KeepsPasses topic pool i c) (choice : Choice) :
    ∀ thread ∈ (pool.issue exec i c next log choice).threads, ∀ pass, role thread.log = .passing pass →
      Covers topic (exec c choice pool.store).2 pass := by
  intro thread member pass here
  obtain ⟨j,place⟩ := List.mem_iff_getElem?.mp member
  rw [Pool.issue,List.getElem?_set] at place
  by_cases own : i = j
  · subst own
    rw [if_pos rfl,if_pos (List.getElem?_eq_some_iff.mp found).1,Option.some.injEq] at place
    subst place
    obtain ⟨u,keys,_,_,rfl⟩ | ⟨old,before,rfl⟩ := role_passing here
    · exact fun _ _ => trivial
    · rw [before] at may
      refine covers_next (covers _ (List.mem_of_getElem? found) old before) may choice ?_
      exact fun k payload txn_id pops head => keeps.counted _ old k payload txn_id found before pops head
  · rw [if_neg own] at place
    have there := List.mem_of_getElem? place
    exact covers_kept (covers thread there pass here) (keeps.spares j thread pass (Ne.symm own) place here) adds choice

theorem reach_covers
    (reach : Guarded exec (IsActor json_loads topic) (KeepsPasses topic) (fun _ => False) Store.empty pool) :
    ∀ thread ∈ pool.threads, ∀ pass, role thread.log = .passing pass → Covers topic pool.store pass := by
  induction reach with
  | initial => exact fun _ none => (List.not_mem_nil none).elim
  | @start pool program _ _ ih =>
    intro thread member pass here
    obtain old | new := List.mem_append.mp member
    · exact ih thread old pass here
    · rw [List.mem_singleton.mp new] at here
      cases here
  | @step pool i c next log choice before found keeps ih =>
    have member := List.mem_of_getElem? found
    refine step_covers found ih (reach_runs before _ member).1 (fun field amount adds => ?_) keeps choice
    subst adds
    exact reach_adds before _ member field amount next rfl
  | fail _ _ _ fails => exact fails.elim

/-! ### Exclusive consumption -/

/-- A pass of an instance: its first command read the key list of the uid. -/
def IsPass (thread : Thread Command Command.Reply PyError Unit) (u : Uid) : Prop :=
  ∃ reply log, thread.log = ⟨.hget_recip_keys u, reply⟩ :: log

/-- What a pass does next for the record of `k` that it popped last: it notes its access, it
    reads the counter of its uid and the key, which is at least 1, and it writes the count
    lowered by one. With nothing due it writes no counter. -/
def CountsOff (s : Store) (uid : Uid) (k : RecipKey) (p : Redis Unit) : Due → Prop
  | .nothing => ∀ field value next, p ≠ .command (.hset_pending field value) next
  | .access => ∃ time next, p = .command (.hset_last_access uid time) next
  | .read => 1 ≤ s.pending (uid_recip_key uid k) ∧ ∃ next, p = .command (.hget_pending (uid_recip_key uid k)) next
  | .lower count => 1 ≤ count ∧ s.pending (uid_recip_key uid k) = count ∧
      ∃ next, p = .command (.hset_pending (uid_recip_key uid k) (count - 1)) next

/-- A pass that is about to pop a message of a key is one of the owner of the key, and every
    record that a pass has popped lowers the counter of its uid and the key by one. -/
structure Exclusive (topic : String) (pool : Actors) : Prop where
  pops : ∀ thread ∈ pool.threads, ∀ u k next, IsPass thread u →
    thread.program = .command (.blpop (topic_list topic k)) next →
    pool.store.lists (topic_list topic k) ≠ [] → pool.store.recip_key_uid_map.lookup k = some u
  lowers : ∀ thread ∈ pool.threads, ∀ pass k, role thread.log = .passing pass →
    pass.popped = some (topic_list topic k) →
    CountsOff pool.store pass.uid k thread.program pass.due

/-- A pass with something due issues the command that is due. -/
theorem counts_off {s : Store} {pass : Pass} {k : RecipKey} {p : Redis Unit}
    (popped : pass.popped = some (topic_list topic k))
    (awake : p.Awake) (runs : (runner topic).Endures (fun _ => False) (fun _ g => g.rests) p (.passing pass))
    (covers : Covers topic s pass) : CountsOff s pass.uid k p pass.due := by
  have covered := covers _ ⟨k,popped,rfl⟩
  obtain ⟨uid,_,ahead,due⟩ := pass
  subst popped
  cases p with
  | waiting => exact awake.elim
  | done value =>
    obtain rfl : due = .nothing := runs
    exact fun _ _ _ same => by cases same
  | raise error =>
    obtain rfl : due = .nothing := runs
    exact fun _ _ _ same => by cases same
  | command c next =>
    have may : Pass.may topic ⟨uid, some (topic_list topic k), ahead, due⟩ c := runs.1
    cases due with
    | nothing =>
      intro field value other same
      cases same
      exact may
    | access =>
      cases c <;> first | exact may.elim | skip
      obtain rfl := may
      exact ⟨_, next, rfl⟩
    | read =>
      cases c <;> first | exact may.elim | skip
      obtain rfl := Pass.counter_unique ⟨k,rfl,rfl⟩ may
      exact ⟨covered, next, rfl⟩
    | lower count =>
      cases c <;> first | exact may.elim | skip
      obtain ⟨counter,rfl⟩ := may
      obtain rfl := Pass.counter_unique ⟨k,rfl,rfl⟩ counter
      exact ⟨covered.2, covered.1, next, rfl⟩

/-- Only the owner of a key takes its messages, and each of them lowers the owner's counter,
    in every run whose commands keep to what passes need. -/
theorem exclusive_consumption
    (reach : Guarded exec (IsActor json_loads topic) (KeepsPasses topic) (fun _ => False) Store.empty pool) :
    Exclusive topic pool := by
  have owning := reach_owning reach
  have runs := reach_runs reach
  constructor
  · intro thread member u k next pass here _
    have endures := runs thread member
    obtain ⟨reply,log,started⟩ := pass
    obtain ⟨pass,role_here,same⟩ := role_started u reply log
    rw [here,started,role_here] at endures
    have may : Pass.may topic pass (.blpop (topic_list topic k)) := endures.1
    refine owning.passes thread member u k ⟨by rw [here]; rfl, pass, by rw [started,role_here], same, ?_⟩
    obtain ⟨uid,popped,ahead,due⟩ := pass
    cases due with
    | nothing =>
      obtain ⟨l,head,equal⟩ := may
      obtain rfl := topic_list_inj.mp equal
      exact List.mem_of_mem_head? head
    | _ => exact may.elim
  · intro thread member pass k here popped
    have endures := runs thread member
    rw [here] at endures
    exact counts_off popped ((reach_awake reach thread member).1 pass here) endures
      (reach_covers reach thread member pass here)

end

/-! ### A key that moves during a pass

An instance has read its key list, which holds `k`, and a message of `k` is waiting. A
second instance registers, and the next call for `k` finds the first one stale. -/

def message_waits : List ActorMove :=
  [.start (register uid_a), .start message_k, .start instance_a.poll, .start (register uid_b), .start message_k] ++
    steps 0 2 ++ steps 1 15

/-- The pass reads the list, then the key moves. -/
def moves_in_pass : List ActorMove := message_waits ++ steps 2 1 ++ steps 3 2 ++ steps 4 21

/-- Whether the pass is about to pop the list of `k`, which holds a message, while `k` is
    owned by a uid. -/
def pops_k (owner : Uid) (pool : Actors) : Bool :=
  decide (pool.store.recip_key_uid_map.lookup "k" = some owner) &&
    !(pool.store.lists (topic_list "t" "k")).isEmpty &&
    pool.threads.any (fun thread => match thread with
      | ⟨.command (.blpop list) _, ⟨.hget_recip_keys u, _⟩ :: _⟩ => list == topic_list "t" "k" && decide (u = uid_a)
      | _ => false)

theorem pops_k_pass {owner : Uid} {pool : Actors} (tested : pops_k owner pool = true) :
    pool.store.recip_key_uid_map.lookup "k" = some owner ∧ pool.store.lists (topic_list "t" "k") ≠ [] ∧
      ∃ thread ∈ pool.threads, IsPass thread uid_a ∧
        ∃ next, thread.program = .command (.blpop (topic_list "t" "k")) next := by
  simp only [pops_k,Bool.and_eq_true,decide_eq_true_eq,Bool.not_eq_true',List.isEmpty_eq_false_iff] at tested
  obtain ⟨⟨owned,waiting⟩,some_pass⟩ := tested
  obtain ⟨thread,member,here⟩ := List.any_eq_true.mp some_pass
  refine ⟨owned, waiting, thread, member, ?_⟩
  split at here
  · next list next u reply log =>
    rw [Bool.and_eq_true,beq_iff_eq,decide_eq_true_eq] at here
    obtain ⟨rfl,rfl⟩ := here
    exact ⟨⟨reply,log,rfl⟩, next, rfl⟩
  · cases here

theorem moves_in_pass_actors : ∀ p ∈ started moves_in_pass, IsActor loads_two "t" p := by
  intro p member
  simp only [moves_in_pass,message_waits,started,List.cons_append,List.nil_append,steps,List.replicate,
    List.mem_cons,List.not_mem_nil,or_false] at member
  obtain rfl | rfl | rfl | rfl | rfl := member
  · exact .registers uid_a
  · exact .produces 1 0 _
  · exact .polls instance_a rfl
  · exact .registers uid_b
  · exact .produces 1 0 _

theorem takes_moved_message :
    ∃ pool : Actors, Guarded exec (IsActor loads_two "t") unguarded (fun _ => False) Store.empty pool ∧
      ¬ Exclusive "t" pool := by
  have ran : ((⟨.empty, []⟩ : Actors).guardedMoves exec (fun _ _ _ => true) moves_in_pass).any (pops_k uid_b) = true :=
    by
    decide
  obtain ⟨pool,reach,tested⟩ := guarded_of_test (fun _ _ _ _ => trivial) moves_in_pass _ ran moves_in_pass_actors
  obtain ⟨owned,waiting,thread,member,pass,next,here⟩ := pops_k_pass tested
  refine ⟨pool, reach, fun exclusive => ?_⟩
  have owner := exclusive.pops thread member uid_a "k" next pass here waiting
  rw [owned] at owner
  exact absurd owner (by decide)

/-! ### A key that has moved

The key moves from the first instance to the second with the message that is counted for it, a
second message is counted for the new owner, and a pass of the new owner pops the first one. -/

def instance_b : RedisInboundTransport := { instance_a with plugin_uid := uid_b }

def pops_after_move : List ActorMove :=
  [.start (register uid_a), .start message_k, .start (register uid_b), .start message_k, .start instance_b.poll] ++
    steps 0 2 ++ steps 1 15 ++ steps 2 2 ++ steps 3 21 ++ steps 4 4

/-- Whether a pass of the second instance is about to lower the count of `k` from 2. -/
def lowers_moved (pool : Actors) : Bool :=
  pool.threads.any (fun thread => match role thread.log with
    | .passing pass =>
      decide (pass.uid = uid_b) && pass.popped == some (topic_list "t" "k") && decide (pass.due = .lower 2)
    | _ => false)

/-- Whether the thread is no pass with something due. -/
def rests (thread : Thread Command Command.Reply PyError Unit) : Bool :=
  match role thread.log with
  | .passing pass => decide (pass.due = .nothing)
  | _ => true

/-- A check of `KeepsPasses`: a counter is only written while no pass has something due. -/
def checks (topic : String) (pool : Actors) (i : Nat) : Command → Bool
  | .hset_uid k u =>
    pool.store.uid_recip_keys_map.keys.all (fun v => decide (v = u) || decide (k ∉ pool.store.recip_keys v)) &&
      pool.threads.all (fun thread => match role thread.log with
        | .passing pass => thread.program.finished || decide (pass.uid = u) || decide (k ∉ pass.ahead)
        | _ => true)
  | .hset_recip_keys u _ ks => decide (∀ k ∈ ks, pool.store.recip_key_uid_map.lookup k = some u)
  | .blpop list =>
    match (pool.threads[i]?).map (fun thread => role thread.log) with
    | some (.passing pass) => pass.ahead.any (fun k =>
        list == topic_list topic k && decide (1 ≤ pool.store.pending (uid_recip_key pass.uid k)))
    | _ => true
  | .hset_pending _ _ => pool.threads.all rests
  | .hdel_pending _ => pool.threads.all rests
  | .hincrby_pending _ _ => pool.threads.all rests
  | _ => true

section
variable {topic : String} {pool : Actors} {i : Nat} {c : Command}

theorem checks_owners (passed : checks topic pool i c = true) : KeepsOwners pool c := by
  cases c with
  | hset_uid k u =>
    simp only [checks,Bool.and_eq_true,List.all_eq_true] at passed
    refine ⟨fun v other listed => ?_, fun thread member v other reaches => ?_⟩
    · have there : v ∈ pool.store.uid_recip_keys_map := by
        by_contra absent
        rw [Store.recip_keys,AList.lookup_eq_none.mpr absent] at listed
        cases listed
      have fine := passed.1 v (AList.mem_keys.mp there)
      simp [other,listed] at fine
    · obtain ⟨running,pass,here,rfl,listed⟩ := reaches
      have fine := passed.2 thread member
      rw [here] at fine
      simp [running,other,listed] at fine
  | hset_recip_keys u change ks =>
    rw [checks,decide_eq_true_eq] at passed
    exact passed
  | _ => trivial

theorem checks_counted (passed : checks topic pool i c = true) {thread : Thread Command Command.Reply PyError Unit}
    {pass : Pass} {k : RecipKey} (found : pool.threads[i]? = some thread) (here : role thread.log = .passing pass)
    (pops : c = .blpop (topic_list topic k)) : 1 ≤ pool.store.pending (uid_recip_key pass.uid k) := by
  subst pops
  simp only [checks,found,here,Option.map_some,List.any_eq_true,Bool.and_eq_true,beq_iff_eq,decide_eq_true_eq] at passed
  obtain ⟨l,_,same,counted⟩ := passed
  obtain rfl := topic_list_inj.mp same
  exact counted

theorem rests_due (resting : pool.threads.all rests = true) {thread : Thread Command Command.Reply PyError Unit}
    {pass : Pass} (member : thread ∈ pool.threads) (here : role thread.log = .passing pass) : pass.due = .nothing := by
  have fine := List.all_eq_true.mp resting thread member
  rw [rests,here,decide_eq_true_eq] at fine
  exact fine

theorem checks_sound (passed : checks topic pool i c = true) : KeepsPasses topic pool i c := by
  refine ⟨checks_owners passed, fun thread pass k _ _ found here pops _ => checks_counted passed found here pops, ?_⟩
  intro j thread pass _ found here
  have member := List.mem_of_getElem? found
  cases c with
  | hset_pending field value => exact fun _ => rests_due passed member here
  | hdel_pending field => exact fun _ => rests_due passed member here
  | hincrby_pending field amount =>
    intro _ count lowering
    rw [rests_due passed member here] at lowering
    cases lowering
  | _ => trivial

end

theorem pops_after_move_actors : ∀ p ∈ started pops_after_move, IsActor loads_two "t" p := by
  intro p member
  simp only [pops_after_move,started,List.cons_append,List.nil_append,steps,List.replicate,
    List.mem_cons,List.not_mem_nil,or_false] at member
  obtain rfl | rfl | rfl | rfl | rfl := member
  · exact .registers uid_a
  · exact .produces 1 0 _
  · exact .registers uid_b
  · exact .produces 1 0 _
  · exact .polls instance_b rfl

theorem exclusive_after_move : ∃ pool : Actors,
    Guarded exec (IsActor loads_two "t") (KeepsPasses "t") (fun _ => False) Store.empty pool ∧
      lowers_moved pool = true ∧ Exclusive "t" pool := by
  have ran : ((⟨.empty, []⟩ : Actors).guardedMoves exec (checks "t") pops_after_move).any lowers_moved = true :=
    by decide
  obtain ⟨pool,reach,tested⟩ := guarded_of_test (fun _ _ _ passed => checks_sound passed) pops_after_move _ ran
    pops_after_move_actors
  exact ⟨pool, reach, tested, exclusive_consumption reach⟩

end AcapyRedis.Consumption
