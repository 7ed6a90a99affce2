import AcapyRedis.Threads
import AcapyRedis.Evacuation

/-!
Which registered uids stay in `uid_recip_keys_map`. Registrations, calls, pushes of
what the calls returned and passes follow one another in any order, so that the
counters may differ from the queues (`Turn`). A call takes the uid that it finds or
chooses out of the map exactly when the uid is stale, with a pending message and with
another uid to move its keys to (`call_evicts_iff`); a uid that no call meets like this
stays.
-/
namespace AcapyRedis.Eviction
open AcapyRedis.Programs AcapyRedis.Programs.Program AcapyRedis.Python AcapyRedis.RedisStore AcapyRedis.Utils
open AcapyRedis.Threads AcapyRedis.Threads.Discipline AcapyRedis.Inbound AcapyRedis.Sharding AcapyRedis.Sequential
open AcapyRedis.RoundRobin AcapyRedis.Evacuation

/-- The call gets `v` as the owner of its key: it finds it, or chooses it for a key without one. -/
def Gets (json_loads : Bytes ⊕ Text → Except PyError Json) (patience : Nat) (payload : Bytes) (s : Store)
    (log : List (Event Command Command.Reply)) (v : Uid) : Prop :=
  ∃ k first s₁, recip_key_of json_loads payload = .ok k ∧ first <+: log ∧
    Runs exec (find_or_assign (patience+1) k) s first (.ok v) s₁

/-- One step without errors of Redis. A call that gets a uid at the clock reading `now` is
    only made in a state that `spares` admits. -/
inductive Turn (json_loads : Bytes ⊕ Text → Except PyError Json) (spares : Int → Uid → Store → Prop) :
    System → System → Prop
  | register {sys uid log outcome s'} : uid ∉ sys.registered →
      Runs exec (register uid) sys.redis log outcome s' →
      Turn json_loads spares sys ⟨s', uid :: sys.registered, uid :: sys.running⟩
  | call {sys patience now payload topic log outcome s'} : sys.registered ≠ [] →
      (∀ v, Gets json_loads patience payload sys.redis log v → spares now v sys.redis) →
      Runs exec (process_payload_recip_key json_loads (patience+1) now payload topic) sys.redis log outcome s' →
      Turn json_loads spares sys { sys with redis := s' }
  | push {sys list message log outcome s'} : Runs exec (redis (.rpush list message)) sys.redis log outcome s' →
      Turn json_loads spares sys { sys with redis := s' }
  | poll {sys log outcome s'} (self : RedisInboundTransport) : self.plugin_uid ∈ sys.running →
      Runs exec self.poll sys.redis log outcome s' →
      Turn json_loads spares sys ⟨s', sys.registered, still_running sys.running self.plugin_uid outcome⟩

/-- Some finite sequence of steps leads from an empty Redis to the system. -/
def Reached (json_loads : Bytes ⊕ Text → Except PyError Json) (spares : Int → Uid → Store → Prop)
    (sys : System) : Prop := Relation.ReflTransGen (Turn json_loads spares) .empty sys

/-- A call that gets the uid `v` gives up `u`: it got `u`, which counts as stale, one of
    the keys of `u` has a pending message and another uid is in the map. -/
def Meets (u : Uid) (now : Int) (v : Uid) (s : Store) : Prop :=
  v = u ∧ stale_uid_check now (s.uid_last_access_map.lookup u) = true ∧ gives_up s u = true

instance (u : Uid) (now : Int) (v : Uid) (s : Store) : Decidable (Meets u now v s) :=
  inferInstanceAs (Decidable (_ ∧ _ ∧ _))

/-! ### Passes -/

/-- The commands of a pass; none of them writes a key list or an owner. -/
def OfPass : Command → Prop
  | .hget_recip_keys _ => True
  | .blpop _ => True
  | .hset_last_access _ _ => True
  | .hget_pending _ => True
  | .hset_pending _ _ => True
  | .rpush _ _ => True
  | _ => False

theorem pass_frame (c : Command) (choice : Choice) (s : Store) (pass : OfPass c) :
    ((exec c choice s).2.uid_recip_keys_map, (exec c choice s).2.recip_key_uid_map) =
      (s.uid_recip_keys_map, s.recip_key_uid_map) := by
  cases c <;> first | rfl | exact pass.elim

theorem pass_iterator (c : Command) (choice : Choice) (s : Store) (pass : OfPass c) :
    iterator (exec c choice s).2 = iterator s := by
  cases c <;> first | rfl | exact pass.elim

theorem receive_issues (self : RedisInboundTransport) (payload : Bytes) (txn_id : Option Text) :
    Issues OfPass (self.receive payload txn_id) := by
  refine RedisInboundTransport.receive_cases ?_ ?_ ?_ payload txn_id
  · trivial
  · exact fun _ => trivial
  · exact fun _ => ⟨trivial, fun _ _ => trivial⟩

theorem pop_message_issues (list : String) (tries : Nat) : Issues OfPass (pop_message list tries) := by
  cases tries with
  | zero => trivial
  | succ tries => exact ⟨trivial, fun _ _ => trivial⟩

theorem poll_key_issues (self : RedisInboundTransport) (k : RecipKey) : Issues OfPass (self.poll_key k) := by
  rw [RedisInboundTransport.poll_key]
  refine issues_bind (pop_message_issues _ _) (fun popped => ?_)
  rcases popped with _ | ⟨payload,txn_id⟩ | ⟨_,_,_⟩ | error
  · trivial
  · have received := receive_issues self payload txn_id
    refine issues_bind (issues_call trivial) (fun _ => issues_bind (issues_call trivial) (fun count => ?_))
    cases count with
    | none => exact received
    | some count =>
      show Issues OfPass (if 1 ≤ count then _ else _)
      split
      · exact issues_bind (issues_call trivial) (fun _ => received)
      · exact received
  · trivial
  · cases error <;> trivial

theorem poll_keys_issues (self : RedisInboundTransport) (ks : List RecipKey) : Issues OfPass (self.poll_keys ks) := by
  induction ks with
  | nil => trivial
  | cons k rest ih => exact issues_bind (poll_key_issues self k) (fun _ => ih)

theorem poll_issues (self : RedisInboundTransport) : Issues OfPass self.poll := by
  refine ⟨trivial, ?_⟩
  intro listed _
  cases listed with
  | none => trivial
  | some ks => exact poll_keys_issues self ks

/-- A pass, whatever the lists hold, writes neither a key list nor an owner. -/
theorem poll_keeps {self : RedisInboundTransport} {s s' : Store} {log : List (Event Command Command.Reply)}
    {outcome : Except PyError Unit} (run : Runs exec self.poll s log outcome s') :
    s'.uid_recip_keys_map = s.uid_recip_keys_map ∧ s'.recip_key_uid_map = s.recip_key_uid_map := by
  have same := (poll_issues self).frame (fun s => (s.uid_recip_keys_map, s.recip_key_uid_map)) pass_frame run
  exact ⟨congrArg Prod.fst same, congrArg Prod.snd same⟩

/-! ### Calls -/

/-- A call takes the uid that it gets out of the map exactly when it gives it up, and no other. -/
theorem call_evicts_iff {json_loads : Bytes ⊕ Text → Except PyError Json} {patience : Nat} {now : Int}
    {payload : Bytes} {topic : String} {s s' : Store} {log : List (Event Command Command.Reply)}
    {outcome : Except PyError (String × Entry)} (inv : Listed s) {k : RecipKey}
    (key : recip_key_of json_loads payload = .ok k)
    (run : Runs exec (process_payload_recip_key json_loads (patience+1) now payload topic) s log outcome s') :
    ∃ v, Gets json_loads patience payload s log v ∧
      ∀ u ∈ s.uid_recip_keys_map, u ∉ s'.uid_recip_keys_map ↔ Meets u now v s := by
  obtain ⟨v,s₁,first,later,split,first_run,found,count_run⟩ := call_parts inv key run
  refine ⟨v, ⟨k, first, s₁, key, ⟨later, split.symm⟩, first_run⟩, fun u there => ?_⟩
  rw [count_for_uids found.listed found.owner count_run u,found.uids,found.queues.accesses,found.givesUp]
  constructor
  · intro gone
    by_contra spared
    refine gone ⟨there, ?_⟩
    rintro ⟨rfl,stale,given⟩
    exact spared ⟨rfl,stale,given⟩
  · rintro ⟨rfl,stale,given⟩ ⟨_,kept⟩
    exact kept ⟨rfl,stale,given⟩

/-- `s'` comes from `s` by a call: the lists are in step with the owners, some uid is
    left in the map, and none was put into it. -/
structure Called (s s' : Store) : Prop where
  listed : Listed s'
  remains : s'.uid_recip_keys_map.keys ≠ []
  fewer : ∀ u ∈ s'.uid_recip_keys_map, u ∈ s.uid_recip_keys_map

theorem call_remains {json_loads : Bytes ⊕ Text → Except PyError Json} {patience : Nat} {now : Int}
    {payload : Bytes} {topic : String} {s s' : Store} {log : List (Event Command Command.Reply)}
    {outcome : Except PyError (String × Entry)} (inv : Listed s) (some_uid : s.uid_recip_keys_map.keys ≠ [])
    (run : Runs exec (process_payload_recip_key json_loads (patience+1) now payload topic) s log outcome s') :
    Called s s' := by
  suffices ends : Ends exec (fun _ s' => Called s s')
      (process_payload_recip_key json_loads (patience+1) now payload topic) s from ends.post_of_runs run
  apply process_payload_ends patience now payload inv some_uid
  · exact fun _ _ => ⟨inv, some_uid, fun _ there => there⟩
  · intro k u s' key located
    have remains := located_remains located some_uid
    obtain ⟨v,_,found,uids⟩ := located.uids
    exact ⟨⟨located.listed.distinct, located.listed.listed⟩, remains, fun w there => ((uids w).mp there).1⟩

/-- A uid that a call does not give up stays. -/
theorem call_spares {json_loads : Bytes ⊕ Text → Except PyError Json} {patience : Nat} {now : Int}
    {payload : Bytes} {topic : String} {s s' : Store} {log : List (Event Command Command.Reply)}
    {outcome : Except PyError (String × Entry)} (inv : Listed s)
    (run : Runs exec (process_payload_recip_key json_loads (patience+1) now payload topic) s log outcome s') {u : Uid}
    (there : u ∈ s.uid_recip_keys_map)
    (spared : ∀ v, Gets json_loads patience payload s log v → ¬ Meets u now v s) : u ∈ s'.uid_recip_keys_map := by
  cases key : recip_key_of json_loads payload with
  | error error =>
    rw [process_payload_recip_key,key] at run
    cases run
    exact there
  | ok k =>
    obtain ⟨v,gets,evicts⟩ := call_evicts_iff inv key run
    exact not_not.mp (fun gone => spared v gets ((evicts u there).mp gone))

/-! ### Whole runs -/

/-- The lists are in step with the owners, and every uid of the map and every running one
    has registered. -/
structure Orderly (sys : System) : Prop where
  listed : Listed sys.redis
  registered : ∀ v ∈ sys.redis.uid_recip_keys_map, v ∈ sys.registered
  running : ∀ v ∈ sys.running, v ∈ sys.registered
  remains : sys.registered ≠ [] → sys.redis.uid_recip_keys_map.keys ≠ []

/-- Moreover the uid `u` is in the map if it has registered. -/
structure Standing (u : Uid) (sys : System) : Prop extends Orderly sys where
  stays : u ∈ sys.registered → u ∈ sys.redis.uid_recip_keys_map

section
variable {json_loads : Bytes ⊕ Text → Except PyError Json} {spares : Int → Uid → Store → Prop} {sys sys' : System}

theorem turn_orderly (inv : Orderly sys) (turn : Turn json_loads spares sys sys') : Orderly sys' := by
  cases turn with
  | @register uid _ _ s' fresh run =>
    have ends : Ends exec (fun _ s' => s' = registered sys.redis uid) (register uid) sys.redis := register_ends rfl
    obtain rfl := ends.post_of_runs run
    refine ⟨registered_listed inv.listed (fun there => fresh (inv.registered uid there)), ?_, ?_, ?_⟩
    · intro v there
      rcases AList.mem_insert _ |>.mp there with rfl | old
      · exact List.mem_cons_self
      · exact List.mem_cons_of_mem _ (inv.registered v old)
    · intro v runs
      rcases List.mem_cons.mp runs with rfl | old
      · exact List.mem_cons_self
      · exact List.mem_cons_of_mem _ (inv.running v old)
    · intro _
      exact List.ne_nil_of_mem (AList.mem_keys.mp ((AList.mem_insert _).mpr (.inl rfl)))
  | call some_registered spared run =>
    have called := call_remains inv.listed (inv.remains some_registered) run
    exact ⟨called.listed, fun v there => inv.registered v (called.fewer v there), inv.running, fun _ => called.remains⟩
  | push run =>
    cases run with
    | command _ rest =>
      cases rest
      exact ⟨⟨inv.listed.distinct, inv.listed.listed⟩, inv.registered, inv.running, inv.remains⟩
  | @poll _ outcome s' self member run =>
    obtain ⟨lists,owners⟩ := poll_keeps run
    refine ⟨⟨fun v => ?_, fun k v => ?_⟩, fun v there => inv.registered v (lists ▸ there), fun v runs => ?_, ?_⟩
    · rw [Store.recip_keys,lists]; exact inv.listed.distinct v
    · rw [Store.recip_keys,lists,owners]; exact inv.listed.listed k v
    · cases outcome with
      | ok _ => exact inv.running v runs
      | error _ => exact inv.running v (List.mem_of_mem_erase runs)
    · show _ → s'.uid_recip_keys_map.keys ≠ []
      rw [lists]
      exact inv.remains

theorem turn_nonneg (inv : Orderly sys) (nonneg : 0 ≤ iterator sys.redis) (turn : Turn json_loads spares sys sys') :
    0 ≤ iterator sys'.redis := by
  cases turn with
  | @register uid _ _ s' fresh run =>
    have ends : Ends exec (fun _ s' => s' = registered sys.redis uid) (register uid) sys.redis := register_ends rfl
    obtain rfl := ends.post_of_runs run
    exact nonneg
  | call some_registered spared run => exact call_nonneg inv.listed nonneg run
  | push run =>
    cases run with
    | command _ rest =>
      cases rest
      exact nonneg
  | poll self member run =>
    have same := (poll_issues self).frame iterator pass_iterator run
    exact same ▸ nonneg

theorem empty_orderly : Orderly .empty := by
  have empty := empty_consistent ""
  exact ⟨empty.sharded.toListed, empty.registered, fun _ runs => absurd runs List.not_mem_nil, empty.remains⟩

/-- In every state of a run the lists are in step with the owners and the iterator is not
    negative. -/
theorem reached_orderly (reached : Reached json_loads spares sys) : Orderly sys ∧ 0 ≤ iterator sys.redis := by
  induction reached with
  | refl => exact ⟨empty_orderly, le_refl _⟩
  | tail _ turn ih => exact ⟨turn_orderly ih.1 turn, turn_nonneg ih.1 ih.2 turn⟩

end

theorem turn_standing {json_loads : Bytes ⊕ Text → Except PyError Json} {u : Uid} {sys sys' : System}
    (inv : Standing u sys) (turn : Turn json_loads (fun now v s => ¬ Meets u now v s) sys sys') :
    Standing u sys' := by
  refine ⟨turn_orderly inv.toOrderly turn, ?_⟩
  cases turn with
  | @register uid _ _ s' fresh run =>
    have ends : Ends exec (fun _ s' => s' = registered sys.redis uid) (register uid) sys.redis := register_ends rfl
    obtain rfl := ends.post_of_runs run
    intro member
    refine (AList.mem_insert _).mpr ?_
    rcases List.mem_cons.mp member with here | old
    · exact .inl here
    · exact .inr (inv.stays old)
  | call some_registered spared run =>
    exact fun member => call_spares inv.listed run (inv.stays member) spared
  | push run =>
    cases run with
    | command _ rest =>
      cases rest
      exact inv.stays
  | @poll _ outcome s' self member run =>
    obtain ⟨lists,_⟩ := poll_keeps run
    show _ → u ∈ s'.uid_recip_keys_map
    rw [lists]
    exact inv.stays

theorem reached_standing {json_loads : Bytes ⊕ Text → Except PyError Json} {u : Uid} {sys : System}
    (reached : Reached json_loads (fun now v s => ¬ Meets u now v s) sys) : Standing u sys := by
  induction reached with
  | refl => exact ⟨empty_orderly, fun member => absurd member List.not_mem_nil⟩
  | tail _ turn ih => exact turn_standing ih turn

/-- In every run in which no call gets a uid that is stale, with a pending message and with
    another uid in the map, the uid stays in the map as long as its loop runs. -/
theorem running_uid_stays {json_loads : Bytes ⊕ Text → Except PyError Json} {u : Uid} {sys : System}
    (reached : Reached json_loads (fun now v s => ¬ Meets u now v s) sys) (running : u ∈ sys.running) :
    u ∈ sys.redis.uid_recip_keys_map :=
  have inv := reached_standing reached
  inv.stays (inv.running u running)

/-! ### An idle instance

Two instances register, `b` gets the key `k` and handles one message at time 0. -/

def instance_b : RedisInboundTransport := ⟨uid_b, "t", "d", false, fun _ => .ok none, fun _ => 0⟩
def two_registered : Store := registered (registered .empty uid_a) uid_b

/-- The store that a call for the key `k` leaves. -/
def called (s : Store) (now : Int) : Store :=
  ((process_payload_recip_key loads_two 1 now (packed protected_k) "t").leaves exec s).1

def pushed (s : Store) : Store :=
  ((redis (.rpush (topic_list "t" "k") (.inbound (packed protected_k) none))).leaves exec s).1

/-- The store after `b` handled its first message. -/
def delivered : Store := (instance_b.poll.leaves exec (pushed (called two_registered 0))).1

theorem two_registered_reached {json_loads : Bytes ⊕ Text → Except PyError Json} {spares : Int → Uid → Store → Prop} :
    Reached json_loads spares ⟨two_registered, [uid_b,uid_a], [uid_b,uid_a]⟩ := by
  have first : Turn json_loads spares .empty ⟨registered .empty uid_a, [uid_a], [uid_a]⟩ :=
    .register List.not_mem_nil (register_runs _ _)
  have second : Turn json_loads spares ⟨registered .empty uid_a, [uid_a], [uid_a]⟩
      ⟨two_registered, [uid_b,uid_a], [uid_b,uid_a]⟩ := .register (by decide) (register_runs _ _)
  exact (Relation.ReflTransGen.single first).tail second

theorem called_turn {spares : Int → Uid → Store → Prop} {s : Store} {now : Int} {uids : List Uid}
    (admitted : ∀ v, spares now v s) (some_registered : uids ≠ [])
    (ended : ((process_payload_recip_key loads_two 1 now (packed protected_k) "t").leaves exec s).2 =
      some (.ok (topic_list "t" "k", .inbound (packed protected_k) none))) :
    Turn loads_two spares ⟨s, uids, uids⟩ ⟨called s now, uids, uids⟩ := by
  obtain ⟨_,run⟩ := leaves_runs ended
  exact .call some_registered (fun v _ => admitted v) run

theorem delivered_reached {spares : Int → Uid → Store → Prop} (admitted : ∀ v, spares 0 v two_registered) :
    Reached loads_two spares ⟨delivered, [uid_b,uid_a], [uid_b,uid_a]⟩ := by
  have third : Turn loads_two spares ⟨two_registered, [uid_b,uid_a], [uid_b,uid_a]⟩
      ⟨called two_registered 0, [uid_b,uid_a], [uid_b,uid_a]⟩ := called_turn admitted (by simp) rfl
  have fourth : Turn loads_two spares ⟨called two_registered 0, [uid_b,uid_a], [uid_b,uid_a]⟩
      ⟨pushed (called two_registered 0), [uid_b,uid_a], [uid_b,uid_a]⟩ := .push (.command default .done)
  have ended : (instance_b.poll.leaves exec (pushed (called two_registered 0))).2 = some (.ok ()) := rfl
  obtain ⟨_,run⟩ := leaves_runs ended
  have fifth : Turn loads_two spares ⟨pushed (called two_registered 0), [uid_b,uid_a], [uid_b,uid_a]⟩
      ⟨delivered, [uid_b,uid_a], still_running [uid_b,uid_a] uid_b (.ok ())⟩ :=
    .poll instance_b List.mem_cons_self run
  exact ((two_registered_reached.tail third).tail fourth).tail fifth

theorem running_uid_stays_delivered : uid_b ∈ delivered.uid_recip_keys_map :=
  running_uid_stays (delivered_reached (fun v meets => absurd meets.2.2 (by decide))) List.mem_cons_self

/-- Two messages for the idle instance, which last handled one 100 seconds before,
    take the uid of its running loop out of the map. -/
theorem idle_uid_evicted :
    Reached loads_two (fun _ _ _ => True) ⟨called (called delivered 100) 100, [uid_b,uid_a], [uid_b,uid_a]⟩ ∧
    uid_b ∈ [uid_b,uid_a] ∧ uid_b ∉ (called (called delivered 100) 100).uid_recip_keys_map := by
  refine ⟨?_, List.mem_cons_self, by decide⟩
  have reached : Reached loads_two (fun _ _ _ => True) ⟨delivered, [uid_b,uid_a], [uid_b,uid_a]⟩ :=
    delivered_reached (fun _ => trivial)
  have burst : Reached loads_two (fun _ _ _ => True) ⟨called delivered 100, [uid_b,uid_a], [uid_b,uid_a]⟩ :=
    reached.tail (called_turn (fun _ => trivial) (by simp) rfl)
  exact burst.tail (called_turn (fun _ => trivial) (by simp) rfl)

end AcapyRedis.Eviction
