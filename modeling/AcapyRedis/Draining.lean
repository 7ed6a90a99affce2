import AcapyRedis.Sequential

/-!
What the passes of the instances do to the queues of a sequential run. A pass takes exactly the
first message of each key of its uid (`poll_takes`), so after any passes in any order the queue
of a key has lost as many messages as its owner made passes, and its counter says how many are
left; no message is stuck once the owners have passed often enough (`passes_drain`).
-/
namespace AcapyRedis.Draining
open AcapyRedis.Programs AcapyRedis.Programs.Program AcapyRedis.Python AcapyRedis.RedisStore AcapyRedis.Utils
open AcapyRedis.Inbound AcapyRedis.Sharding AcapyRedis.Sequential

/-- An instance of the topic. Its sessions raise only what `start` catches. -/
structure Serves (topic : String) (transport : RedisInboundTransport) : Prop where
  topic : transport.inbound_topic = topic
  calm : ∀ payload error, transport.session payload = .error error →
    error = .MessageParseError ∨ error = .WireFormatParseError

/-- `s'` comes from `s` by handling the first message of each of some keys. -/
structure Takes (topic : String) (keys : RecipKey → Prop) (s s' : Store) : Prop extends Drained topic s s' where
  taken : ∀ k, keys k → s'.lists (topic_list topic k) = (s.lists (topic_list topic k)).tail
  left : ∀ k, ¬ keys k → s'.lists (topic_list topic k) = s.lists (topic_list topic k)

section
variable {topic : String} {post : Except PyError Unit → Store → Prop} {self : RedisInboundTransport} {s : Store}

theorem receive_calm (serves : Serves topic self) (payload : Bytes) (ends : post (.ok ()) s) :
    Ends exec post (self.receive payload none) s := by
  rw [RedisInboundTransport.receive]
  cases answer : self.session payload with
  | ok response => exact ends
  | error error =>
    rcases serves.calm payload error answer with rfl | rfl
    · exact ends
    · exact ends

theorem poll_key_takes (serves : Serves topic self) (inv : Sharded topic s) {k : RecipKey}
    (owner : s.recip_key_uid_map.lookup k = some self.plugin_uid)
    (ends : ∀ s', Takes topic (· = k) s s' → post (.ok ()) s') : Ends exec post (self.poll_key k) s := by
  rw [RedisInboundTransport.poll_key,serves.topic,ends_bind,pop_message_ends]
  cases queue : s.lists (topic_list topic k) with
  | nil =>
    have same : Function.update s.lists (topic_list topic k) [] = s.lists := by rw [← queue,Function.update_eq_self]
    have takes : Takes topic (· = k) s s := by
      refine ⟨⟨inv,rfl,rfl⟩,?_,fun _ _ => rfl⟩
      rintro _ rfl
      rw [queue]
      rfl
    simpa [same] using ends s takes
  | cons first rest =>
    obtain ⟨payload,record⟩ := inv.records k first (by simp [queue])
    subst record
    have count := inv.counted k _ owner
    rw [queue] at count
    have positive : (1 : Int) ≤ ((Entry.inbound payload none :: rest).length : Int) := by
      rw [List.length_cons]; omega
    have left : ((Entry.inbound payload none :: rest).length : Int) - 1 = rest.length := by
      rw [List.length_cons]; omega
    simp only [List.head?_cons,List.tail_cons,continues_ok,Program.call,ends_bind,ends_command,ends_done,exec,count,
      positive,left,↓reduceIte]
    intro _ _ _
    refine receive_calm serves payload (ends _ ⟨dequeued_drained inv _ owner queue,?_,?_⟩)
    · rintro _ rfl
      rw [queue]
      exact Function.update_self _ _ _
    · intro l other
      exact Function.update_of_ne (fun same => other (topic_list_inj.mp same)) _ _

theorem poll_keys_takes (serves : Serves topic self) (ks : List RecipKey) (distinct : ks.Nodup) :
    ∀ s : Store, Sharded topic s → (∀ k ∈ ks, s.recip_key_uid_map.lookup k = some self.plugin_uid) →
      (∀ s', Takes topic (· ∈ ks) s s' → post (.ok ()) s') → Ends exec post (self.poll_keys ks) s := by
  induction ks with
  | nil =>
    intro s inv _ ends
    exact ends s ⟨⟨inv,rfl,rfl⟩,fun _ member => absurd member List.not_mem_nil,fun _ _ => rfl⟩
  | cons k rest ih =>
    obtain ⟨fresh,distinct⟩ := List.nodup_cons.mp distinct
    intro s inv owned ends
    rw [RedisInboundTransport.poll_keys,ends_bind]
    refine poll_key_takes serves inv (owned k List.mem_cons_self) (fun s' first => ?_)
    refine ih distinct s' first.sharded (fun l member => ?_) (fun s'' second => ends s'' ⟨⟨second.sharded,?_,?_⟩,?_,?_⟩)
    · rw [first.owners]
      exact owned l (List.mem_cons_of_mem k member)
    · exact second.lists.trans first.lists
    · exact second.owners.trans first.owners
    · intro l member
      by_cases same : l = k
      · subst same
        rw [second.left l fresh,first.taken l rfl]
      · have later : l ∈ rest := (List.mem_cons.mp member).resolve_left same
        rw [second.taken l later,first.left l same]
    · intro l absent
      rw [second.left l (fun later => absent (List.mem_cons_of_mem k later)),
        first.left l (fun same => absent (same ▸ List.mem_cons_self))]

/-- A pass takes the first message of each key of its uid, and of no other key. -/
theorem poll_takes (serves : Serves topic self) (inv : Sharded topic s)
    (ends : ∀ s', Takes topic (fun k => s.recip_key_uid_map.lookup k = some self.plugin_uid) s s' → post (.ok ()) s') :
    Ends exec post self.poll s := by
  simp only [RedisInboundTransport.poll,Program.call,Program.attempt,ends_bind,ends_command,ends_done,continues_ok,
    exec]
  intro _
  have owned : ∀ k, k ∈ s.recip_keys self.plugin_uid ↔ s.recip_key_uid_map.lookup k = some self.plugin_uid :=
    fun k => inv.listed k self.plugin_uid
  have distinct := inv.distinct self.plugin_uid
  cases listed : s.uid_recip_keys_map.lookup self.plugin_uid with
  | none =>
    refine ends s ⟨⟨inv,rfl,rfl⟩,fun k owner => ?_,fun _ _ => rfl⟩
    have member := (owned k).mpr owner
    rw [Store.recip_keys,listed] at member
    exact absurd member List.not_mem_nil
  | some ks =>
    have same : s.recip_keys self.plugin_uid = ks := by
      rw [Store.recip_keys,listed]
      rfl
    rw [same] at distinct owned
    refine poll_keys_takes serves ks distinct s inv (fun k member => (owned k).mp member) (fun s' takes => ends s' ?_)
    exact ⟨takes.toDrained,fun k owner => takes.taken k ((owned k).mpr owner),
      fun k other => takes.left k (fun member => other ((owned k).mp member))⟩

end

/-! ### Passes that follow one another -/

/-- Passes of instances, one after the other. -/
def passes : List RedisInboundTransport → Redis Unit
  | [] => return
  | self :: later => do
    self.poll
    passes later

/-- How many of the passes are those of a uid. -/
def turns (uid : Uid) (schedule : List RedisInboundTransport) : Nat :=
  schedule.countP (fun self => self.plugin_uid = uid)

/-- What the passes leave of the queues. -/
structure Served (topic : String) (schedule : List RedisInboundTransport) (s s' : Store) : Prop where
  sharded : Sharded topic s'
  owners : s'.recip_key_uid_map = s.recip_key_uid_map
  queues : ∀ k u, s.recip_key_uid_map.lookup k = some u →
    s'.lists (topic_list topic k) = (s.lists (topic_list topic k)).drop (turns u schedule)

/-- A pass comes before the others. -/
theorem served_cons {topic : String} {self : RedisInboundTransport} {later : List RedisInboundTransport} {s s' s'' : Store}
    (first : Takes topic (fun k => s.recip_key_uid_map.lookup k = some self.plugin_uid) s s')
    (rest : Served topic later s' s'') : Served topic (self :: later) s s'' where
  sharded := rest.sharded
  owners := rest.owners.trans first.owners
  queues k u owner := by
    have owner' : s'.recip_key_uid_map.lookup k = some u := by rw [first.owners,owner]
    rw [rest.queues k u owner']
    by_cases here : self.plugin_uid = u
    · have counted : turns u (self :: later) = turns u later + 1 := by simp [turns,here]
      rw [first.taken k (here ▸ owner),counted,List.drop_tail]
    · have counted : turns u (self :: later) = turns u later := by simp [turns,here]
      have other : ¬ s.recip_key_uid_map.lookup k = some self.plugin_uid :=
        fun same => here (Option.some.inj (same.symm.trans owner))
      rw [first.left k other,counted]

theorem passes_serve {topic : String} {post : Except PyError Unit → Store → Prop} (schedule : List RedisInboundTransport)
    (serves : ∀ self ∈ schedule, Serves topic self) :
    ∀ s : Store, Sharded topic s → (∀ s', Served topic schedule s s' → post (.ok ()) s') →
      Ends exec post (passes schedule) s := by
  induction schedule with
  | nil =>
    intro s inv ends
    exact ends s ⟨inv,rfl,fun _ _ _ => rfl⟩
  | cons self later ih =>
    intro s inv ends
    rw [passes,ends_bind]
    refine poll_takes (serves self List.mem_cons_self) inv (fun s' first => ?_)
    exact ih (fun other member => serves other (List.mem_cons_of_mem _ member)) s' first.sharded
      (fun s'' rest => ends s'' (served_cons first rest))

/-- In a state that a sequential run reaches, any passes of instances in any order end well. Each
    queue loses from its head as many messages as its owner has turns, and the counter of the
    owner says how many are left. With enough turns nothing waits and nothing is counted. -/
theorem passes_drain {json_loads : Bytes ⊕ Text → Except PyError Json} {topic : String} {sys : System}
    (reachable : Reachable json_loads topic sys) (schedule : List RedisInboundTransport)
    (serves : ∀ self ∈ schedule, Serves topic self) :
    (∃ log s', Runs exec (passes schedule) sys.redis log (.ok ()) s') ∧
    ∀ log outcome s', Runs exec (passes schedule) sys.redis log outcome s' → outcome = .ok () ∧
      (∀ k u, sys.redis.recip_key_uid_map.lookup k = some u →
        s'.lists (topic_list topic k) = (sys.redis.lists (topic_list topic k)).drop (turns u schedule) ∧
        s'.uid_recip_key_pending_msg_count.lookup (uid_recip_key u k) =
          some (((sys.redis.lists (topic_list topic k)).length - turns u schedule : Nat) : Int)) ∧
      ((∀ k u, sys.redis.recip_key_uid_map.lookup k = some u →
          (sys.redis.lists (topic_list topic k)).length ≤ turns u schedule) →
        ∀ k, s'.lists (topic_list topic k) = [] ∧ ∀ u, s'.pending (uid_recip_key u k) = 0) := by
  have inv := (reachable_consistent reachable).sharded
  have ends : Ends exec (fun outcome s' => outcome = .ok () ∧ Served topic schedule sys.redis s') (passes schedule)
      sys.redis := passes_serve schedule serves sys.redis inv (fun _ served => ⟨rfl,served⟩)
  constructor
  · obtain ⟨log,outcome,s',run⟩ := ends.runs
    obtain ⟨rfl,_⟩ := ends.post_of_runs run
    exact ⟨log,s',run⟩
  · intro log outcome s' run
    obtain ⟨returned,served⟩ := ends.post_of_runs run
    have counted : ∀ k u, sys.redis.recip_key_uid_map.lookup k = some u →
        s'.uid_recip_key_pending_msg_count.lookup (uid_recip_key u k) =
          some (((sys.redis.lists (topic_list topic k)).length - turns u schedule : Nat) : Int) := by
      intro k u owner
      rw [served.sharded.counted k u (by rw [served.owners,owner]),served.queues k u owner,List.length_drop]
    refine ⟨returned,fun k u owner => ⟨served.queues k u owner,counted k u owner⟩,fun enough k => ?_⟩
    cases owner : sys.redis.recip_key_uid_map.lookup k with
    | none =>
      have owner' : s'.recip_key_uid_map.lookup k = none := by rw [served.owners,owner]
      refine ⟨served.sharded.unowned k owner',fun u => ?_⟩
      rw [Store.pending,served.sharded.uncounted k u (by simp [owner'])]
      rfl
    | some v =>
      refine ⟨?_,fun u => ?_⟩
      · rw [served.queues k v owner,List.drop_eq_nil_of_le (enough k v owner)]
      · by_cases same : u = v
        · subst same
          rw [Store.pending,counted k u owner,Nat.sub_eq_zero_of_le (enough k u owner)]
          rfl
        · have other : s'.recip_key_uid_map.lookup k ≠ some u := by
            rw [served.owners,owner]
            exact fun found => same (Option.some.inj found).symm
          rw [Store.pending,served.sharded.uncounted k u other]
          rfl

def transport_a : RedisInboundTransport := ⟨uid_a, "t", "d", false, fun _ => .ok none, fun _ => 0⟩

theorem transport_a_serves : ∀ self ∈ [transport_a], Serves "t" self := by
  intro self member
  rw [List.mem_singleton.mp member]
  exact ⟨rfl,fun _ _ raised => by cases raised⟩

theorem one_message_owner {k : RecipKey} {u : Uid} (owner : one_message.redis.recip_key_uid_map.lookup k = some u) :
    k = "k" ∧ u = uid_a := by
  have keys : one_message.redis.recip_key_uid_map.keys = ["k"] := by decide
  have there : k ∈ one_message.redis.recip_key_uid_map := by
    rw [← AList.lookup_isSome,owner]
    rfl
  have same : k = "k" := by
    rw [AList.mem_keys,keys] at there
    exact List.mem_singleton.mp there
  subst same
  have found : one_message.redis.recip_key_uid_map.lookup "k" = some uid_a := by decide
  exact ⟨rfl,Option.some.inj (owner.symm.trans found)⟩

/-- One pass takes the only message. -/
theorem passes_drain_one : one_message.redis.lists (topic_list "t" "k") ≠ [] ∧
    ∃ log s', Runs exec (passes [transport_a]) one_message.redis log (.ok ()) s' ∧ s'.lists (topic_list "t" "k") = [] := by
  obtain ⟨⟨log,s',run⟩,effect⟩ := passes_drain one_message_reachable [transport_a] transport_a_serves
  obtain ⟨_,_,drained⟩ := effect log _ s' run
  refine ⟨by decide,log,s',run,(drained (fun k u owner => ?_) "k").1⟩
  obtain ⟨rfl,rfl⟩ := one_message_owner owner
  decide

end AcapyRedis.Draining
