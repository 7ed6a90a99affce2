import AcapyRedis.Sharding

/-!
Runs whose steps follow one another. A call finds or assigns the owner of its key
and may evacuate it (`Located`), then counts and pushes its message
(`enqueued_sharded`); a pass takes messages off the lists of its keys
(`Drained`); a registration adds an empty list. Each keeps the sharding
invariant, so it holds after every run (`reachable_consistent`).
-/
namespace AcapyRedis.Sequential
open AcapyRedis.Programs AcapyRedis.Python AcapyRedis.RedisStore AcapyRedis.Utils AcapyRedis.Inbound
open AcapyRedis.Sharding AcapyRedis.RoundRobin

/-! ### The owner of a key -/

theorem hasPending_perm {s : Store} {u : Uid} {ks ks' : List RecipKey} (perm : ks.Perm ks') :
    hasPending s u ks = hasPending s u ks' := by
  rw [Bool.eq_iff_iff]
  simp [hasPending,perm.mem_iff]

/-- A key that was just assigned has nothing pending, so it does not change which
    uids a call would give up. -/
theorem assigned_gives_up {s : Store} (inv : Listed s) {k : RecipKey} {u : Uid} (n : Int) {ks : List RecipKey}
    (free : s.recip_key_uid_map.lookup k = none) (there : u ∈ s.uid_recip_keys_map)
    (perm : ks.Perm (k :: s.recip_keys u)) (v : Uid) : gives_up (assigned s n k u ks) v = gives_up s v := by
  have counters : ∀ l, l ≠ k → (assigned s n k u ks).pending (uid_recip_key v l) = s.pending (uid_recip_key v l) := by
    intro l other
    simp [assigned,Store.pending,AList.lookup_insert_ne (uid_recip_key_ne_key u v other)]
  have same : hasPending (assigned s n k u ks) v (s.recip_keys v) = hasPending s v (s.recip_keys v) := by
    rw [Bool.eq_iff_iff]
    simp only [hasPending,List.any_eq_true,decide_eq_true_eq]
    refine exists_congr (fun l => and_congr_right (fun listed => ?_))
    rw [counters l (by rintro rfl; exact inv.unlisted free v listed)]
  rw [gives_up,gives_up,map_keys_length (assigned_uids n k ks there),assigned_recip_keys,← same]
  congr 1
  by_cases owner : v = u
  · subst owner
    rw [if_pos rfl,hasPending_perm perm]
    simp [hasPending,Store.pending,assigned]
  · rw [if_neg owner]

/-- `u` is the owner of the key in `s'`, which comes from `s` by assigning the key if
    it has no owner. -/
structure Found (k : RecipKey) (u : Uid) (s s' : Store) : Prop where
  listed : Listed s'
  sharded : ∀ topic, Sharded topic s → Sharded topic s'
  queues : SameQueues s s'
  uids : ∀ v, v ∈ s'.uid_recip_keys_map ↔ v ∈ s.uid_recip_keys_map
  owner : s'.recip_key_uid_map.lookup k = some u
  before : s.recip_key_uid_map.lookup k = some u ∨ s.recip_key_uid_map.lookup k = none
  givesUp : ∀ v, gives_up s' v = gives_up s v

/-- A key without an owner is assigned to the uid at the iterator. -/
theorem find_or_assign_picks {f : Choice → Choice} {post : Except PyError Uid → Store → Prop} (patience : Nat)
    {k : RecipKey} {s : Store} (inv : Listed s) (some_uid : s.uid_recip_keys_map.keys ≠ [])
    (owned : ∀ u, s.recip_key_uid_map.lookup k = some u → post (.ok u) s)
    (assigns : s.recip_key_uid_map.lookup k = none → ∀ choice u ks,
      picked (iterator s) (listed_candidates f none choice s) = some u → ks.Perm (k :: s.recip_keys u) →
      post (.ok u) (assigned s (moved_on (iterator s) (listed_candidates f none choice s).length) k u ks)) :
    Ends (exec_by f) post (find_or_assign (patience+1) k) s := by
  simp only [find_or_assign,ends_bind,Program.call,ends_command,ends_done,continues_ok,exec_by,exec]
  intro _
  cases owner : s.recip_key_uid_map.lookup k with
  | some u =>
    simp only [Option.isSome_some,↓reduceIte,ends_bind,ends_command,ends_done,continues_ok,exec_by,exec,owner,
      Program.pure_eq]
    exact fun _ => owned u owner
  | none =>
    simp only [Option.isSome_none,Bool.false_eq_true,↓reduceIte]
    exact assign_ends patience inv some_uid owner (assigns owner)

theorem assigned_found {s : Store} (inv : Listed s) {k : RecipKey} {u : Uid} (n : Int) {ks : List RecipKey}
    (free : s.recip_key_uid_map.lookup k = none) (there : u ∈ s.uid_recip_keys_map)
    (perm : ks.Perm (k :: s.recip_keys u)) : Found k u s (assigned s n k u ks) where
  listed := assigned_listed inv u n free perm
  sharded _ sharded := assigned_sharded sharded u n free perm
  queues := ⟨rfl,rfl⟩
  uids := assigned_uids n k ks there
  owner := AList.lookup_insert _
  before := .inr free
  givesUp := assigned_gives_up inv n free there perm

theorem find_or_assign_ends {post : Except PyError Uid → Store → Prop} (patience : Nat) {k : RecipKey} {s : Store}
    (inv : Listed s) (some_uid : s.uid_recip_keys_map.keys ≠ []) (ends : ∀ u s', Found k u s s' → post (.ok u) s') :
    Ends exec post (find_or_assign (patience+1) k) s := by
  refine find_or_assign_picks (f := id) patience inv some_uid (fun u owner => ?_) (fun free choice u ks found perm => ?_)
  · exact ends u s ⟨inv, fun _ sharded => sharded, .refl s, fun _ => .rfl, owner, .inl owner, fun _ => rfl⟩
  · exact ends u _ (assigned_found inv _ free (picked_eligible found).1 perm)

/-- `u` is the uid that a call at the clock reading `now` counts its message for: the
    owner of the key after the owner found first was evacuated if it was stale. -/
structure Located (now : Int) (k : RecipKey) (u : Uid) (s s' : Store) : Prop where
  listed : Listed s'
  sharded : ∀ topic, Sharded topic s → Sharded topic s'
  queues : SameQueues s s'
  owner : s'.recip_key_uid_map.lookup k = some u
  uids : ∃ v ∈ s.uid_recip_keys_map,
    (s.recip_key_uid_map.lookup k = some v ∨ s.recip_key_uid_map.lookup k = none) ∧
    ∀ w, w ∈ s'.uid_recip_keys_map ↔ w ∈ s.uid_recip_keys_map ∧
      ¬ (w = v ∧ stale_uid_check now (s.uid_last_access_map.lookup v) = true ∧ gives_up s v = true)

/-- The store after a message of the key was counted for a uid. -/
def counted_up (s : Store) (u : Uid) (k : RecipKey) : Store :=
  { s with
    uid_recip_key_pending_msg_count :=
      s.uid_recip_key_pending_msg_count.insert (uid_recip_key u k) (s.pending (uid_recip_key u k) + 1) }

theorem process_recip_key_ends {post : Except PyError Unit → Store → Prop} (patience : Nat) (now : Int)
    {k : RecipKey} {s : Store} (inv : Listed s) (some_uid : s.uid_recip_keys_map.keys ≠ [])
    (ends : ∀ u s', Located now k u s s' → post (.ok ()) (counted_up s' u k)) :
    Ends exec post (process_recip_key (patience+1) now k) s := by
  rw [process_recip_key,ends_bind]
  apply find_or_assign_ends patience inv some_uid
  intro u s₁ found
  have there : u ∈ s.uid_recip_keys_map := (found.uids u).mp (found.listed.owner_in_map found.owner)
  simp only [continues_ok,ends_bind,Program.call,ends_command,ends_done,exec,found.queues.accesses]
  intro _
  cases stale : stale_uid_check now (s.uid_last_access_map.lookup u) with
  | true =>
    simp only [↓reduceIte,ends_bind]
    apply evacuate_ends patience found.listed found.owner
    intro u' s₂ evacuated owner
    simp only [continues_ok,ends_command,ends_done,exec]
    intro _
    refine ends u' s₂ ⟨evacuated.listed, fun topic sharded => evacuated.sharded topic (found.sharded topic sharded),
      found.queues.trans evacuated.queues, owner, u, there, found.before, ?_⟩
    intro w
    simp only [evacuated.uids,found.uids,found.givesUp,stale,true_and]
  | false =>
    simp only [Bool.false_eq_true,↓reduceIte,Program.pure_eq,Program.done_bind,ends_done,ends_command,exec]
    intro _
    refine ends u s₁ ⟨found.listed, found.sharded, found.queues, found.owner, u, there, found.before, ?_⟩
    intro w
    simp [found.uids,stale]

/-! ### A producer -/

/-- The store with other messages in the list of a key, counted for a uid. -/
def requeued (topic : String) (s : Store) (u : Uid) (k : RecipKey) (messages : List Entry) : Store :=
  { s with
    uid_recip_key_pending_msg_count := s.uid_recip_key_pending_msg_count.insert (uid_recip_key u k) messages.length
    lists := Function.update s.lists (topic_list topic k) messages }

theorem requeued_sharded {topic : String} {s : Store} (inv : Sharded topic s) {u : Uid} {k : RecipKey}
    (owner : s.recip_key_uid_map.lookup k = some u) {messages : List Entry}
    (records : ∀ entry ∈ messages, ∃ payload, entry = .inbound payload none) :
    Sharded topic (requeued topic s u k messages) := by
  have here : (requeued topic s u k messages).lists (topic_list topic k) = messages := Function.update_self _ _ _
  refine changed_sharded inv ⟨inv.distinct,inv.listed⟩ owner (fun _ _ => rfl) ?_ ?_ ?_ ?_ ?_
  · intro l other
    exact Function.update_of_ne (fun eq => other (topic_list_inj.mp eq)) _ _
  · rwa [here]
  · rw [here]
    exact AList.lookup_insert _
  · intro v other
    exact (AList.lookup_insert_ne (uid_recip_key_ne_uid k k other)).trans (inv.sole_counter owner other)
  · intro l v other
    exact AList.lookup_insert_ne (uid_recip_key_ne_key u v other)

/-- The store after a producer pushed the message that it counted for a uid. -/
def enqueued (topic : String) (s : Store) (u : Uid) (k : RecipKey) (payload : Bytes) : Store :=
  { counted_up s u k with
    lists := Function.update s.lists (topic_list topic k) (s.lists (topic_list topic k) ++ [.inbound payload none]) }

theorem enqueued_sharded {topic : String} {s : Store} (inv : Sharded topic s) {u : Uid} {k : RecipKey}
    (owner : s.recip_key_uid_map.lookup k = some u) (payload : Bytes) :
    Sharded topic (enqueued topic s u k payload) := by
  have same : enqueued topic s u k payload =
      requeued topic s u k (s.lists (topic_list topic k) ++ [.inbound payload none]) := by
    simp [enqueued,counted_up,requeued,Store.pending,inv.counted k u owner]
  rw [same]
  apply requeued_sharded inv owner
  intro entry member
  rcases List.mem_append.mp member with old | new
  · exact inv.records k entry old
  · exact ⟨payload, List.mem_singleton.mp new⟩

/-- A call: a payload without a key raises before any command, any other message is
    counted for the owner of its key. -/
theorem process_payload_ends {json_loads : Bytes ⊕ Text → Except PyError Json} {topic : String}
    {post : Except PyError (String × Entry) → Store → Prop} (patience : Nat) (now : Int) (payload : Bytes) {s : Store}
    (inv : Listed s) (some_uid : s.uid_recip_keys_map.keys ≠ [])
    (refuses : ∀ error, recip_key_of json_loads payload = .error error → post (.error error) s)
    (ends : ∀ k u s', recip_key_of json_loads payload = .ok k → Located now k u s s' →
      post (.ok (topic_list topic k, .inbound payload none)) (counted_up s' u k)) :
    Ends exec post (process_payload_recip_key json_loads (patience+1) now payload topic) s := by
  rw [process_payload_recip_key]
  cases key : recip_key_of json_loads payload with
  | error error => exact refuses error key
  | ok k =>
    simp only [ends_bind]
    apply process_recip_key_ends patience now inv some_uid
    intro u s' located
    exact ends k u s' key located

/-- A call and its push. -/
theorem produce_ends {json_loads : Bytes ⊕ Text → Except PyError Json} {topic : String}
    {post : Except PyError Unit → Store → Prop} (patience : Nat) (now : Int) (payload : Bytes) {s : Store}
    (inv : Listed s) (some_uid : s.uid_recip_keys_map.keys ≠ [])
    (refuses : ∀ error, recip_key_of json_loads payload = .error error → post (.error error) s)
    (ends : ∀ k u s', recip_key_of json_loads payload = .ok k → Located now k u s s' →
      post (.ok ()) (enqueued topic s' u k payload)) :
    Ends exec post (produce json_loads (patience+1) now payload topic) s := by
  rw [produce,ends_bind]
  apply process_payload_ends patience now payload inv some_uid refuses
  intro k u s' key located
  simp only [continues_ok,Program.call,ends_command,ends_done,exec]
  intro _
  exact ends k u s' key located

/-! ### A pass of the polling loop -/

/-- `s'` comes from `s` by handling messages of a running instance. -/
structure Drained (topic : String) (s s' : Store) : Prop where
  sharded : Sharded topic s'
  lists : s'.uid_recip_keys_map = s.uid_recip_keys_map
  owners : s'.recip_key_uid_map = s.recip_key_uid_map

/-- The store after an instance took the first message of a key and counted it off. -/
def dequeued (topic : String) (s : Store) (u : Uid) (k : RecipKey) (time : Int) (rest : List Entry) : Store :=
  { requeued topic s u k rest with uid_last_access_map := s.uid_last_access_map.insert u time }

theorem dequeued_drained {topic : String} {s : Store} (inv : Sharded topic s) {u : Uid} {k : RecipKey} (time : Int)
    {first : Entry} {rest : List Entry} (owner : s.recip_key_uid_map.lookup k = some u)
    (queue : s.lists (topic_list topic k) = first :: rest) : Drained topic s (dequeued topic s u k time rest) := by
  have kept := requeued_sharded inv owner (fun entry member => inv.records k entry
    (by rw [queue]; exact List.mem_cons_of_mem first member))
  exact ⟨⟨⟨kept.distinct, kept.listed⟩, kept.counted, kept.uncounted, kept.unowned, kept.records⟩, rfl, rfl⟩

/-- Without a `txn_id` a session answers nothing and Redis is left alone. -/
theorem receive_ends {post : Except PyError Unit → Store → Prop} (self : RedisInboundTransport) (payload : Bytes)
    {s : Store} (ends : ∀ outcome, post outcome s) : Ends exec post (self.receive payload none) s := by
  rw [RedisInboundTransport.receive]
  split <;> exact ends _

theorem poll_key_ends {topic : String} {post : Except PyError Unit → Store → Prop} (self : RedisInboundTransport)
    {k : RecipKey} {s : Store} (under : self.inbound_topic = topic) (inv : Sharded topic s)
    (owner : s.recip_key_uid_map.lookup k = some self.plugin_uid)
    (ends : ∀ outcome s', Drained topic s s' → post outcome s') : Ends exec post (self.poll_key k) s := by
  rw [RedisInboundTransport.poll_key,under,ends_bind,pop_message_ends]
  cases queue : s.lists (topic_list topic k) with
  | nil =>
    have same : Function.update s.lists (topic_list topic k) [] = s.lists := by rw [← queue,Function.update_eq_self]
    simpa [same] using ends (.ok ()) s ⟨inv,rfl,rfl⟩
  | cons first rest =>
    obtain ⟨payload,record⟩ := inv.records k first (by simp [queue])
    subst record
    have count := inv.counted k _ owner
    rw [queue] at count
    have positive : (1 : Int) ≤ ((Entry.inbound payload none :: rest).length : Int) := by
      rw [List.length_cons]; omega
    have left : ((Entry.inbound payload none :: rest).length : Int) - 1 = rest.length := by
      rw [List.length_cons]; omega
    simp only [List.head?_cons,List.tail_cons,continues_ok,Program.call,ends_bind,ends_command,ends_done,exec,count,
      positive,left,↓reduceIte]
    intro _ _ _
    exact receive_ends self payload (fun outcome => ends outcome _ (dequeued_drained inv _ owner queue))

theorem poll_keys_ends {topic : String} {post : Except PyError Unit → Store → Prop} (self : RedisInboundTransport)
    (under : self.inbound_topic = topic) (ks : List RecipKey) :
    ∀ s : Store, Sharded topic s → (∀ k ∈ ks, s.recip_key_uid_map.lookup k = some self.plugin_uid) →
      (∀ outcome s', Drained topic s s' → post outcome s') → Ends exec post (self.poll_keys ks) s := by
  induction ks with
  | nil => exact fun s inv _ ends => ends (.ok ()) s ⟨inv,rfl,rfl⟩
  | cons k rest ih =>
    intro s inv owned ends
    rw [RedisInboundTransport.poll_keys,ends_bind]
    apply poll_key_ends self under inv (owned k (by simp))
    intro outcome s' first
    cases outcome with
    | error error => exact ends _ s' first
    | ok _ =>
      refine ih s' first.sharded (fun l member => ?_) (fun outcome s'' second => ?_)
      · rw [first.owners]
        exact owned l (by simp [member])
      · exact ends outcome s''
          ⟨second.sharded, second.lists.trans first.lists, second.owners.trans first.owners⟩

theorem poll_ends {topic : String} {post : Except PyError Unit → Store → Prop} (self : RedisInboundTransport)
    {s : Store} (under : self.inbound_topic = topic) (inv : Sharded topic s)
    (ends : ∀ outcome s', Drained topic s s' → post outcome s') : Ends exec post self.poll s := by
  simp only [RedisInboundTransport.poll,Program.call,Program.attempt,ends_bind,ends_command,ends_done,continues_ok,
    exec]
  intro _
  cases listed : s.uid_recip_keys_map.lookup self.plugin_uid with
  | none => exact ends (.ok ()) s ⟨inv,rfl,rfl⟩
  | some ks =>
    refine poll_keys_ends self under ks s inv (fun k member => ?_) ends
    rw [← inv.listed,Store.recip_keys,listed]
    exact member

/-! ### Whole runs -/

/-- The invariant of a run: the keys are sharded over uids that registered, and once
    a uid has registered some uid is left to assign to. -/
structure Consistent (topic : String) (sys : System) : Prop where
  sharded : Sharded topic sys.redis
  registered : ∀ u ∈ sys.redis.uid_recip_keys_map, u ∈ sys.registered
  remains : sys.registered ≠ [] → sys.redis.uid_recip_keys_map.keys ≠ []

theorem empty_sharded (topic : String) : Sharded topic .empty where
  distinct _ := List.nodup_nil
  listed _ _ := by simp [Store.recip_keys,Store.empty]
  counted _ _ owned := by simp [Store.empty] at owned
  uncounted _ _ _ := rfl
  unowned _ _ := rfl
  records _ _ member := absurd member List.not_mem_nil

theorem empty_consistent (topic : String) : Consistent topic .empty where
  sharded := empty_sharded topic
  registered u there := absurd there (AList.notMem_empty u)
  remains registered := absurd rfl registered

/-- The store after a fresh uid registered. -/
def registered (s : Store) (u : Uid) : Store := withKeys s u []

theorem register_ends {post : Except PyError Unit → Store → Prop} {u : Uid} {s : Store}
    (ends : post (.ok ()) (registered s u)) : Ends exec post (register u) s := by
  simp only [register,ends_bind,Program.call,ends_command,ends_done,continues_ok,exec]
  intro _ _
  exact ends

theorem registered_listed {s : Store} (inv : Listed s) {u : Uid} (fresh : u ∉ s.uid_recip_keys_map) :
    Listed (registered s u) := by
  have same : ∀ v, (registered s u).recip_keys v = s.recip_keys v := by
    intro v
    refine (recip_keys_insert s u v []).trans ?_
    split
    · next here => rw [here,Store.recip_keys,AList.lookup_eq_none.mpr fresh]; rfl
    · rfl
  exact ⟨fun v => by rw [same]; exact inv.distinct v, fun k v => by rw [same]; exact inv.listed k v⟩

theorem register_consistent {topic : String} {sys : System} (inv : Consistent topic sys) {u : Uid}
    (fresh : u ∉ sys.registered) (running : List Uid) :
    Consistent topic ⟨registered sys.redis u, u :: sys.registered, running⟩ := by
  have kept := inv.sharded
  refine ⟨⟨registered_listed kept.toListed (fun there => fresh (inv.registered u there)), kept.counted,
    kept.uncounted, kept.unowned, kept.records⟩, ?_, ?_⟩
  · intro v there
    rcases AList.mem_insert _ |>.mp there with rfl | old
    · exact List.mem_cons_self
    · exact List.mem_cons_of_mem _ (inv.registered v old)
  · intro _
    exact List.ne_nil_of_mem (AList.mem_keys.mp ((AList.mem_insert _).mpr (.inl rfl)))

/-- A call leaves a uid to assign to: it gives up a uid only while there is another. -/
theorem located_remains {now : Int} {k : RecipKey} {u : Uid} {s s' : Store} (located : Located now k u s s')
    (some_uid : s.uid_recip_keys_map.keys ≠ []) : s'.uid_recip_keys_map.keys ≠ [] := by
  obtain ⟨v,_,_,uids⟩ := located.uids
  by_cases many : 1 < s.uid_recip_keys_map.keys.length
  · have left : 0 < (s.uid_recip_keys_map.keys.erase v).length := by
      have := List.le_length_erase (a := v) (l := s.uid_recip_keys_map.keys)
      omega
    obtain ⟨w,member⟩ := List.exists_mem_of_length_pos left
    obtain ⟨different,there⟩ := s.uid_recip_keys_map.keys_nodup.mem_erase_iff.mp member
    exact List.ne_nil_of_mem (AList.mem_keys.mp ((uids w).mpr ⟨AList.mem_keys.mpr there, fun gone => different gone.1⟩))
  · obtain ⟨w,there⟩ := List.exists_mem_of_ne_nil _ some_uid
    refine List.ne_nil_of_mem (AList.mem_keys.mp ((uids w).mpr ⟨AList.mem_keys.mpr there, fun gone => ?_⟩))
    simp [gives_up,many] at gone

theorem step_consistent {json_loads : Bytes ⊕ Text → Except PyError Json} {topic : String} {sys sys' : System}
    (inv : Consistent topic sys) (step : Step json_loads topic sys sys') : Consistent topic sys' := by
  cases step with
  | @register uid _ _ _ fresh run =>
    have ends : Ends exec (fun _ s' => Consistent topic ⟨s', uid :: sys.registered, uid :: sys.running⟩)
        (register uid) sys.redis := register_ends (register_consistent inv fresh _)
    exact ends.post_of_runs run
  | @produce patience now payload _ _ _ some_registered run =>
    have some_uid := inv.remains some_registered
    suffices ends : Ends exec (fun _ s' => Consistent topic { sys with redis := s' })
        (produce json_loads (patience+1) now payload topic) sys.redis from ends.post_of_runs run
    apply produce_ends patience now payload inv.sharded.toListed some_uid
    · exact fun _ _ => inv
    · intro k u s' _ located
      have remains : s'.uid_recip_keys_map.keys ≠ [] := located_remains located some_uid
      have kept : Sharded topic (enqueued topic s' u k payload) :=
        enqueued_sharded (located.sharded topic inv.sharded) located.owner payload
      refine ⟨kept, ?_, fun _ => remains⟩
      intro v there
      obtain ⟨_,_,_,uids⟩ := located.uids
      exact inv.registered v ((uids v).mp there).1
  | poll self _ under run =>
    suffices ends : Ends exec (fun outcome s' => Consistent topic
        ⟨s', sys.registered, still_running sys.running self.plugin_uid outcome⟩) self.poll sys.redis
      from ends.post_of_runs run
    apply poll_ends self under inv.sharded
    intro outcome s' drained
    refine ⟨drained.sharded, fun v there => inv.registered v ?_, fun some_registered => ?_⟩
    · rw [← drained.lists]; exact there
    · show s'.uid_recip_keys_map.keys ≠ []
      rw [drained.lists]
      exact inv.remains some_registered

theorem reachable_consistent {json_loads : Bytes ⊕ Text → Except PyError Json} {topic : String} {sys : System}
    (reachable : Reachable json_loads topic sys) : Consistent topic sys := by
  induction reachable with
  | refl => exact empty_consistent topic
  | tail _ step ih => exact step_consistent ih step

/-- In such a state a producer's call and push end, whatever the payload is. -/
theorem produce_returns {json_loads : Bytes ⊕ Text → Except PyError Json} {topic : String} {sys : System}
    (reachable : Reachable json_loads topic sys) (some_registered : sys.registered ≠ []) (patience : Nat) (now : Int)
    (payload : Bytes) :
    ∃ log outcome s', Runs exec (produce json_loads (patience+1) now payload topic) sys.redis log outcome s' := by
  have inv := reachable_consistent reachable
  have ends : Ends exec (fun _ _ => True) (produce json_loads (patience+1) now payload topic) sys.redis :=
    produce_ends patience now payload inv.sharded.toListed (inv.remains some_registered) (fun _ _ => trivial)
      (fun _ _ _ _ _ => trivial)
  exact ends.runs

/-- So does a pass of an instance. -/
theorem poll_returns {json_loads : Bytes ⊕ Text → Except PyError Json} {topic : String} {sys : System}
    (reachable : Reachable json_loads topic sys) (self : RedisInboundTransport) (under : self.inbound_topic = topic) :
    ∃ log outcome s', Runs exec self.poll sys.redis log outcome s' := by
  have inv := reachable_consistent reachable
  have ends : Ends exec (fun _ _ => True) self.poll sys.redis :=
    poll_ends self under inv.sharded (fun _ _ _ => trivial)
  exact ends.runs

/-- In every state that a sequential run reaches, the key lists are the inverse of the
    owner map and free of duplicates, some uid is left once one has registered, and
    every counter of an owner is the number of messages waiting for it. -/
theorem sharding_invariant {json_loads : Bytes ⊕ Text → Except PyError Json} {topic : String} {sys : System}
    (reachable : Reachable json_loads topic sys) :
    (∀ k u, k ∈ sys.redis.recip_keys u ↔ sys.redis.recip_key_uid_map.lookup k = some u) ∧
    (∀ u, (sys.redis.recip_keys u).Nodup) ∧
    (sys.registered ≠ [] → sys.redis.uid_recip_keys_map.keys ≠ []) ∧
    ∀ k u, sys.redis.recip_key_uid_map.lookup k = some u →
      sys.redis.uid_recip_key_pending_msg_count.lookup (uid_recip_key u k) =
        some ((sys.redis.lists (topic_list topic k)).length : Int) :=
  have inv := reachable_consistent reachable
  ⟨inv.sharded.listed, inv.sharded.distinct, inv.remains, inv.sharded.counted⟩

/-- One instance has registered and one message for the key `k` was produced. -/
def one_message : System :=
  ⟨((produce loads_two 1 0 (packed protected_k) "t").leaves exec (registered .empty uid_a)).1, [uid_a], [uid_a]⟩

theorem register_runs (s : Store) (u : Uid) :
    Runs exec (register u) s [⟨.ping, ()⟩, ⟨.hset_no_recip_keys u, ()⟩] (.ok ()) (registered s u) :=
  .command default (.command default .done)

theorem one_message_reachable : Reachable loads_two "t" one_message := by
  have ended : ((produce loads_two 1 0 (packed protected_k) "t").leaves exec (registered .empty uid_a)).2 =
      some (.ok ()) := rfl
  obtain ⟨_,run⟩ := leaves_runs ended
  have first : Step loads_two "t" .empty ⟨registered .empty uid_a, [uid_a], [uid_a]⟩ :=
    .register List.not_mem_nil (register_runs _ _)
  exact (Relation.ReflTransGen.single first).tail (.produce (by simp) run)

theorem sharding_invariant_one_message :
    one_message.redis.uid_recip_key_pending_msg_count.lookup (uid_recip_key uid_a "k") =
      some ((one_message.redis.lists (topic_list "t" "k")).length : Int) :=
  (sharding_invariant one_message_reachable).2.2.2 "k" uid_a (by decide)

end AcapyRedis.Sequential
