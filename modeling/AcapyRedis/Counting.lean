import AcapyRedis.Counters
import AcapyRedis.Handlers
import AcapyRedis.Sharding

/-!
What a producer counts against what it pushes. A call adds one to the counters of its key
and nothing to those of others (`process_payload_moves`). A relay makes a call for every
try of its push, a mediator makes one also when its push fails; so the counters grow as
much as the list exactly when no push fails (`growth_agrees_iff`).
-/
namespace AcapyRedis.Counting
open AcapyRedis.Programs AcapyRedis.Programs.Program AcapyRedis.Python AcapyRedis.RedisStore AcapyRedis.Utils
open AcapyRedis.Threads AcapyRedis.Commands AcapyRedis.Sums AcapyRedis.Pending AcapyRedis.Counters AcapyRedis.Sharding
open AcapyRedis.Records AcapyRedis.Handlers AcapyRedis.Inbound

/-! ### What a part of a call changes -/

/-- Only keys with an owner have counters. -/
def Backed (s : Store) : Prop :=
  ∀ k field, counts_for k field = true → field ∈ s.uid_recip_key_pending_msg_count → k ∈ s.recip_key_uid_map

/-- `s'` comes from `s` by commands of a call that add to the counters of every key. -/
structure Moved (add : RecipKey → Int) (s s' : Store) : Prop where
  backed : Backed s'
  sums : ∀ l, pending_sum s' l = pending_sum s l + add l
  lists : s'.lists = s.lists
  owned : ∀ l, l ∈ s.recip_key_uid_map → l ∈ s'.recip_key_uid_map

/-- Nothing is added. -/
abbrev Steady (s s' : Store) : Prop := Moved (fun _ => 0) s s'

theorem Moved.trans {add : RecipKey → Int} {s s' s'' : Store} (first : Steady s s') (second : Moved add s' s'') :
    Moved add s s'' := by
  refine ⟨second.backed, fun l => ?_, second.lists.trans first.lists, fun l owned => second.owned l (first.owned l owned)⟩
  rw [second.sums,first.sums]
  omega

/-- A change of the other keys of Redis. -/
theorem aside_steady {s s' : Store} (backed : Backed s)
    (counters : s'.uid_recip_key_pending_msg_count = s.uid_recip_key_pending_msg_count) (lists : s'.lists = s.lists)
    (owned : ∀ l, l ∈ s.recip_key_uid_map → l ∈ s'.recip_key_uid_map) : Steady s s' := by
  refine ⟨fun k field counts there => ?_, fun l => ?_, lists, owned⟩
  · rw [counters] at there
    exact owned k (backed k field counts there)
  · rw [pending_sum,counters]
    exact (Int.add_zero _).symm

theorem steady_refl {s : Store} (backed : Backed s) : Steady s s := aside_steady backed rfl rfl (fun _ owned => owned)

/-- One more message is counted for a key with an owner. -/
theorem counted_moved {s : Store} (backed : Backed s) {k : RecipKey} (u : Uid) (owned : k ∈ s.recip_key_uid_map) :
    Moved (fun l => if l = k then 1 else 0) s { s with
      uid_recip_key_pending_msg_count :=
        s.uid_recip_key_pending_msg_count.insert (uid_recip_key u k) (s.pending (uid_recip_key u k) + 1) } := by
  refine ⟨fun l field counts there => ?_, fun l => ?_, rfl, fun _ there => there⟩
  · obtain rfl | old := (AList.mem_insert _).mp there
    · rw [counts_for_uid_recip_key,decide_eq_true_eq] at counts
      exact counts ▸ owned
    · exact backed l field counts old
  · simp only [pending_sum,total_insert,counts_for_uid_recip_key,decide_eq_true_eq,Store.pending]
    split <;> omega

/-- A new counter of a key that had no owner is 0. -/
theorem assigned_steady {s s' : Store} (backed : Backed s) {k : RecipKey} (u : Uid) (free : k ∉ s.recip_key_uid_map)
    (owners : s'.recip_key_uid_map = s.recip_key_uid_map.insert k u) (lists : s'.lists = s.lists)
    (counters : s'.uid_recip_key_pending_msg_count = s.uid_recip_key_pending_msg_count.insert (uid_recip_key u k) 0) :
    Steady s s' ∧ k ∈ s'.recip_key_uid_map := by
  have grows : ∀ l, l ∈ s.recip_key_uid_map → l ∈ s'.recip_key_uid_map := by
    intro l there
    rw [owners]
    exact (AList.mem_insert _).mpr (.inr there)
  have mine : k ∈ s'.recip_key_uid_map := by
    rw [owners]
    exact (AList.mem_insert _).mpr (.inl rfl)
  have none : s.uid_recip_key_pending_msg_count.lookup (uid_recip_key u k) = none := by
    by_contra found
    have there : uid_recip_key u k ∈ s.uid_recip_key_pending_msg_count :=
      AList.lookup_isSome.mp (Option.isSome_iff_ne_none.mpr found)
    exact free (backed k _ (by simp [counts_for_uid_recip_key]) there)
  refine ⟨⟨fun l field counts there => ?_, fun l => ?_, lists, grows⟩, mine⟩
  · rw [counters] at there
    obtain rfl | old := (AList.mem_insert _).mp there
    · rw [counts_for_uid_recip_key,decide_eq_true_eq] at counts
      exact counts ▸ mine
    · exact grows l (backed l field counts old)
  · simp [pending_sum,counters,total_insert,none]

/-- The count of a key moves from one uid to another. -/
theorem countMoved_steady {s s' : Store} (backed : Backed s) (k : RecipKey) (old new : Uid)
    (owners : s'.recip_key_uid_map = s.recip_key_uid_map.insert k new) (lists : s'.lists = s.lists)
    (counters : s'.uid_recip_key_pending_msg_count = countMoved s k old new) : Steady s s' := by
  have grows : ∀ l, l ∈ s.recip_key_uid_map → l ∈ s'.recip_key_uid_map := by
    intro l there
    rw [owners]
    exact (AList.mem_insert _).mpr (.inr there)
  have mine : k ∈ s'.recip_key_uid_map := by
    rw [owners]
    exact (AList.mem_insert _).mpr (.inl rfl)
  refine ⟨fun l field counts there => ?_, fun l => ?_, lists, grows⟩
  · rw [counters,countMoved] at there
    split at there
    · obtain rfl | old := (AList.mem_insert _).mp there
      · rw [counts_for_uid_recip_key,decide_eq_true_eq] at counts
        exact counts ▸ mine
      · exact grows l (backed l field counts (AList.mem_erase.mp old).2)
    · exact grows l (backed l field counts (AList.mem_erase.mp there).2)
  · rw [pending_sum,counters,countMoved]
    cases count : s.uid_recip_key_pending_msg_count.lookup (uid_recip_key old k) with
    | none => simp [pending_sum,total_erase,count]
    | some count' =>
      simp only [pending_sum,total_insert,total_erase,counts_for_uid_recip_key,decide_eq_true_eq,count,Option.getD_some]
      split <;> omega

/-! ### A call -/

theorem read_round_robin_leads {post : Except PyError Int → Store → Prop} (s : Store)
    (read : ∀ n, post (.ok n) { s with round_robin_iterator := some n }) : Leads exec post read_round_robin s := by
  rw [read_round_robin]
  cases present : s.round_robin_iterator with
  | none => simpa [exec,present] using read 0
  | some n =>
    have same : { s with round_robin_iterator := some n } = s := by rw [← present]
    simpa [exec,present,same] using read n

theorem get_new_valid_uid_leads {post : Except PyError Uid → Store → Prop} (ignored : Option Uid) (patience : Nat)
    (s : Store) (chosen : ∀ u n, post (.ok u) { s with round_robin_iterator := some n }) :
    Leads exec post (get_new_valid_uid ignored patience) s := by
  induction patience generalizing s with
  | zero => trivial
  | succ patience ih =>
    rw [get_new_valid_uid,leads_bind]
    apply read_round_robin_leads
    intro n
    simp only [onward_ok,leads_bind,Program.call,leads_command,leads_done,exec]
    intro choice
    cases candidates ignored (arranged choice.uids s.uid_recip_keys_map.keys) with
    | nil =>
      simp only [leads_bind,leads_command,leads_done,onward_ok,exec]
      exact fun _ => ih _ (fun u n => chosen u n)
    | cons first rest =>
      simp only [take_uid,leads_bind,Program.call,leads_command,leads_done,onward_ok,exec,Program.pure_eq]
      exact fun _ => chosen _ _

theorem assign_leads {post : Except PyError Uid → Store → Prop} (patience : Nat) {k : RecipKey} {s : Store}
    (free : k ∉ s.recip_key_uid_map)
    (leads : ∀ u s', (Backed s → Steady s s' ∧ k ∈ s'.recip_key_uid_map) → post (.ok u) s') :
    Leads exec post (assign_recip_key_to_new_uid patience k) s := by
  rw [assign_recip_key_to_new_uid,leads_bind]
  apply get_new_valid_uid_leads
  intro u n
  simp only [get_recip_keys_list_for_uid,onward_ok,leads_bind,Program.call,leads_command,leads_done,exec,Program.pure_eq]
  intro _ _
  split
  · simp only [leads_bind,leads_command,leads_done,onward_ok,exec]
    intro _ _
    exact leads u _ (fun backed => assigned_steady backed u free rfl rfl rfl)
  · simp only [leads_bind,leads_command,leads_done,onward_ok,exec]
    intro _
    exact leads u _ (fun backed => assigned_steady backed u free rfl rfl rfl)

theorem reassign_leads {post : Except PyError Uid → Store → Prop} (patience : Nat) (old : Uid) (k : RecipKey)
    {s : Store} (leads : ∀ u s', (Backed s → Steady s s') → post (.ok u) s') :
    Leads exec post (reassign_recip_key_to_uid patience old k) s := by
  rw [reassign_recip_key_to_uid,leads_bind]
  apply get_new_valid_uid_leads
  intro new n
  simp only [get_recip_keys_list_for_uid,onward_ok,leads_bind,Program.call,leads_command,leads_done,exec,Program.pure_eq]
  intro _ _ _ _ _ _ _
  cases count : s.uid_recip_key_pending_msg_count.lookup (uid_recip_key old k) with
  | none => exact leads new _ (fun backed => countMoved_steady backed k old new rfl rfl (by simp [countMoved,count]))
  | some count' =>
    simp only [leads_bind,leads_command,leads_done,onward_ok,exec]
    intro _
    exact leads new _ (fun backed =>
      countMoved_steady backed k old new rfl rfl (by simp [countMoved,count,Store.pending]))

theorem reassign_all_leads {post : Except PyError Uid → Store → Prop} (patience : Nat) (old : Uid) (key : RecipKey)
    (ks : List RecipKey) (plugin_uid : Uid) {s : Store} (leads : ∀ u s', (Backed s → Steady s s') → post (.ok u) s') :
    Leads exec post (reassign_all patience old key plugin_uid ks) s := by
  induction ks generalizing plugin_uid s with
  | nil => exact leads plugin_uid s steady_refl
  | cons k rest ih =>
    rw [reassign_all,leads_bind]
    apply reassign_leads patience old k
    intro u s' first
    refine ih _ (fun v s'' second => leads v s'' (fun backed => ?_))
    exact (first backed).trans (second (first backed).backed)

theorem any_pending_leads {post : Except PyError Bool → Store → Prop} (old : Uid) (ks : List RecipKey) {s : Store}
    (leads : ∀ pending, post (.ok pending) s) : Leads exec post (any_pending old ks) s := by
  induction ks with
  | nil => exact leads false
  | cons k rest ih =>
    simp only [any_pending,leads_bind,Program.call,leads_command,leads_done,onward_ok,exec]
    intro _
    split
    · split
      · exact leads true
      · exact ih
    · exact ih

theorem evacuate_leads {post : Except PyError Uid → Store → Prop} (patience : Nat) (old : Uid) (key : RecipKey)
    {s : Store} (leads : ∀ u s', (Backed s → Steady s s') → post (.ok u) s') :
    Leads exec post (evacuate patience old key) s := by
  simp only [evacuate,get_recip_keys_list_for_uid,leads_bind,Program.call,leads_command,leads_done,onward_ok,exec,
    Program.pure_eq]
  intro _
  apply any_pending_leads
  intro pending
  cases pending with
  | false => exact leads old s steady_refl
  | true =>
    simp only [onward_ok,↓reduceIte,leads_bind]
    apply reassign_all_leads patience old key _ old
    intro u s' moved
    simp only [onward_ok,leads_bind,leads_command,leads_done,exec]
    intro _
    split
    · simp only [leads_bind,leads_command,leads_done,onward_ok,exec]
      refine fun _ => leads u _ (fun backed => ?_)
      exact (moved backed).trans (aside_steady (moved backed).backed rfl rfl (fun _ there => there))
    · exact leads u s' moved

theorem find_or_assign_leads {post : Except PyError Uid → Store → Prop} (patience : Nat) {k : RecipKey} {s : Store}
    (leads : ∀ u s', (Backed s → Steady s s' ∧ k ∈ s'.recip_key_uid_map) → post (.ok u) s') :
    Leads exec post (find_or_assign patience k) s := by
  simp only [find_or_assign,leads_bind,Program.call,leads_command,leads_done,onward_ok,exec]
  intro _
  cases owner : s.recip_key_uid_map.lookup k with
  | some u =>
    simp only [Option.isSome_some,↓reduceIte,leads_bind,leads_command,leads_done,onward_ok,exec,owner,Program.pure_eq]
    exact fun _ => leads u s (fun backed => ⟨steady_refl backed, mem_of_lookup owner⟩)
  | none =>
    simp only [Option.isSome_none,Bool.false_eq_true,↓reduceIte]
    exact assign_leads patience (AList.lookup_eq_none.mp owner) leads

/-- A call returns the list of its key, and counts one message for it. -/
theorem process_payload_leads {json_loads : Bytes ⊕ Text → Except PyError Json} {payload : Bytes} {k : RecipKey}
    (key : recip_key_of json_loads payload = .ok k) {topic : String}
    {post : Except PyError (String × Entry) → Store → Prop} (patience : Nat) (now : Int) {s : Store}
    (leads : ∀ s', (Backed s → Moved (fun l => if l = k then 1 else 0) s s') →
      post (.ok (topic_list topic k, .inbound payload none)) s') :
    Leads exec post (process_payload_recip_key json_loads patience now payload topic) s := by
  have counts : ∀ (u : Uid) (s' : Store), (Backed s → Steady s s' ∧ k ∈ s'.recip_key_uid_map) →
      Leads exec (Onward exec post (fun _ => .done (topic_list topic k, .inbound payload none)))
        (redis (.hincrby_pending (uid_recip_key u k) 1)) s' := by
    intro u s' found _
    refine leads _ (fun backed => ?_)
    obtain ⟨steady,owned⟩ := found backed
    exact steady.trans (counted_moved steady.backed u owned)
  simp only [process_payload_recip_key,key,leads_bind,process_recip_key,Program.pure_eq]
  apply find_or_assign_leads patience
  intro u s₁ found
  simp only [onward_ok,leads_bind,Program.call,leads_command,leads_done,exec]
  intro _
  split
  · rw [leads_bind]
    apply evacuate_leads patience u k
    intro v s₂ second
    refine counts v s₂ (fun backed => ?_)
    obtain ⟨first,owned⟩ := found backed
    exact ⟨first.trans (second first.backed), (second first.backed).owned k owned⟩
  · exact counts u s₁ found

/-- A call from a state in which only keys with an owner have counters. -/
theorem process_payload_moves {json_loads : Bytes ⊕ Text → Except PyError Json} {payload : Bytes} {k : RecipKey}
    (key : recip_key_of json_loads payload = .ok k) {topic : String}
    {post : Except PyError (String × Entry) → Store → Prop} (patience : Nat) (now : Int) {s : Store} (backed : Backed s)
    (leads : ∀ s', Moved (fun l => if l = k then 1 else 0) s s' →
      post (.ok (topic_list topic k, .inbound payload none)) s') :
    Leads exec post (process_payload_recip_key json_loads patience now payload topic) s :=
  process_payload_leads key patience now (fun s' moved => leads s' (moved backed))

/-! ### Failing pushes -/

def is_push : Command → Bool
  | .rpush _ _ => true
  | _ => false

/-- A call pushes nothing, so the failures are left to what comes after it. -/
theorem process_payload_faulted {β : Type} (json_loads : Bytes ⊕ Text → Except PyError Json) (patience : Nat)
    (now : Int) (payload : Bytes) (topic : String) (rest : String × Entry → Redis β) (errors : List PyError) :
    (process_payload_recip_key json_loads patience now payload topic >>= rest).faulted is_push errors =
      process_payload_recip_key json_loads patience now payload topic >>= fun value =>
        (rest value).faulted is_push errors := by
  refine Discipline.faulted_bind (process_payload_escapes json_loads patience now payload topic) ?_ errors
  refine (process_payload_issues json_loads patience now payload topic).mono (fun c inCall => ?_)
  cases c <;> first | exact inCall.elim | rfl

/-- What a push that is retried or given up can raise. -/
def PushError (error : PyError) : Prop := error = .RedisError ∨ error = .RedisClusterException

/-- The counters of a key grow by one number and its list by another. -/
structure Grown (topic : String) (k : RecipKey) (counted appended : Nat) (s s' : Store) : Prop where
  counters : pending_sum s' k = pending_sum s k + counted
  list : (s'.lists (topic_list topic k)).length = (s.lists (topic_list topic k)).length + appended

theorem pushed_grown {topic : String} {k : RecipKey} {s s' : Store} (message : Entry)
    (moved : Moved (fun l => if l = k then 1 else 0) s s') :
    Grown topic k 1 1 s { s' with
      lists := Function.update s'.lists (topic_list topic k) (s'.lists (topic_list topic k) ++ [message]) } := by
  refine ⟨?_, ?_⟩
  · show pending_sum s' k = _
    rw [moved.sums,if_pos rfl]
    rfl
  · simp [moved.lists]

theorem refused_grown (topic : String) {k : RecipKey} {s s' : Store}
    (moved : Moved (fun l => if l = k then 1 else 0) s s') : Grown topic k 1 0 s s' := by
  refine ⟨?_, by rw [moved.lists]; rfl⟩
  rw [moved.sums,if_pos rfl]
  rfl

theorem Grown.after {topic : String} {k : RecipKey} {counted appended : Nat} {s s' s'' : Store}
    (grown : Grown topic k counted appended s' s'') (moved : Moved (fun l => if l = k then 1 else 0) s s') :
    Grown topic k (counted + 1) appended s s'' := by
  have first := refused_grown topic moved
  refine ⟨?_, ?_⟩
  · rw [grown.counters,first.counters]
    push_cast
    omega
  · rw [grown.list,first.list]
    omega

/-- A push loop counts the message once for every try and pushes it once. -/
theorem send_grows {β : Type} {post : Except PyError β → Store → Prop} (self : Handler) {payload : Bytes}
    {k : RecipKey} (key : recip_key_of self.json.loads payload = .ok k) (message : Entry) (rest : Unit → Redis β)
    (readings : List Int) (errors : List PyError) (caught : ∀ error ∈ errors, PushError error) {s : Store}
    (backed : Backed s)
    (leads : ∀ s', Grown self.inbound_topic k (errors.length + 1) 1 s s' → Leads exec post (rest ()) s') :
    Leads exec post ((self.send payload message readings >>= rest).faulted is_push errors) s := by
  induction readings generalizing errors s with
  | nil => simp [Handler.send]
  | cons now later ih =>
    rw [Handler.send,bind_bind,process_payload_faulted,leads_bind]
    apply process_payload_moves key (self.patience+1) now backed
    intro s₁ moved
    cases errors with
    | nil =>
      simp only [onward_ok,faulted_nil,Program.call,Program.attempt,command_bind,done_bind,leads_command,exec]
      exact fun _ => leads _ (pushed_grown message moved)
    | cons error errors =>
      have again : Leads exec post ((self.send payload message later >>= rest).faulted is_push errors) s₁ :=
        ih errors (fun other member => caught other (List.mem_cons_of_mem _ member)) moved.backed
          (fun s' grown => leads s' (grown.after moved))
      obtain rfl | rfl := caught error List.mem_cons_self
      · exact again
      · exact again

/-! ### The producers -/

/-- The handler gets from its data a message for the relay's topic, and knows whether it asks
    for a direct response. -/
structure Prepared (handler : Handler) (data : Data) (payload : Bytes) (k : RecipKey) (requested : Bool) : Prop where
  encodes : message_data data = .ok payload
  dict : ∃ dict, message_dict handler.json data = .ok dict ∧ direct_response_request dict = .ok requested
  key : recip_key_of handler.json.loads payload = .ok k

/-- The calls of the producers on a message. -/
inductive Producer
  | http (self : Handler) (request : Request) (txn_id : Text) (readings : List Int) (waited : Waited)
  | ws (self : Handler) (data : Data) (txn_id : Text) (readings : List Int) (waited : Waited)
  | mediator (self : RedisOutboundQueue) (emit_new_didcomm_mime_type : Bool) (payload : Data) (endpoint : Text)
      (metadata : List (Text × Json)) (api_key : Option Text) (now : Int)

namespace Producer

def call : Producer → Redis Unit
  | .http self request txn_id readings waited => do
    let _ ← HttpRelay.message_handler self request txn_id readings waited
  | .ws self data txn_id readings waited => do
    let _ ← WSRelay.receive self ⟨.message data, txn_id, readings, waited⟩
  | .mediator self emit_new_didcomm_mime_type payload endpoint metadata api_key now =>
    self.handle_message emit_new_didcomm_mime_type payload endpoint metadata api_key now

def topic : Producer → String
  | .http self _ _ _ _ => self.inbound_topic
  | .ws self _ _ _ _ => self.inbound_topic
  | .mediator self _ _ _ _ _ _ => self.outbound_topic

/-- What the producer is given is a packed message for a key. -/
def Packed (k : RecipKey) : Producer → Prop
  | .http self request _ _ _ => ∃ data payload requested, request.body = .ok data ∧ Prepared self data payload k requested
  | .ws self data _ _ _ => ∃ payload requested, Prepared self data payload k requested
  | .mediator self _ payload endpoint _ _ _ => self.is_mediator = true ∧ endpoint ≠ [] ∧
      ∃ bytes, message_data payload = .ok bytes ∧ recip_key_of self.json.loads bytes = .ok k

/-- How often the message is counted when some pushes fail. -/
def counts (errors : List PyError) : Producer → Nat
  | .mediator _ _ _ _ _ _ _ => 1
  | _ => errors.length + 1

/-- How often it is pushed. -/
def appends (errors : List PyError) : Producer → Nat
  | .mediator _ _ _ _ _ _ _ => if errors = [] then 1 else 0
  | _ => 1

end Producer

theorem forward_prepared {self : Handler} {data : Data} {payload : Bytes} {k : RecipKey} {requested : Bool}
    (prepared : Prepared self data payload k requested) (transport_type : String) (txn_id : Text) (readings : List Int) :
    ∃ message, self.forward transport_type data txn_id readings = (do
      self.send payload message readings
      return requested) := by
  obtain ⟨dict,read,asks⟩ := prepared.dict
  obtain ⟨message,written⟩ := entry_of_ok self.json
    (relay_record payload (if requested then some txn_id else none) transport_type)
  refine ⟨message, ?_⟩
  simp only [Handler.forward,prepared.encodes,read,asks,written,ofExcept_ok,done_bind]

theorem ofExcept_leads {α : Type} {post : Except PyError α → Store → Prop} (result : Except PyError α) {s : Store}
    (leads : ∀ outcome, post outcome s) : Leads exec post (ofExcept result) s := by
  cases result <;> exact leads _

theorem producer_grows {producer : Producer} {k : RecipKey} (packed : producer.Packed k) (errors : List PyError)
    (caught : ∀ error ∈ errors, PushError error) {s : Store} (backed : Backed s) :
    Leads exec (fun _ s' => Grown producer.topic k (producer.counts errors) (producer.appends errors) s s')
      (producer.call.faulted is_push errors) s := by
  cases producer with
  | http self request txn_id readings waited =>
    obtain ⟨data,payload,requested,body,prepared⟩ := packed
    obtain ⟨message,forwards⟩ := forward_prepared prepared "http" txn_id readings
    simp only [Producer.call,http_forwards,body,forwards,ofExcept_ok,done_bind,bind_bind,Program.pure_eq]
    apply send_grows self prepared.key message _ readings errors caught backed
    intro s' grown
    cases requested with
    | true =>
      simp only [↓reduceIte,leads_bind]
      refine ofExcept_leads _ (fun outcome => ?_)
      cases outcome <;> exact grown
    | false => exact grown
  | ws self data txn_id readings waited =>
    obtain ⟨payload,requested,prepared⟩ := packed
    obtain ⟨message,forwards⟩ := forward_prepared prepared "ws" txn_id readings
    simp only [Producer.call,ws_forwards self ⟨.message data, txn_id, readings, waited⟩ rfl,forwards,done_bind,bind_bind,
      Program.pure_eq]
    apply send_grows self prepared.key message _ readings errors caught backed
    intro s' grown
    cases requested with
    | true =>
      simp only [↓reduceIte,leads_bind]
      refine ofExcept_leads _ (fun outcome => ?_)
      cases outcome <;> exact grown
    | false => exact grown
  | mediator self emit_new_didcomm_mime_type payload endpoint metadata api_key now =>
    obtain ⟨mediates,endpoint_given,bytes,data,key⟩ := packed
    obtain ⟨message,written⟩ := entry_of_ok self.json (outbound_record endpoint bytes
      (self.headers emit_new_didcomm_mime_type metadata api_key payload))
    simp only [Producer.call,RedisOutboundQueue.handle_message,endpoint_given,mediates,data,written,↓reduceIte,
      ofExcept_ok,done_bind,process_payload_faulted,leads_bind]
    apply process_payload_moves key (self.patience+1) now backed
    intro s₁ moved
    cases errors with
    | nil =>
      simp only [onward_ok,faulted_nil,Program.call,Program.attempt,command_bind,done_bind,leads_command,exec]
      exact fun _ => pushed_grown _ moved
    | cons error errors =>
      obtain rfl | rfl := caught error List.mem_cons_self
      · exact refused_grown _ moved
      · exact refused_grown _ moved

/-- From every state that concurrent clients reach, when some pushes of a producer fail: the
    counters of the key of its message grow by as much as its list exactly when none does. -/
theorem growth_agrees_iff {json_loads : Bytes ⊕ Text → Except PyError Json} {pool : Actors}
    (reach : Running json_loads pool) {producer : Producer} {k : RecipKey} (packed : producer.Packed k)
    (errors : List PyError) (caught : ∀ error ∈ errors, PushError error)
    {log : List (Event Command Command.Reply)} {outcome : Except PyError Unit} {s' : Store}
    (run : Runs exec (producer.call.faulted is_push errors) pool.store log outcome s') :
    pending_sum s' k - pending_sum pool.store k =
      ((s'.lists (topic_list producer.topic k)).length : Int) - (pool.store.lists (topic_list producer.topic k)).length ↔
    errors = [] := by
  have grown := (producer_grows packed errors caught (running_sound reach).backed).post_of_runs run
  have counted := grown.counters
  have appended := grown.list
  cases errors with
  | nil => cases producer <;> simp [Producer.counts,Producer.appends] at counted appended ⊢ <;> omega
  | cons error errors => cases producer <;> simp [Producer.counts,Producer.appends] at counted appended ⊢ <;> omega

/-! ### One instance and one message -/

/-- The record that an HTTP relay makes of the message for the key `k`. -/
def record_k : Json := relay_record (packed protected_k) none "http"

def handler_t : Handler := ⟨sample_json [record_k], "t", 0⟩

def request_k : Request := ⟨text "application/ssi-agent-wire", packed protected_k, Bytes.decode (packed protected_k)⟩

def post_k (readings : List Int) : Producer := .http handler_t request_k (text "x") readings .timeout

theorem post_k_packed (readings : List Int) : (post_k readings).Packed "k" :=
  ⟨.inr (packed protected_k), packed protected_k, false, by decide +kernel, rfl, ⟨_, rfl, rfl⟩, by decide +kernel⟩

/-- The store after one instance has registered. -/
def one_instance : Store := withKeys .empty uid_a []

theorem one_instance_running : ∃ pool : Actors, Running loads_two pool ∧ pool.store = one_instance := by
  have starts : ∀ p ∈ started (.start (register uid_a) :: steps 0 2), IsClient loads_two p := by
    intro p member
    simp only [started,steps,List.replicate,List.mem_cons,List.not_mem_nil,or_false] at member
    subst member
    exact .registers uid_a
  have sound : ∀ (pool : Actors) (i : Nat) (c : Command), (true : Bool) = true → unguarded pool i c :=
    fun _ _ _ _ => trivial
  exact ⟨_, guarded_of_moves sound _ .initial rfl starts, rfl⟩

theorem growth_agrees_iff_post : ∃ pool : Actors, Running loads_two pool ∧
    ∃ log s', Runs exec ((post_k [0]).call.faulted is_push []) pool.store log (.ok ()) s' ∧
      pending_sum s' "k" - pending_sum pool.store "k" =
        ((s'.lists (topic_list "t" "k")).length : Int) - (pool.store.lists (topic_list "t" "k")).length := by
  obtain ⟨pool,reach,registered⟩ := one_instance_running
  have ended : (((post_k [0]).call.faulted is_push []).leaves exec one_instance).2 = some (.ok ()) := by decide +kernel
  obtain ⟨log,run⟩ := leaves_runs ended
  rw [← registered] at run
  have agrees := (growth_agrees_iff reach (post_k_packed [0]) [] (by simp) run).mpr rfl
  have topic : (post_k [0]).topic = "t" := rfl
  rw [topic] at agrees
  exact ⟨pool, reach, log, _, run, agrees⟩

/-- When the first push fails and the second does not, two messages are counted and one is pushed. -/
theorem failed_push_counted_twice : ∃ pool : Actors, Running loads_two pool ∧ (post_k [0, 0]).Packed "k" ∧
    ∃ log s', Runs exec ((post_k [0, 0]).call.faulted is_push [.RedisError]) pool.store log (.ok ()) s' ∧
      pending_sum s' "k" - pending_sum pool.store "k" = 2 ∧
      ((s'.lists (topic_list "t" "k")).length : Int) - (pool.store.lists (topic_list "t" "k")).length = 1 := by
  obtain ⟨pool,reach,registered⟩ := one_instance_running
  have ended : (((post_k [0, 0]).call.faulted is_push [.RedisError]).leaves exec one_instance).2 = some (.ok ()) := by
    decide +kernel
  have counted : pending_sum (((post_k [0, 0]).call.faulted is_push [.RedisError]).leaves exec one_instance).1 "k" -
      pending_sum one_instance "k" = 2 := by decide +kernel
  have appended : (((((post_k [0, 0]).call.faulted is_push [.RedisError]).leaves exec one_instance).1.lists
      (topic_list "t" "k")).length : Int) - (one_instance.lists (topic_list "t" "k")).length = 1 := by decide +kernel
  obtain ⟨log,run⟩ := leaves_runs ended
  rw [← registered] at run counted appended
  exact ⟨pool, reach, post_k_packed [0, 0], log, _, run, counted, appended⟩

end AcapyRedis.Counting
