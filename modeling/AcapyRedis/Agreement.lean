import AcapyRedis.Counting

/-!
The producers and the consumer of the inbound queue. With a registered instance a call
ends and leaves a registered one (`process_payload_serves`), so a producer ends, also after
failed pushes, with one more record in the list of the joined key (`send_ends`). An instance
pops that list and gives the payload of the record to its session (`poll_key_first`);
`producers_agree` puts the two together for a packed message.
-/
namespace AcapyRedis.Agreement
open AcapyRedis.Programs AcapyRedis.Programs.Program AcapyRedis.Python AcapyRedis.RedisStore AcapyRedis.Utils
open AcapyRedis.Inbound AcapyRedis.Sharding AcapyRedis.Base64 AcapyRedis.Records AcapyRedis.Handlers AcapyRedis.Counting

/-! ### A call with a registered instance -/

/-- `s'` comes from `s` by commands of a call, and some instance is registered. -/
structure Serves (s s' : Store) : Prop where
  lists : s'.lists = s.lists
  uids : s'.uid_recip_keys_map.keys ≠ []

theorem insert_uids {h : Hash Uid (List RecipKey)} (u : Uid) (ks : List RecipKey) : (h.insert u ks).keys ≠ [] :=
  List.ne_nil_of_mem (AList.mem_keys.mp ((AList.mem_insert _).mpr (.inl rfl)))

theorem assign_serves {post : Except PyError Uid → Store → Prop} (patience : Nat) (k : RecipKey) {s : Store}
    (some_uid : s.uid_recip_keys_map.keys ≠ []) (ends : ∀ u s', Serves s s' → post (.ok u) s') :
    Ends exec post (assign_recip_key_to_new_uid (patience+1) k) s := by
  rw [assign_recip_key_to_new_uid,ends_bind]
  apply get_new_valid_uid_ends none patience s some_uid
  intro u n _
  simp only [get_recip_keys_list_for_uid,continues_ok,ends_bind,Program.call,ends_command,ends_done,exec,Program.pure_eq]
  intro _ _
  split
  · simp only [ends_bind,ends_command,ends_done,continues_ok,exec]
    exact fun _ _ => ends u _ ⟨rfl, insert_uids u _⟩
  · simp only [ends_bind,ends_command,ends_done,continues_ok,exec]
    exact fun _ => ends u _ ⟨rfl,some_uid⟩

/-- After a key was taken from `old`, another uid is registered or `old` has a key. -/
structure Spared (old : Uid) (s s' : Store) : Prop extends Serves s s' where
  spared : s'.recip_keys old = [] → ∃ v ∈ s'.uid_recip_keys_map, v ≠ old

theorem reassign_spares {post : Except PyError Uid → Store → Prop} (patience : Nat) (old : Uid) (k : RecipKey)
    {s : Store} (some_uid : s.uid_recip_keys_map.keys ≠ []) (ends : ∀ u s', Spared old s s' → post (.ok u) s') :
    Ends exec post (reassign_recip_key_to_uid (patience+1) old k) s := by
  rw [reassign_recip_key_to_uid,ends_bind]
  apply get_new_valid_uid_ends (some old) patience s some_uid
  intro new n _
  simp only [get_recip_keys_list_for_uid,continues_ok,ends_bind,Program.call,ends_command,ends_done,exec,Program.pure_eq]
  intro _ _ lost _ _ _ gained
  -- the list of the new uid holds the key, whatever it held before
  have spared : ∀ s' : Store, s'.lists = s.lists → s'.uid_recip_keys_map = (s.uid_recip_keys_map.insert old
      (arranged lost.recip_keys (((s.uid_recip_keys_map.lookup old).getD []).dedup.erase k))).insert new
      (arranged gained.recip_keys (((s.uid_recip_keys_map.lookup new).getD []).dedup.insert k)) → Spared old s s' := by
    intro s' lists uids
    refine ⟨⟨lists, by rw [uids]; exact insert_uids new _⟩, fun empty => ?_⟩
    refine ⟨new, by rw [uids]; exact (AList.mem_insert _).mpr (.inl rfl), ?_⟩
    rintro rfl
    have member : k ∈ s'.recip_keys new := by
      rw [Store.recip_keys,uids,AList.lookup_insert,Option.getD_some,mem_arranged]
      exact List.mem_insert_self
    rw [empty] at member
    cases member
  cases count : s.uid_recip_key_pending_msg_count.lookup (uid_recip_key old k) with
  | none => exact ends new _ (spared _ rfl rfl)
  | some count =>
    simp only [ends_bind,ends_command,ends_done,continues_ok,exec]
    exact fun _ => ends new _ (spared _ rfl rfl)

theorem reassign_all_spares {post : Except PyError Uid → Store → Prop} (patience : Nat) (old : Uid) (key : RecipKey)
    {ks : List RecipKey} (some_key : ks ≠ []) (plugin_uid : Uid) {s : Store}
    (some_uid : s.uid_recip_keys_map.keys ≠ []) (ends : ∀ u s', Spared old s s' → post (.ok u) s') :
    Ends exec post (reassign_all (patience+1) old key plugin_uid ks) s := by
  induction ks generalizing plugin_uid s with
  | nil => exact absurd rfl some_key
  | cons k rest ih =>
    rw [reassign_all,ends_bind]
    apply reassign_spares patience old k some_uid
    intro u s' first
    cases rest with
    | nil => exact ends _ s' first
    | cons l rest =>
      refine ih (by simp) _ first.uids (fun v s'' second => ?_)
      exact ends v s'' ⟨⟨second.lists.trans first.lists, second.uids⟩, second.spared⟩

theorem evacuate_serves {post : Except PyError Uid → Store → Prop} (patience : Nat) (old : Uid) (key : RecipKey)
    {s : Store} (some_uid : s.uid_recip_keys_map.keys ≠ []) (ends : ∀ u s', Serves s s' → post (.ok u) s') :
    Ends exec post (evacuate (patience+1) old key) s := by
  simp only [evacuate,get_recip_keys_list_for_uid,ends_bind,Program.call,ends_command,ends_done,continues_ok,exec,
    Program.pure_eq]
  intro _
  apply any_pending_ends
  cases pending : hasPending s old ((s.uid_recip_keys_map.lookup old).getD []) with
  | false => exact ends old s ⟨rfl,some_uid⟩
  | true =>
    have some_key : (s.uid_recip_keys_map.lookup old).getD [] ≠ [] := by
      intro none
      simp [none,hasPending] at pending
    simp only [continues_ok,↓reduceIte,ends_bind]
    apply reassign_all_spares patience old key some_key old some_uid
    intro u s' spared
    simp only [continues_ok,ends_bind,ends_command,ends_done,exec]
    intro _
    split
    · next empty =>
      simp only [ends_bind,ends_command,ends_done,continues_ok,exec]
      intro _
      obtain ⟨v,there,other⟩ := spared.spared (List.isEmpty_iff.mp empty)
      refine ends u _ ⟨spared.lists, List.ne_nil_of_mem (a := v) ?_⟩
      exact AList.mem_keys.mp (AList.mem_erase.mpr ⟨other,there⟩)
    · exact ends u s' spared.toServes

/-- With a registered instance a call ends and leaves one. -/
theorem process_payload_serves {json_loads : Bytes ⊕ Text → Except PyError Json} {payload : Bytes} {k : RecipKey}
    (key : recip_key_of json_loads payload = .ok k) {topic : String}
    {post : Except PyError (String × Entry) → Store → Prop} (patience : Nat) (now : Int) {s : Store}
    (some_uid : s.uid_recip_keys_map.keys ≠ [])
    (ends : ∀ s', Serves s s' → post (.ok (topic_list topic k, .inbound payload none)) s') :
    Ends exec post (process_payload_recip_key json_loads (patience+1) now payload topic) s := by
  have located : ∀ (u : Uid) (s' : Store), Serves s s' →
      Ends exec (Continues exec post (fun _ => .done (topic_list topic k, .inbound payload none))) (do
        let last_accessed_map_value ← redis (.hget_last_access u)
        let plugin_uid ← if stale_uid_check now last_accessed_map_value then evacuate (patience+1) u k else pure u
        redis (.hincrby_pending (uid_recip_key plugin_uid k) 1)) s' := by
    intro u s' first
    simp only [ends_bind,Program.call,ends_command,ends_done,continues_ok,exec]
    intro _
    split
    · rw [ends_bind]
      apply evacuate_serves patience u k first.uids
      exact fun v s'' second _ => ends _ ⟨second.lists.trans first.lists, second.uids⟩
    · exact fun _ => ends _ ⟨first.lists,first.uids⟩
  simp only [process_payload_recip_key,key,ends_bind,process_recip_key,find_or_assign,Program.call,ends_command,
    ends_done,continues_ok,exec,Program.pure_eq]
  intro _
  cases owner : s.recip_key_uid_map.lookup k with
  | some u =>
    simp only [Option.isSome_some,↓reduceIte,ends_bind,ends_command,ends_done,continues_ok,exec,owner]
    intro _
    exact located u s ⟨rfl,some_uid⟩
  | none =>
    simp only [Option.isSome_none,Bool.false_eq_true,↓reduceIte]
    apply assign_serves patience k some_uid
    exact fun u s' first => located u s' first

/-- The record was appended to the list, and no other list was changed. -/
def Enqueued (list : String) (entry : Entry) (s s' : Store) : Prop :=
  s'.lists = Function.update s.lists list (s.lists list ++ [entry])

/-- A push loop with more tries than failures ends and has pushed the message once. -/
theorem send_ends {β : Type} {post : Except PyError β → Store → Prop} (self : Handler) {payload : Bytes}
    {k : RecipKey} (key : recip_key_of self.json.loads payload = .ok k) (message : Entry) (rest : Unit → Redis β)
    (readings : List Int) (errors : List PyError) (caught : ∀ error ∈ errors, PushError error)
    (tries : errors.length < readings.length) {s : Store} (some_uid : s.uid_recip_keys_map.keys ≠ [])
    (ends : ∀ s', Enqueued (topic_list self.inbound_topic k) message s s' → Ends exec post (rest ()) s') :
    Ends exec post ((self.send payload message readings >>= rest).faulted is_push errors) s := by
  induction readings generalizing errors s with
  | nil => simp at tries
  | cons now later ih =>
    rw [Handler.send,bind_bind,process_payload_faulted,ends_bind]
    apply process_payload_serves key self.patience now some_uid
    intro s₁ served
    cases errors with
    | nil =>
      simp only [continues_ok,faulted_nil,Program.call,Program.attempt,command_bind,done_bind,ends_command,exec]
      exact fun _ => ends _ (by simp [Enqueued,served.lists])
    | cons error errors =>
      have again : Ends exec post ((self.send payload message later >>= rest).faulted is_push errors) s₁ := by
        refine ih errors (fun other member => caught other (List.mem_cons_of_mem _ member)) ?_ served.uids ?_
        · simpa using tries
        · intro s' enqueued
          exact ends s' (by rw [Enqueued,enqueued,served.lists])
      obtain rfl | rfl := caught error List.mem_cons_self
      · exact again
      · exact again

/-! ### The consumer -/

/-- What an instance does with a message of a key that it has popped. -/
def handling (self : RedisInboundTransport) (recip_key : RecipKey) (payload : Bytes) (txn_id : Option Text) :
    Redis Unit := do
  redis (.hset_last_access self.plugin_uid (self.clock recip_key))
  match ← redis (.hget_pending (uid_recip_key self.plugin_uid recip_key)) with
  | some count =>
    if 1 ≤ count then
      redis (.hset_pending (uid_recip_key self.plugin_uid recip_key) (count - 1))
    self.receive payload txn_id
  | none => self.receive payload txn_id

/-- The turn of a key pops the first record of the list of the key and hands over what it holds. -/
theorem poll_key_first (self : RedisInboundTransport) {k : RecipKey} {payload : Bytes} {txn_id : Option Text}
    {rest : List Entry} {s : Store} (first : s.lists (topic_list self.inbound_topic k) = .inbound payload txn_id :: rest)
    (post : Except PyError Unit → Store → Prop) :
    Ends exec post (self.poll_key k) s ↔ Ends exec post (handling self k payload txn_id)
      { s with lists := Function.update s.lists (topic_list self.inbound_topic k) rest } := by
  rw [RedisInboundTransport.poll_key,ends_bind,pop_message_ends,first]
  rfl

/-! ### Packed messages -/

theorem text_append (a b : String) : text (a ++ b) = text a ++ text b := by
  simp [text]

/-- Joining strings as Python does. -/
theorem joinText_strings (separator : String) (values : List String) :
    joinText (text separator) (values.map (fun value => .str (text value))) =
      .ok (text (String.intercalate separator values)) := by
  induction values with
  | nil => rfl
  | cons first rest ih =>
    cases rest with
    | nil => simp [joinText]
    | cons second rest =>
      simp only [List.map_cons] at ih ⊢
      rw [joinText,ih,ok_bind,pure_ok,String.intercalate_cons_cons,text_append,text_append]
      simp

/-- A packed message, by what it is as text and JSON: its protected header is base64 of an
    ASCII text with or without the padding, which lists recipients, and its `~transport` is
    absent or an object. -/
structure PackedMessage (json : JsonModule) (payload : Bytes) where
  value : Text
  decoded : payload.decode = .ok value
  fields : List (Text × Json)
  loads : json.loads (.inl payload) = .ok (.obj fields)
  loads_text : json.loads (.inr value) = .ok (.obj fields)
  header : Bytes
  ascii : ∀ byte ∈ header, byte.toNat < 128
  padded : Bool
  protected_header : (Json.obj fields).getItem "protected" =
    .ok (.str (if padded then b64_text header else (unpadded header).map UInt8.toNat))
  outer : Json
  header_loads : json.loads (.inr (header.map UInt8.toNat)) = .ok outer
  recipients : List Json
  recipients_of : outer.getItem "recipients" = .ok (.arr recipients)
  kids : List String
  kids_of : (recipients.mapM fun recip => do (← recip.getItem "header").getItem "kid") =
    .ok (kids.map (fun kid => .str (text kid)))
  transport : (Json.obj fields).get "~transport" = .ok .null ∨
    ∃ transport, (Json.obj fields).get "~transport" = .ok (.obj transport)

namespace PackedMessage
variable {json : JsonModule} {payload : Bytes}

/-- The joined key. -/
def key (message : PackedMessage json payload) : RecipKey := String.intercalate "," message.kids

/-- The `return_route` of the message is truthy and not `none`. -/
def Asks (message : PackedMessage json payload) : Prop :=
  ∃ transport mode, (Json.obj message.fields).get "~transport" = .ok (.obj transport) ∧
    (Json.obj transport).get "return_route" = .ok mode ∧ mode.truthy = true ∧ mode.isText "none" = false

theorem header_decodes (message : PackedMessage json payload) :
    b64_of_json (.str (if message.padded then b64_text message.header else (unpadded message.header).map UInt8.toNat)) =
      .ok message.header := by
  rw [b64_of_json]
  cases message.padded with
  | true => exact b64_to_bytes_encode message.header
  | false => exact b64_to_bytes_unpadded message.header

theorem decodeAscii_header (message : PackedMessage json payload) :
    message.header.decodeAscii = .ok (message.header.map UInt8.toNat) :=
  if_pos (List.all_eq_true.mpr (fun byte member => decide_eq_true (message.ascii byte member)))

/-- The helper takes the joined key from the message. -/
theorem recip_key (message : PackedMessage json payload) : recip_key_of json.loads payload = .ok message.key := by
  have kids : _recipients_from_packed_message json.loads payload =
      .ok (message.kids.map (fun kid => .str (text kid))) := by
    simp only [_recipients_from_packed_message,message.loads,message.protected_header,message.header_decodes,
      message.decodeAscii_header,message.header_loads,message.recipients_of,Json.elements,ok_bind]
    exact message.kids_of
  simp only [recip_key_of,kids,joinText_strings,ok_bind,text_encode,key]

/-- The handlers find out whether the message asks for a direct response. -/
theorem asks (message : PackedMessage json payload) :
    ∃ requested, direct_response_request (.obj message.fields) = .ok requested ∧ (requested = true ↔ message.Asks) := by
  obtain absent | ⟨transport,there⟩ := message.transport
  · refine ⟨false, by simp [direct_response_request,absent,Json.truthy,ok_bind,pure_ok], ?_⟩
    simp [Asks,absent]
  · have found : ∃ mode, (Json.obj transport).get "return_route" = .ok mode := ⟨_,rfl⟩
    obtain ⟨mode,route⟩ := found
    cases transport with
    | nil =>
      refine ⟨false, by simp [direct_response_request,there,Json.truthy,ok_bind,pure_ok], ?_⟩
      refine ⟨fun asked => absurd asked (by decide), ?_⟩
      rintro ⟨other,mode',there',route',truthy,_⟩
      rw [there] at there'
      cases there'
      cases route'
      cases truthy
    | cons field rest =>
      refine ⟨mode.truthy && !mode.isText "none", ?_, ?_⟩
      · simp [direct_response_request,there,route,Json.truthy,ok_bind,pure_ok]
      · simp [Asks,there,route]

end PackedMessage

/-! ### Both ends -/

/-- A request with the message as its body, whose charset is UTF-8 or absent. -/
def Request.utf8 (content_type : Text) (payload : Bytes) : Request := ⟨content_type, payload, payload.decode⟩

/-- The request gives the message back, as text or as bytes. -/
theorem utf8_body {json : JsonModule} {payload : Bytes} (message : PackedMessage json payload) (content_type : Text) :
    ∃ data, (Request.utf8 content_type payload).body = .ok data ∧ message_data data = .ok payload ∧
      message_dict json data = .ok (.obj message.fields) := by
  unfold Request.body
  split
  · exact ⟨.inl message.value, by rw [Request.utf8,message.decoded]; rfl, utf8_decode message.decoded, message.loads_text⟩
  · exact ⟨.inr payload, rfl, rfl, message.loads⟩

/-- The producer is an HTTP relay or a mediator, is given the message for the topic, and its
    record is read back as it was written. -/
def Given (json : JsonModule) (topic : String) (payload : Bytes) : Producer → Prop
  | .http self request txn_id _ _ => self.json = json ∧ self.inbound_topic = topic ∧
      (∃ content_type, request = Request.utf8 content_type payload) ∧
      Faithful json (relay_record payload none "http") ∧ Faithful json (relay_record payload (some txn_id) "http")
  | .ws _ _ _ _ _ => False
  | .mediator self _ data endpoint _ _ _ => self.json = json ∧ self.outbound_topic = topic ∧ self.is_mediator = true ∧
      endpoint ≠ [] ∧ message_data data = .ok payload ∧ Faithful json (payload_record payload)

/-- A relay has more tries than pushes fail, and the push of a mediator does not fail. -/
def Succeeds (errors : List PyError) : Producer → Prop
  | .http _ _ _ readings _ => errors.length < readings.length
  | .ws _ _ _ readings _ => errors.length < readings.length
  | .mediator _ _ _ _ _ _ _ => errors = []

def is_relay : Producer → Bool
  | .mediator _ _ _ _ _ _ _ => false
  | _ => true

/-- The record that a producer pushes. -/
def record_of (payload : Bytes) (txn_id : Option Text) : Producer → Json
  | .http _ _ _ _ _ => relay_record payload txn_id "http"
  | .ws _ _ _ _ _ => relay_record payload txn_id "ws"
  | .mediator _ _ _ _ _ _ _ => payload_record payload

theorem ofExcept_ends {α : Type} {post : Except PyError α → Store → Prop} (result : Except PyError α) {s : Store}
    (ends : ∀ outcome, post outcome s) : Ends exec post (ofExcept result) s := by
  cases result <;> exact ends _

/-- What a producer pushes, and where. -/
theorem producer_enqueues {json : JsonModule} {payload : Bytes} (message : PackedMessage json payload) {topic : String}
    {producer : Producer} (given : Given json topic payload producer) {errors : List PyError}
    (caught : ∀ error ∈ errors, PushError error) (succeeds : Succeeds errors producer) {s : Store}
    (some_uid : s.uid_recip_keys_map.keys ≠ []) :
    ∃ txn_id : Option Text, (txn_id.isSome ↔ is_relay producer = true ∧ message.Asks) ∧
      entry_of json (record_of payload txn_id producer) = .ok (.inbound payload txn_id) ∧
      Ends exec (fun _ s' => Enqueued (topic_list topic message.key) (.inbound payload txn_id) s s')
        (producer.call.faulted is_push errors) s := by
  cases producer with
  | http self request txn_id readings waited =>
    obtain ⟨rfl,rfl,⟨content_type,rfl⟩,plain,direct⟩ := given
    obtain ⟨data,body,encodes,dict⟩ := utf8_body message content_type
    obtain ⟨requested,asks,iff⟩ := message.asks
    have faithful : Faithful self.json (relay_record payload (if requested then some txn_id else none) "http") := by
      cases requested <;> assumption
    have entry := entry_of_relay_record faithful
    refine ⟨if requested then some txn_id else none, ?_, entry, ?_⟩
    · rw [← iff]
      cases requested <;> simp [is_relay]
    · simp only [Producer.call,http_forwards,body,Handler.forward,encodes,dict,asks,entry,ofExcept_ok,done_bind,bind_bind,
        Program.pure_eq]
      apply send_ends self message.recip_key _ _ readings errors caught succeeds some_uid
      intro s' enqueued
      cases requested with
      | true =>
        simp only [↓reduceIte,ends_bind]
        refine ofExcept_ends _ (fun outcome => ?_)
        cases outcome <;> exact enqueued
      | false => exact enqueued
  | ws => exact given.elim
  | mediator self emit_new_didcomm_mime_type data endpoint metadata api_key now =>
    obtain ⟨rfl,rfl,mediates,endpoint_given,encodes,faithful⟩ := given
    obtain ⟨first,written⟩ := entry_of_ok self.json (outbound_record endpoint payload
      (self.headers emit_new_didcomm_mime_type metadata api_key data))
    refine ⟨none, by simp [is_relay], entry_of_payload_record faithful, ?_⟩
    simp only [Producer.call,RedisOutboundQueue.handle_message,endpoint_given,mediates,encodes,written,↓reduceIte,
      ofExcept_ok,done_bind,process_payload_faulted,ends_bind]
    apply process_payload_serves message.recip_key self.patience now some_uid
    intro s₁ served
    have all : errors = [] := succeeds
    subst all
    simp only [continues_ok,faulted_nil,Program.call,Program.attempt,command_bind,done_bind,ends_command,exec]
    exact fun _ => by simp [Enqueued,served.lists]

/-- With a registered instance a producer appends one record, to the list of the joined key
    under the topic; an instance that polls that key pops it and hands the payload to its
    session, and the record asks for a direct response exactly when a relay got a message
    that does. -/
theorem producers_agree {json : JsonModule} {payload : Bytes} (message : PackedMessage json payload) {topic : String}
    {producer : Producer} (given : Given json topic payload producer) {errors : List PyError}
    (caught : ∀ error ∈ errors, PushError error) (succeeds : Succeeds errors producer) {s : Store}
    (some_uid : s.uid_recip_keys_map.keys ≠ []) :
    ∃ txn_id : Option Text, (txn_id.isSome ↔ is_relay producer = true ∧ message.Asks) ∧
      entry_of json (record_of payload txn_id producer) = .ok (.inbound payload txn_id) ∧
      Ends exec (fun _ s' => Enqueued (topic_list topic message.key) (.inbound payload txn_id) s s')
        (producer.call.faulted is_push errors) s ∧
      ∀ (self : RedisInboundTransport) rest (g : Store) post, self.inbound_topic = topic →
        g.lists (topic_list topic message.key) = .inbound payload txn_id :: rest →
        (Ends exec post (self.poll_key message.key) g ↔ Ends exec post (handling self message.key payload txn_id)
          { g with lists := Function.update g.lists (topic_list topic message.key) rest }) := by
  obtain ⟨txn_id,asks,entry,ends⟩ := producer_enqueues message given caught succeeds some_uid
  refine ⟨txn_id, asks, entry, ends, ?_⟩
  rintro self rest g post rfl first
  exact poll_key_first self first post

/-! ### A message that asks for a direct response -/

def header_k : Bytes := (sample_text (recipients_json "k")).map UInt8.ofNat

theorem header_k_ascii : ∀ byte ∈ header_k, byte.toNat < 128 := by decide +kernel

theorem recipients_of_k : (recipients_json "k").getItem "recipients" =
    .ok (.arr [.obj [(text "header", .obj [(text "kid", .str (text "k"))])]]) := rfl

theorem kids_of_k : ([.obj [(text "header", .obj [(text "kid", .str (text "k"))])]].mapM fun recip : Json => do
    (← recip.getItem "header").getItem "kid") = .ok (["k"].map (fun kid => .str (text kid))) := rfl

def asking_json : List (Text × Json) :=
  [(text "protected", .str (b64_text header_k)), (text "~transport", .obj [(text "return_route", .str (text "all"))])]

def asking_k : Bytes := (sample_text (.obj asking_json)).map UInt8.ofNat

def asking_records : List Json :=
  [.obj asking_json, recipients_json "k", relay_record asking_k none "http",
    relay_record asking_k (some (text "x")) "http"]

theorem asking_reads : ReadsBack asking_records 0 (.obj asking_json) := by decide +kernel

theorem header_reads : ReadsBack asking_records 1 (recipients_json "k") := by decide +kernel

theorem plain_record_reads : ReadsBack asking_records 2 (relay_record asking_k none "http") := by decide +kernel

theorem direct_record_reads : ReadsBack asking_records 3 (relay_record asking_k (some (text "x")) "http") := by
  decide +kernel

def asking_message : PackedMessage (sample_json asking_records) asking_k where
  value := sample_text (.obj asking_json)
  decoded := by decide +kernel
  fields := asking_json
  loads := sample_loads_bytes rfl asking_reads
  loads_text := sample_loads_text rfl asking_reads
  header := header_k
  ascii := header_k_ascii
  padded := true
  protected_header := by rfl
  outer := recipients_json "k"
  header_loads := sample_loads_text rfl header_reads
  recipients := [.obj [(text "header", .obj [(text "kid", .str (text "k"))])]]
  recipients_of := recipients_of_k
  kids := ["k"]
  kids_of := kids_of_k
  transport := .inr ⟨[(text "return_route", .str (text "all"))], by rfl⟩

theorem asking_asks : asking_message.Asks :=
  ⟨[(text "return_route", .str (text "all"))], .str (text "all"), by rfl, by rfl, by decide, by decide⟩

/-- An HTTP relay that gets the message as JSON; its run is not to be computed. -/
@[irreducible] def asking_post : Producer :=
  .http ⟨sample_json asking_records, "t", 0⟩ (Request.utf8 (text "Application/JSON; charset=utf-8") asking_k) (text "x")
    [0, 0] .timeout

theorem asking_given : Given (sample_json asking_records) "t" asking_k asking_post := by
  unfold asking_post
  exact ⟨rfl, rfl, ⟨_, rfl⟩, sample_faithful rfl plain_record_reads, sample_faithful rfl direct_record_reads⟩

/-- The first push fails. -/
theorem producers_agree_asking : ∃ txn_id : Option Text, txn_id.isSome ∧
    Ends exec (fun _ s' => Enqueued (topic_list "t" asking_message.key) (.inbound asking_k txn_id) one_instance s')
      (asking_post.call.faulted is_push [.RedisError]) one_instance := by
  have caught : ∀ error ∈ [PyError.RedisError], PushError error := fun error member => .inl (List.mem_singleton.mp member)
  have succeeds : Succeeds [.RedisError] asking_post := by
    unfold asking_post
    exact (by decide : 1 < 2)
  have relay : is_relay asking_post = true := by
    unfold asking_post
    rfl
  have some_uid : one_instance.uid_recip_keys_map.keys ≠ [] := by decide
  obtain ⟨txn_id,asks,_,ends,_⟩ :=
    producers_agree asking_message asking_given caught succeeds some_uid
  exact ⟨txn_id, asks.mpr ⟨relay,asking_asks⟩, ends⟩

end AcapyRedis.Agreement
