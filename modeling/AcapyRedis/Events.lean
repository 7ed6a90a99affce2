import AcapyRedis.Programs
import AcapyRedis.Records
import Mathlib.Data.List.AList

/-!
The events of `redis_queue/v1_0/events/__init__.py`: the bus gives an event to `handle_event`
once for every subscribed pattern that matches its topic, and `handle_event` pushes the
event and then a webhook for every url. The state of Redis is what was pushed.
-/
namespace AcapyRedis.Events
open AcapyRedis.Programs AcapyRedis.Programs.Program AcapyRedis.Python AcapyRedis.Base64 AcapyRedis.Records

/-! ### Redis -/

/-- `RPUSH` of the JSON of a record. -/
inductive Push
  | rpush (list : String) (record : Json)

/-- What was pushed, in order. -/
abbrev Pushes := List (String × Json)

def exec : (c : Push) → Unit → Pushes → Unit × Pushes
  | .rpush list record, _, pushes => ((), pushes ++ [(list, record)])

abbrev Publishing := Program Push (fun _ => Unit) PyError

/-- `redis.rpush` encodes the name of the list. -/
def rpush (list : Text) (record : Json) : Publishing Unit := do
  let list ← ofExcept list.encode
  Program.call (.rpush list record)

/-! ### Configuration -/

/-- A mapping of strings in its order. -/
abbrev Mapping := AList (fun _ : Text => Text)

structure EventConfig where
  event_topic_maps : Mapping
  event_webhook_topic_maps : Mapping
  deliver_webhook : Bool

/-- A mapping of the literals of a `dict`. -/
def literals (entries : List (String × String)) : List (Sigma (fun _ : Text => Text)) :=
  entries.map (fun entry => ⟨text entry.1, text entry.2⟩)

def EVENT_TOPIC_MAP : Mapping where
  entries := literals [
    ("^acapy::webhook::(.*)$", "acapy-webhook-$wallet_id"),
    ("^acapy::record::([^:]*)::([^:]*)$", "acapy-record-with-state-$wallet_id"),
    ("^acapy::record::([^:])?", "acapy-record-$wallet_id"),
    ("acapy::basicmessage::received", "acapy-basicmessage-received"),
    ("acapy::problem_report", "acapy-problem_report"),
    ("acapy::ping::received", "acapy-ping-received"),
    ("acapy::ping::response_received", "acapy-ping-response_received"),
    ("acapy::actionmenu::received", "acapy-actionmenu-received"),
    ("acapy::actionmenu::get-active-menu", "acapy-actionmenu-get-active-menu"),
    ("acapy::actionmenu::perform-menu-action", "acapy-actionmenu-perform-menu-action"),
    ("acapy::keylist::updated", "acapy-keylist-updated"),
    ("acapy::revocation-notification::received", "acapy-revocation-notification-received"),
    ("acapy::revocation-notification-v2::received", "acapy-revocation-notification-v2-received"),
    ("acapy::forward::received", "acapy-forward-received"),
    ("acapy::outbound-message::queued_for_delivery", "acapy-outbound-message-queued-for-delivery")]
  nodupKeys := by unfold List.NodupKeys; decide +kernel

def EVENT_WEBHOOK_TOPIC_MAP : Mapping where
  entries := literals [
    ("acapy::basicmessage::received", "basicmessages"),
    ("acapy::problem_report", "problem_report"),
    ("acapy::ping::received", "ping"),
    ("acapy::ping::response_received", "ping"),
    ("acapy::actionmenu::received", "actionmenu"),
    ("acapy::actionmenu::get-active-menu", "get-active-menu"),
    ("acapy::actionmenu::perform-menu-action", "perform-menu-action"),
    ("acapy::keylist::updated", "keylist")]
  nodupKeys := by unfold List.NodupKeys; decide +kernel

def EventConfig.default : EventConfig := ⟨EVENT_TOPIC_MAP, EVENT_WEBHOOK_TOPIC_MAP, true⟩

/-- The settings of a profile and its configuration. -/
structure Profile where
  wallet_id : Option Text
  webhook_urls : List Text
  config_events : EventConfig
  acapy_outbound_topic : String

/-- What the handler uses: Python's JSON, `str` of a value that is not a string, and whether a
    compiled pattern matches a prefix of a topic. -/
structure Toolbox where
  json : JsonModule
  str : Json → Text
  matches_prefix : (pattern topic : Text) → Bool

/-! ### Events -/

/-- What the payload of an event is to `process_event_payload`. -/
inductive Value
  /-- A `dict` of JSON values. -/
  | dict (fields : List (Text × Json))
  | data (value : Bytes ⊕ Text)
  | other

/-- The payload of an event, and what its method `serialize` and its attributes give. -/
structure EventPayload where
  value : Value
  serialize : Except PyError Json
  payload : Except PyError Value
  enc_payload : Except PyError Value

structure Event where
  topic : Text
  payload : EventPayload

def process_event_payload (json : JsonModule) : Value → Except PyError Json
  | .dict fields => .ok (.obj fields)
  | .data value => json.loads value
  | .other => .error .TypeError

/-- The payload by the first way that does not fail with the error that is caught. -/
def event_payload (json : JsonModule) (payload : EventPayload) : Except PyError Json :=
  match process_event_payload json payload.value with
  | .error .TypeError =>
    match payload.serialize with
    | .error .AttributeError =>
      match payload.payload >>= process_event_payload json with
      | .error .TypeError => payload.enc_payload >>= process_event_payload json
      | read => read
    | serialized => serialized
  | read => read

/-- `RECORD_RE` and `WEBHOOK_RE`; the braces of the latter are literal. -/
def _derive_category (topic : Text) : Json :=
  let record := text "acapy::record::"
  let webhook := text "acapy::webhook::\x7b"
  if record.isPrefixOf topic then .str ((topic.drop record.length).takeWhile (· ≠ 58))
  else if webhook.isPrefixOf topic && ((topic.drop webhook.length).takeWhile (· ≠ 10)).elem 125 then
    .str (text "webhook")
  else .null

/-! ### Templates -/

def idStart (point : Nat) : Bool := point = 95 || (65 ≤ point && point ≤ 90) || (97 ≤ point && point ≤ 122)
def idPart (point : Nat) : Bool := idStart point || (48 ≤ point && point ≤ 57)

/-- Where the scan of a template is; a name is the part of it that was read. -/
inductive Scan
  | text
  | dollar
  | named (name : Text)
  | braced (name : Text)

/-- `Template(template).substitute(**values)` with the values as strings: `ValueError` at a `$`
    without a placeholder and `KeyError` at an unknown name. -/
def substitute (values : List (Text × Text)) : Scan → Text → Except PyError Text
  | .text, [] => .ok []
  | .text, point :: rest =>
    if point = 36 then substitute values .dollar rest
    else do return point :: (← substitute values .text rest)
  | .dollar, [] => .error .ValueError
  | .dollar, point :: rest =>
    if point = 36 then do return 36 :: (← substitute values .text rest)
    else if point = 123 then substitute values (.braced []) rest
    else if idStart point then substitute values (.named [point]) rest
    else .error .ValueError
  | .named name, [] => value name
  | .named name, point :: rest =>
    if idPart point then substitute values (.named (name ++ [point])) rest
    else do
      let value ← value name
      return value ++ (← if point = 36 then substitute values .dollar rest
        else do return point :: (← substitute values .text rest))
  | .braced _, [] => .error .ValueError
  | .braced name, point :: rest =>
    if point = 125 && name ≠ [] then do
      let value ← value name
      return value ++ (← substitute values .text rest)
    else if (if name = [] then idStart point else idPart point) then substitute values (.braced (name ++ [point])) rest
    else .error .ValueError
where
  value (name : Text) : Except PyError Text :=
    match values.find? (fun entry => entry.1 = name) with
    | some entry => .ok entry.2
    | none => .error .KeyError

/-! ### The handler -/

/-- `wallet_id` if it is not `None` or empty. -/
def Profile.wallet (profile : Profile) : Option Text := profile.wallet_id.filter (· ≠ [])

/-- The headers that name the wallet. -/
def Profile.metadata (profile : Profile) : List (Text × Json) :=
  profile.wallet.toList.map (fun wallet_id => (text "x-wallet-id", .str wallet_id))

/-- The `dict` that an event is sent as. -/
def event_fields (profile : Profile) (topic : Text) (state event_payload : Json) : List (Text × Json) :=
  [(text "wallet_id", .str (profile.wallet.getD (text "base"))), (text "state", state), (text "topic", .str topic),
    (text "category", _derive_category topic), (text "payload", event_payload)]

/-- `str(value)`. -/
def Toolbox.str_of (tools : Toolbox) : Json → Text
  | .str value => value
  | value => tools.str value

/-- The list that an event is pushed to. -/
def Toolbox.redis_topic (tools : Toolbox) (template : Text) (payload : List (Text × Json)) : Except PyError Text :=
  substitute (payload.map (fun field => (field.1, tools.str_of field.2))) .text template

/-- What `endpoint.split("#")` gives at the first two positions. -/
def split_hash (endpoint : Text) : Text × Option Text :=
  (endpoint.takeWhile (· ≠ 35), if endpoint.elem 35 then some (((endpoint.dropWhile (· ≠ 35)).drop 1).takeWhile (· ≠ 35))
    else none)

/-- The url of a webhook; a topic that is not mapped is written as `None`. -/
def webhook_url (base : Text) (webhook_topic : Option Text) : Text :=
  base ++ text "/topic/" ++ webhook_topic.getD (text "None") ++ text "/"

/-- The record of a webhook. Only a missing key is put into the headers. -/
def webhook_record (tools : Toolbox) (profile : Profile) (payload : Json) (webhook_topic : Option Text) (endpoint : Text) :
    Except PyError Json := do
  let (base, api_key) := split_hash endpoint
  let headers := match api_key with
    | none => setItem (text "x-api-key") .null profile.metadata
    | some [] => setItem (text "x-api-key") (.str []) profile.metadata
    | some _ => profile.metadata
  return .obj [(text "service", .obj [(text "url", .str (webhook_url base webhook_topic))]),
    (text "payload", .str (b64_text (← (tools.json.dumps payload).utf8))), (text "headers", .obj headers)]

/-- The loop over the urls. -/
def deliver_webhooks (tools : Toolbox) (profile : Profile) (payload : Json) (webhook_topic : Option Text) :
    List Text → Publishing Unit
  | [] => return
  | endpoint :: later => do
    let outbound ← ofExcept (webhook_record tools profile payload webhook_topic endpoint)
    Program.call (.rpush profile.acapy_outbound_topic outbound)
    deliver_webhooks tools profile payload webhook_topic later

/-- What `except (RedisError, RedisClusterException, ValueError)` catches. -/
def logged : PyError → Bool
  | .RedisError => true
  | .RedisClusterException => true
  | .ValueError => true
  | .UnicodeEncodeError => true
  | .UnicodeDecodeError => true
  | .JSONDecodeError => true
  | .BinasciiError => true
  | .ValidationError => true
  | _ => false

/-- The pattern is that of the subscription. -/
def handle_event (tools : Toolbox) (profile : Profile) (event : Event) (pattern : Text) : Publishing Unit := do
  let event_payload ← ofExcept (event_payload tools.json event.payload)
  let state ← ofExcept (event_payload.get "state")
  let payload := event_fields profile event.topic state event_payload
  match ← (do
    let template ← ofExcept ((profile.config_events.event_topic_maps.lookup pattern).elim (.error .KeyError) .ok)
    let redis_topic ← ofExcept (tools.redis_topic template payload)
    rpush redis_topic (.obj [(text "payload", .obj payload), (text "metadata", .obj profile.metadata)])
    if profile.config_events.deliver_webhook && !profile.webhook_urls.isEmpty then
      deliver_webhooks tools profile (.obj payload) (profile.config_events.event_webhook_topic_maps.lookup event.topic)
        profile.webhook_urls
    : Publishing Unit).attempt with
  | .ok _ => return
  | .error err => if logged err then return else .raise err

/-- The bus gives the event to the subscribers and logs what they raise. -/
def notify (tools : Toolbox) (profile : Profile) (event : Event) : List Text → Publishing Unit
  | [] => return
  | pattern :: later => do
    if tools.matches_prefix pattern event.topic then do
      let _ ← (handle_event tools profile event pattern).attempt
    notify tools profile event later

/-- `setup` subscribes `handle_event` to the keys of the topic map. -/
def publish (tools : Toolbox) (profile : Profile) (event : Event) : Publishing Unit :=
  notify tools profile event profile.config_events.event_topic_maps.keys

/-! ### What is pushed -/

/-- The list that an invocation for a pattern pushes the event to, and its fields. -/
def event_push (tools : Toolbox) (profile : Profile) (event : Event) (pattern : Text) :
    Except PyError (String × List (Text × Json)) := do
  let event_payload ← event_payload tools.json event.payload
  let state ← event_payload.get "state"
  let payload := event_fields profile event.topic state event_payload
  let template ← (profile.config_events.event_topic_maps.lookup pattern).elim (.error .KeyError) .ok
  return (← (← tools.redis_topic template payload).encode, payload)

/-- The record of an event. -/
def event_record (profile : Profile) (payload : List (Text × Json)) : Json :=
  .obj [(text "payload", .obj payload), (text "metadata", .obj profile.metadata)]

/-- The urls that get a webhook of an event. -/
def Profile.hooked (profile : Profile) : List Text :=
  if profile.config_events.deliver_webhook then profile.webhook_urls else []

/-- The records of the webhooks of an event, one for each url. -/
def Hooked (tools : Toolbox) (profile : Profile) (event : Event) (payload : List (Text × Json)) (urls : List Text)
    (records : List Json) : Prop :=
  List.Forall₂ (fun endpoint record => webhook_record tools profile (.obj payload)
    (profile.config_events.event_webhook_topic_maps.lookup event.topic) endpoint = .ok record) urls records

/-- What an invocation pushes: the event and then its webhooks, or nothing. -/
def Sends (tools : Toolbox) (profile : Profile) (event : Event) (pattern : Text) (pushes : Pushes) : Prop :=
  match event_push tools profile event pattern with
  | .error _ => pushes = []
  | .ok (list, payload) => ∃ records, Hooked tools profile event payload profile.hooked records ∧
      pushes = (list, event_record profile payload) :: records.map (fun record => (profile.acapy_outbound_topic, record))

section
variable {tools : Toolbox} {profile : Profile} {event : Event}

theorem webhook_record_ok (tools : Toolbox) (profile : Profile) (payload : Json) (webhook_topic : Option Text)
    (endpoint : Text) : ∃ record, webhook_record tools profile payload webhook_topic endpoint = .ok record := by
  obtain ⟨bytes,encoded⟩ := tools.json.encodes payload
  rw [webhook_record,encoded]
  exact ⟨_,rfl⟩

theorem deliver_webhooks_pushes (payload : List (Text × Json)) (urls : List Text) (s : Pushes) :
    Ends exec (fun _ s' => ∃ records, Hooked tools profile event payload urls records ∧
        s' = s ++ records.map (fun record => (profile.acapy_outbound_topic, record)))
      (deliver_webhooks tools profile (.obj payload)
        (profile.config_events.event_webhook_topic_maps.lookup event.topic) urls) s := by
  induction urls generalizing s with
  | nil => exact ⟨[], .nil, (List.append_nil _).symm⟩
  | cons endpoint later ih =>
    obtain ⟨record,made⟩ := webhook_record_ok tools profile (.obj payload)
      (profile.config_events.event_webhook_topic_maps.lookup event.topic) endpoint
    simp only [deliver_webhooks,made,ofExcept_ok,done_bind,Program.call,command_bind,ends_command,exec]
    intro _
    refine (ih _).mono (fun outcome s' ends => ?_)
    obtain ⟨records,hooked,rfl⟩ := ends
    exact ⟨record :: records, .cons made hooked, by simp⟩

/-- The webhooks of an event, if there are any. -/
theorem hooked_pushes (payload : List (Text × Json)) (s : Pushes) :
    Ends exec (fun _ s' => ∃ records, Hooked tools profile event payload profile.hooked records ∧
        s' = s ++ records.map (fun record => (profile.acapy_outbound_topic, record)))
      (if profile.config_events.deliver_webhook && !profile.webhook_urls.isEmpty then
        deliver_webhooks tools profile (.obj payload)
          (profile.config_events.event_webhook_topic_maps.lookup event.topic) profile.webhook_urls
      else pure ()) s := by
  cases on : profile.config_events.deliver_webhook with
  | false =>
    rw [Profile.hooked,on]
    exact ⟨[], .nil, (List.append_nil s).symm⟩
  | true =>
    rw [Profile.hooked,on,if_pos rfl]
    cases profile.webhook_urls with
    | nil => exact ⟨[], .nil, (List.append_nil s).symm⟩
    | cons endpoint later => exact deliver_webhooks_pushes payload (endpoint :: later) s

/-- What a `try` of the handler has pushed stays, whether its error is caught or not. -/
theorem except_ends {p : Publishing Unit} {post : Pushes → Prop} {s : Pushes}
    (ends : Ends exec (fun _ s' => post s') p s) :
    Ends exec (fun _ s' => post s') (do
      match ← p.attempt with
      | .ok _ => return
      | .error err => if logged err then return else .raise err) s := by
  rw [ends_bind,ends_attempt]
  refine ends.mono (fun outcome s' holds => ?_)
  cases outcome with
  | ok value => exact holds
  | error err =>
    show Ends exec _ (if logged err = true then _ else _) s'
    split <;> exact holds

theorem sends_error {pattern : Text} (error : PyError) (raises : event_push tools profile event pattern = .error error)
    (s : Pushes) : ∃ pushes, Sends tools profile event pattern pushes ∧ s = s ++ pushes := by
  refine ⟨[], ?_, (List.append_nil s).symm⟩
  rw [Sends,raises]

/-- An invocation pushes what it sends, in every run. -/
theorem handle_event_pushes (tools : Toolbox) (profile : Profile) (event : Event) (pattern : Text) (s : Pushes) :
    Ends exec (fun _ s' => ∃ pushes, Sends tools profile event pattern pushes ∧ s' = s ++ pushes)
      (handle_event tools profile event pattern) s := by
  rw [handle_event]
  cases read : event_payload tools.json event.payload with
  | error error => exact sends_error error (by rw [event_push,read]; rfl) s
  | ok fields =>
    rw [ofExcept_ok,done_bind]
    cases stated : fields.get "state" with
    | error error => exact sends_error error (by rw [event_push,read,ok_bind,stated]; rfl) s
    | ok state =>
      rw [ofExcept_ok,done_bind]
      apply except_ends
      cases mapped : profile.config_events.event_topic_maps.lookup pattern with
      | none => exact sends_error .KeyError (by rw [event_push,read,ok_bind,stated,ok_bind,mapped]; rfl) s
      | some template =>
        simp only [Option.elim,ofExcept_ok,done_bind]
        cases substituted : tools.redis_topic template (event_fields profile event.topic state fields) with
        | error error =>
          exact sends_error error (by
            simp only [event_push,read,stated,mapped,substituted,Option.elim,ok_bind,error_bind]) s
        | ok redis_topic =>
          cases encoded : redis_topic.encode with
          | error error =>
            rw [ofExcept_ok,done_bind,rpush,encoded]
            exact sends_error error (by
              simp only [event_push,read,stated,mapped,substituted,encoded,Option.elim,ok_bind,error_bind]) s
          | ok list =>
            have pushed : event_push tools profile event pattern =
                .ok (list, event_fields profile event.topic state fields) := by
              simp only [event_push,read,stated,mapped,substituted,encoded,Option.elim,ok_bind,pure_ok]
            simp only [ofExcept_ok,done_bind,rpush,encoded,Program.call,command_bind,ends_command,exec]
            intro _
            refine (hooked_pushes _ _).mono (fun outcome s' ends => ?_)
            obtain ⟨records,hooked,rfl⟩ := ends
            refine ⟨_, ?_, List.append_assoc _ _ _⟩
            rw [Sends,pushed]
            exact ⟨records,hooked,rfl⟩
end

end AcapyRedis.Events
