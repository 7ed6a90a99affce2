import AcapyRedis.Records
import AcapyRedis.Commands
import AcapyRedis.Relays

/-!
The producers of inbound messages: `HttpRelay.message_handler` and
`WSRelay.message_handler` of `redis_relay/relay/relay.py`, and
`RedisOutboundQueue.handle_message` of `redis_queue/v1_0/outbound.py`. The two handlers
prepare and send a message in the same way (`Handler.forward`). A push loop makes a try
for every clock reading of a list and is still waiting when the readings run out.
-/
namespace AcapyRedis.Handlers
open AcapyRedis.Programs AcapyRedis.Programs.Program AcapyRedis.Python AcapyRedis.RedisStore AcapyRedis.Utils
open AcapyRedis.Records AcapyRedis.Commands AcapyRedis.Threads AcapyRedis.Threads.Discipline

/-! ### Messages -/

/-- A body or the data of a frame: text, or bytes. -/
abbrev Data := Text ⊕ Bytes

/-- `value.encode("utf-8")` for text. -/
def message_data : Data → Except PyError Bytes
  | .inl value => value.utf8
  | .inr value => .ok value

/-- `json.loads` on text or bytes. -/
def message_dict (json : JsonModule) : Data → Except PyError Json
  | .inl value => json.loads (.inr value)
  | .inr value => json.loads (.inl value)

/-- Whether a message asks for a direct response: the branch of both handlers on its `~transport`. -/
def direct_response_request (message_dict : Json) : Except PyError Bool := do
  let transport_dec ← message_dict.get "~transport"
  if transport_dec.truthy then
    let direct_response_mode ← transport_dec.get "return_route"
    return direct_response_mode.truthy && !direct_response_mode.isText "none"
  else return false

/-- How the wait of a handler for a direct response ends. -/
inductive Waited
  | found (entry : Relays.Entry)
  /-- The relay is not running and `get_direct_responses` returns `None`. -/
  | stopped
  | timeout

/-- What the handlers of a relay use: Python's JSON, the topic, and how often a call waits for
    an instance after the first time. -/
structure Handler where
  json : JsonModule
  inbound_topic : String
  patience : Nat

/-- A push loop: every try makes a call and pushes to the list that it returned. Only an
    error of the push is caught. -/
def Handler.send (self : Handler) (message_data : Bytes) (message : Entry) : List Int → Redis Unit
  | [] => .waiting
  | now :: later => do
    let (recip_key_incl_topic, _) ←
      process_payload_recip_key self.json.loads (self.patience+1) now message_data self.inbound_topic
    match ← (redis (.rpush recip_key_incl_topic message)).attempt with
    | .ok _ => return
    | .error .RedisError => self.send message_data message later
    | .error .RedisClusterException => self.send message_data message later
    | .error error => .raise error

/-- A push loop whose calls keep to a discipline pushes its entry last, to the list of the key. -/
theorem send_endures {G : Type} {D : Discipline Command Command.Reply G} {fails : PyError → Prop}
    {post : Except PyError Unit → G → Prop} (inv : G → Prop)
    (alone : ∀ g c, inv g → InCall c → D.may g c ∧ ∀ reply, inv (D.next g ⟨c, reply⟩))
    (raised : ∀ error g, post (.error error) g) (self : Handler) {message_data : Bytes} {message : Entry}
    (pushes : ∀ k g, inv g → recip_key_of self.json.loads message_data = .ok k →
      D.may g (.rpush (topic_list self.inbound_topic k) message) ∧
        ∀ reply, post (.ok ()) (D.next g ⟨.rpush (topic_list self.inbound_topic k) message, reply⟩))
    (readings : List Int) {g : G} (start : inv g) : D.Endures fails post (self.send message_data message readings) g :=
      by
  induction readings generalizing g with
  | nil => trivial
  | cons now later ih =>
    refine endures_bind
      (fun called g' => inv g' ∧ ∃ k, recip_key_of self.json.loads message_data = .ok k ∧
        called.1 = topic_list self.inbound_topic k)
      (endures_mono
        (process_payload_endures inv alone self.json.loads (self.patience+1) now message_data self.inbound_topic start)
        (fun outcome g' returned => ?_)) (fun called g' held => ?_)
    · cases outcome with
      | ok called =>
        obtain ⟨kept,_,keyed⟩ := returned called rfl
        exact ⟨kept,keyed⟩
      | error error => exact raised error g'
    · obtain ⟨list,entry⟩ := called
      obtain ⟨kept,k,key,rfl⟩ := held
      obtain ⟨may,ends⟩ := pushes k g' kept key
      refine ⟨may,fun reply _ => ends reply,fun error _ => ?_⟩
      cases error <;> first | exact ih kept | exact raised _ _

/-! ### HttpRelay -/

/-- What aiohttp gives of a request. -/
structure Request where
  /-- The `Content-Type` header, empty if there is none. -/
  content_type : Text
  read : Bytes
  /-- The body in the charset of the header. -/
  text : Except PyError Text

/-- `value.lower()`, where only ASCII letters matter. -/
def lower (value : Text) : Text := value.map (fun point => if 65 ≤ point ∧ point ≤ 90 then point + 32 else point)

def Request.body (request : Request) : Except PyError Data :=
  if lower (request.content_type.takeWhile (· ≠ 59)) = Python.text "application/json" then request.text.map .inl
  else .ok (.inr request.read)

/-- The arguments of `web.Response`. -/
structure HttpResponse where
  status : Nat
  content_type : Option Json
  text : Text

/-- The reply made of a direct response; an empty one gives none. -/
def HttpRelay.reply (response_data : Json) : Except PyError (Option HttpResponse) := do
  let response ← b64_of_json (← response_data.getItem "response")
  let content_type := (response_data.getItem "content_type").toOption.getD (.str (text "application/json"))
  if response = [] then return none
  else return some ⟨200, some content_type, ← response.decode⟩

/-- The end of `message_handler` after the wait. The stored request has no `response` either. -/
def HttpRelay.answer : Waited → Except PyError (Option HttpResponse)
  | .found (.response_data data) => HttpRelay.reply data
  | .found .request => .error .KeyError
  | .stopped => .error .TypeError
  | .timeout => .ok (some ⟨200, none, []⟩)

def HttpRelay.message_handler (self : Handler) (request : Request) (txn_id : Text) (readings : List Int)
    (waited : Waited) : Redis (Option HttpResponse) := do
  let body ← ofExcept request.body
  let message_data ← ofExcept (message_data body)
  let message_dict ← ofExcept (message_dict self.json body)
  let requested ← ofExcept (direct_response_request message_dict)
  if requested then do
    let message ← ofExcept (entry_of self.json (relay_record message_data (some txn_id) "http"))
    self.send message_data message readings
    ofExcept (HttpRelay.answer waited)
  else do
    let message ← ofExcept (entry_of self.json (relay_record message_data none "http"))
    self.send message_data message readings
    return some ⟨200, none, []⟩

/-! ### WSRelay -/

inductive Frame
  /-- A TEXT frame has text and a BINARY frame bytes. -/
  | message (data : Data)
  | error
  | other

/-- A frame and what its handling meets: a new `uuid4`, the clock and the wait. -/
structure Arrival where
  frame : Frame
  txn_id : Text
  readings : List Int
  waited : Waited

/-- What is sent back over the web socket. -/
def WSRelay.answer : Waited → Except PyError (List Bytes)
  | .found (.response_data data) => do
    let response ← b64_of_json (← data.getItem "response")
    return if response = [] then [] else [response]
  | .found .request => .error .KeyError
  | .stopped => .error .TypeError
  | .timeout => .ok []

/-- The body of the loop of `WSRelay.message_handler` on a received frame. -/
def WSRelay.receive (self : Handler) (arrival : Arrival) : Redis (List Bytes) :=
  match arrival.frame with
  | .message data => do
    let message_data ← ofExcept (message_data data)
    let message_dict ← ofExcept (message_dict self.json data)
    let requested ← ofExcept (direct_response_request message_dict)
    if requested then do
      let message ← ofExcept (entry_of self.json (relay_record message_data (some arrival.txn_id) "ws"))
      self.send message_data message arrival.readings
      ofExcept (WSRelay.answer arrival.waited)
    else do
      let message ← ofExcept (entry_of self.json (relay_record message_data none "ws"))
      self.send message_data message arrival.readings
      return []
  | .error => return []
  | .other => return []

/-- The first argument of `asyncio.wait`. -/
inductive WaitsFor
  /-- A future, such as a task. -/
  | future
  /-- An iterable of futures. -/
  | futures

/-- `asyncio.wait` needs an iterable of futures. -/
def asyncio_wait : WaitsFor → Except PyError Unit
  | .future => .error .TypeError
  | .futures => .ok ()

/-- The loop over the frames, the last of which closes the web socket. It handles a frame
    that `ws.receive()` got after `asyncio.wait` has returned. -/
def WSRelay.receive_all (self : Handler) (fs : WaitsFor) : List Arrival → Redis (List Bytes)
  | [] => do
    ofExcept (asyncio_wait fs)
    return []
  | arrival :: later => do
    ofExcept (asyncio_wait fs)
    let sent ← WSRelay.receive self arrival
    return sent ++ (← WSRelay.receive_all self fs later)

/-- `(inbound)` is the task itself. -/
def WSRelay.message_handler (self : Handler) (arrivals : List Arrival) : Redis (List Bytes) :=
  WSRelay.receive_all self .future arrivals

/-! ### What the handlers share -/

/-- Preparing a message and sending it; returns whether it asks for a direct response. -/
def Handler.forward (self : Handler) (transport_type : String) (data : Data) (txn_id : Text) (readings : List Int) :
    Redis Bool := do
  let message_data ← ofExcept (message_data data)
  let message_dict ← ofExcept (message_dict self.json data)
  let requested ← ofExcept (direct_response_request message_dict)
  let message ← ofExcept
    (entry_of self.json (relay_record message_data (if requested then some txn_id else none) transport_type))
  self.send message_data message readings
  return requested

theorem http_forwards (self : Handler) (request : Request) (txn_id : Text) (readings : List Int) (waited : Waited) :
    HttpRelay.message_handler self request txn_id readings waited = (do
      let body ← ofExcept request.body
      let requested ← self.forward "http" body txn_id readings
      if requested then ofExcept (HttpRelay.answer waited) else return some ⟨200, none, []⟩) := by
  simp only [HttpRelay.message_handler,Handler.forward,bind_bind]
  congr 1
  funext body
  congr 1
  funext message_data
  congr 1
  funext message_dict
  congr 1
  funext requested
  cases requested <;> rfl

theorem ws_forwards (self : Handler) (arrival : Arrival) {data : Data} (received : arrival.frame = .message data) :
    WSRelay.receive self arrival = (do
      let requested ← self.forward "ws" data arrival.txn_id arrival.readings
      if requested then ofExcept (WSRelay.answer arrival.waited) else return []) := by
  simp only [WSRelay.receive,received,Handler.forward,bind_bind]
  congr 1
  funext message_data
  congr 1
  funext message_dict
  congr 1
  funext requested
  cases requested <;> rfl

/-! ### RedisOutboundQueue -/

structure RedisOutboundQueue where
  json : JsonModule
  mime : MimeTypes
  outbound_topic : String
  is_mediator : Bool
  patience : Nat

/-- The headers of an outbound message. -/
def RedisOutboundQueue.headers (self : RedisOutboundQueue) (emit_new_didcomm_mime_type : Bool)
    (metadata : List (Text × Json)) (api_key : Option Text) (payload : Data) : List (Text × Json) :=
  let headers := match api_key with
    | some api_key => setItem (text "x-api-key") (.str api_key) metadata
    | none => metadata
  match payload with
  | .inr _ =>
    setItem (text "Content-Type") (.str (self.mime.value
      (if emit_new_didcomm_mime_type then .DIDCOMM_V1_MIME_TYPE else .DIDCOMM_V0_MIME_TYPE))) headers
  | .inl _ => setItem (text "Content-Type") (.str (text "application/json")) headers

/-- A mediator pushes the record of the call to the list that the call returned. Without one the
    entry is what an instance would read of the bytes that `Outbound.handle_message` pushes. -/
def RedisOutboundQueue.handle_message (self : RedisOutboundQueue) (emit_new_didcomm_mime_type : Bool)
    (payload : Data) (endpoint : Text) (metadata : List (Text × Json)) (api_key : Option Text) (now : Int) :
    Redis Unit := do
  if endpoint = [] then .raise .OutboundTransportError
  else do
    let headers := self.headers emit_new_didcomm_mime_type metadata api_key payload
    let payload ← ofExcept (message_data payload)
    let message ← ofExcept (entry_of self.json (outbound_record endpoint payload headers))
    let (topic, message) ← if self.is_mediator then
        process_payload_recip_key self.json.loads (self.patience+1) now payload self.outbound_topic
      else pure (self.outbound_topic, message)
    match ← (redis (.rpush topic message)).attempt with
    | .ok _ => return
    | .error .RedisError => return
    | .error .RedisClusterException => return
    | .error error => .raise error

end AcapyRedis.Handlers
