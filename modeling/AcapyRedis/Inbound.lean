import Mathlib.Logic.Relation
import AcapyRedis.Utils

/-!
`RedisInboundTransport` of `redis_queue/v1_0/inbound.py`: the registration at the
head of `start`, one pass of its polling loop over the key list it reads, and the
system of producers and instances whose steps run to completion one after the
other (`Step`).
-/
namespace AcapyRedis.Inbound
open AcapyRedis.Programs AcapyRedis.Programs.Program AcapyRedis.Python AcapyRedis.RedisStore AcapyRedis.Utils

/-- What `session.wait_response()` returns when it is not `None`. -/
inductive Response
  | bytes (value : Bytes)
  | str (value : Text)

/-- An instance: its uid and configuration, what its sessions answer to a payload,
    and the clock reading when it handles a message of a key. -/
structure RedisInboundTransport where
  plugin_uid : Uid
  inbound_topic : String
  direct_response_topic : String
  emit_new_didcomm_mime_type : Bool
  session : Bytes → Except PyError (Option Response)
  clock : RecipKey → Int

/-- The head of `start`: the uid gets an empty key list. -/
def register (plugin_uid : Uid) : Redis Unit := do
  redis .ping
  redis (.hset_no_recip_keys plugin_uid)

/-- `BLPOP` of one list with as many tries as are left before `start` gives up. -/
def pop_message (list : String) : Nat → Redis (Option Entry)
  | 0 => .raise .InboundTransportError
  | tries+1 => do
    match ← (redis (.blpop list)).attempt with
    | .ok msg => return msg
    | .error .RedisError => pop_message list tries
    | .error .RedisClusterException => pop_message list tries
    | .error error => .raise error

/-- A pop with tries left takes the head of the list. -/
theorem pop_message_ends {post : Except PyError (Option Entry) → Store → Prop} (list : String) (tries : Nat) (s : Store) :
    Ends exec post (pop_message list (tries+1)) s ↔
      post (.ok (s.lists list).head?) { s with lists := Function.update s.lists list (s.lists list).tail } := by
  simp only [pop_message,Program.call,Program.attempt,Program.command_bind,ends_command,exec]
  constructor
  · exact fun ends => ends default
  · exact fun ends _ => ends

namespace RedisInboundTransport

/-- The direct-response record of a response: an empty one gets no content type, and
    only bytes can be encoded in base64. -/
def direct_response (self : RedisInboundTransport) (txn_id : Text) : Option Response → Except PyError Entry
  | none => .error .TypeError
  | some (.str []) => .error .TypeError
  | some (.str value) => do
    return .direct_response txn_id (some .application_json) (← value.encode).toUTF8.toList
  | some (.bytes []) => .ok (.direct_response txn_id none [])
  | some (.bytes value) =>
    .ok (.direct_response txn_id
      (some (if self.emit_new_didcomm_mime_type then .DIDCOMM_V1_MIME_TYPE else .DIDCOMM_V0_MIME_TYPE)) value)

/-- Pushes a response; a `RedisError` is only logged. -/
def respond (self : RedisInboundTransport) (message : Entry) : Redis Unit := do
  match ← (redis (.rpush self.direct_response_topic message)).attempt with
  | .ok _ => return
  | .error .RedisError => return
  | .error error => .raise error

/-- Hands a payload to a session and answers a direct-response request. -/
def receive (self : RedisInboundTransport) (payload : Bytes) (txn_id : Option Text) : Redis Unit := do
  match self.session payload with
  | .error .MessageParseError => return
  | .error .WireFormatParseError => return
  | .error error => .raise error
  | .ok response =>
    match txn_id with
    | none => return
    | some txn_id =>
      match self.direct_response txn_id response with
      | .error error => .raise error
      | .ok message => self.respond message

/-- `receive` returns, raises or pushes a response. -/
@[elab_as_elim]
theorem receive_cases {self : RedisInboundTransport} {motive : Redis Unit → Prop} (returns : motive (.done ()))
    (raises : ∀ error, motive (.raise error)) (responds : ∀ message, motive (self.respond message)) (payload : Bytes)
    (txn_id : Option Text) : motive (self.receive payload txn_id) := by
  rw [receive]
  split
  · exact returns
  · exact returns
  · exact raises _
  · split
    · exact returns
    · split
      · exact raises _
      · exact responds _

/-- The body of the loop over the key list. -/
def poll_key (self : RedisInboundTransport) (recip_key : RecipKey) : Redis Unit := do
  match ← pop_message (topic_list self.inbound_topic recip_key) 6 with
  | none => return
  | some (.invalid .JSONDecodeError) => return
  | some (.invalid .KeyError) => return
  | some (.invalid error) => .raise error
  -- such a record is a JSON object without "payload"
  | some (.direct_response _ _ _) => return
  | some (.inbound payload txn_id) => do
    redis (.hset_last_access self.plugin_uid (self.clock recip_key))
    match ← redis (.hget_pending (uid_recip_key self.plugin_uid recip_key)) with
    | some count =>
      if 1 ≤ count then
        redis (.hset_pending (uid_recip_key self.plugin_uid recip_key) (count - 1))
      self.receive payload txn_id
    | none => self.receive payload txn_id

def poll_keys (self : RedisInboundTransport) : List RecipKey → Redis Unit
  | [] => return
  | recip_key :: rest => do
    self.poll_key recip_key
    self.poll_keys rest

/-- One turn of the `while` loop of `start`. -/
def poll (self : RedisInboundTransport) : Redis Unit := do
  match ← (redis (.hget_recip_keys self.plugin_uid)).attempt with
  | .ok (some inbound_msg_keys_set) => self.poll_keys inbound_msg_keys_set
  | .ok none => return
  | .error .RedisError => return
  | .error .TypeError => return
  | .error error => .raise error

end RedisInboundTransport

/-! ### Sequential runs -/

/-- Redis, the uids that were ever registered and those whose loop still runs. -/
structure System where
  redis : Store
  registered : List Uid
  running : List Uid

def System.empty : System := ⟨.empty, [], []⟩

/-- The uids of the running loops after a pass that ended in an outcome. -/
def still_running (running : List Uid) (uid : Uid) : Except PyError Unit → List Uid
  | .ok _ => running
  | .error _ => running.erase uid

/-- One step without errors of Redis: a registration with a fresh uid, a producer's
    call and push, which waits at least once for an instance, or one pass of a
    running instance. -/
inductive Step (json_loads : Bytes ⊕ Text → Except PyError Json) (topic : String) : System → System → Prop
  | register {sys uid log outcome s'} : uid ∉ sys.registered →
      Runs exec (register uid) sys.redis log outcome s' →
      Step json_loads topic sys ⟨s', uid :: sys.registered, uid :: sys.running⟩
  | produce {sys patience now payload log outcome s'} : sys.registered ≠ [] →
      Runs exec (produce json_loads (patience+1) now payload topic) sys.redis log outcome s' →
      Step json_loads topic sys { sys with redis := s' }
  | poll {sys log outcome s'} (self : RedisInboundTransport) : self.plugin_uid ∈ sys.running →
      self.inbound_topic = topic → Runs exec self.poll sys.redis log outcome s' →
      Step json_loads topic sys ⟨s', sys.registered, still_running sys.running self.plugin_uid outcome⟩

/-- Some finite sequence of steps leads from an empty Redis to the system. -/
def Reachable (json_loads : Bytes ⊕ Text → Except PyError Json) (topic : String) (sys : System) : Prop :=
  Relation.ReflTransGen (Step json_loads topic) .empty sys

end AcapyRedis.Inbound
