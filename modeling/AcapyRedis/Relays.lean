import AcapyRedis.Python
import Mathlib.Logic.Function.Basic

/-!
The relay of `redis_relay/relay/relay.py`: the handlers that `main` starts on one direct
response topic, their concurrent `message_handler` calls that ask for a direct response,
and their `process_direct_responses` loops. What runs without an `await` is one step; a
Redis command that raises is tried again and changes nothing.
-/
namespace AcapyRedis.Relays
open AcapyRedis.Python

inductive TransportType
  | ws
  | http
  deriving DecidableEq

/-- A value of `direct_response_txn_request_map`. -/
inductive Entry
  /-- The request that `message_handler` has stored. -/
  | request
  | response_data (data : Json)

/-- Where a `message_handler` call is. -/
inductive Handling
  /-- The message is not yet in its recipient list. -/
  | pushing (txn_id : Text)
  /-- In `get_direct_responses`. -/
  | waiting (txn_id : Text)
  /-- `get_direct_responses` has returned an entry, or nothing as the relay is not running. -/
  | answered (value : Option Entry)
  | timed_out
  | raised (error : PyError)

structure Relay where
  transport_type : TransportType
  running : Bool
  /-- Whether `process_direct_responses` has not ended with an error. -/
  listening : Bool
  direct_response_txn_request_map : Text → Option Entry
  /-- What the map has under keys that are no strings, newest first. No call looks for them. -/
  others : List (Json × Entry)
  calls : List Handling

/-- What happened to a transaction in the relay with a number. -/
inductive Event
  | began (relay : Nat) (txn_id : Text)
  | popped (relay : Nat) (txn_id : Text) (data : Json)

/-- The direct response topic, by what `json.loads` makes of its elements, the handlers,
    and what happened, newest first. -/
structure Service where
  direct_resp_topic : List (Except PyError Json)
  relays : List Relay
  log : List Event

inductive Action
  /-- Someone pushes an element to the direct response topic. -/
  | respond (element : Except PyError Json)
  | message (relay : Nat) (txn_id : Text)
  | push (relay call : Nat)
  | look (relay call : Nat)
  | timeout (relay call : Nat)
  | blpop (relay : Nat)
  | stop (relay : Nat)

/-- The transaction and the response data that an element holds. A list or a `dict` cannot
    be a key of the map. -/
def direct_response : Except PyError Json → Except PyError (Option (Json × Json))
  | .error error => .error error
  | .ok (.obj fields) =>
    match (Json.obj fields).getItem "response_data", (Json.obj fields).getItem "txn_id" with
    | .ok _, .ok (.arr _) => .error .TypeError
    | .ok _, .ok (.obj _) => .error .TypeError
    | .ok response_data, .ok txn_id => .ok (some (txn_id, response_data))
    | _, _ => .ok none
  | .ok _ => .ok none

namespace Relay

def store (relay : Relay) (txn_id : Text) (entry : Entry) : Relay :=
  { relay with
    direct_response_txn_request_map := Function.update relay.direct_response_txn_request_map txn_id (some entry) }

/-- `direct_response_txn_request_map[key] = entry`. -/
def store_under (relay : Relay) (entry : Entry) : Json → Relay
  | .str txn_id => relay.store txn_id entry
  | key => { relay with others := (key, entry) :: relay.others }

/-- A call stores its request and goes on to push the message. -/
def begin (relay : Relay) (txn_id : Text) : Relay :=
  { relay.store txn_id .request with calls := relay.calls ++ [.pushing txn_id] }

/-- A call that raises at once. -/
def refuse (relay : Relay) (error : PyError) : Relay := { relay with calls := relay.calls ++ [.raised error] }

def goes_on (relay : Relay) (call : Nat) (handling : Handling) : Relay :=
  { relay with calls := relay.calls.set call handling }

/-- What `process_direct_responses` does with an element. -/
def receive (relay : Relay) (element : Except PyError Json) : Relay :=
  match direct_response element with
  | .ok (some (txn_id, data)) => relay.store_under (.response_data data) txn_id
  | .ok none => relay
  | .error _ => { relay with listening := false }

end Relay

theorem store_under_calls (relay : Relay) (entry : Entry) (key : Json) :
    (relay.store_under entry key).calls = relay.calls := by
  cases key <;> rfl

/-- The loop of a relay touches no call. -/
theorem receive_calls (relay : Relay) (element : Except PyError Json) : (relay.receive element).calls = relay.calls := by
  unfold Relay.receive
  split
  · exact store_under_calls _ _ _
  · rfl
  · rfl

/-- What the element adds to the log: a response under a string. -/
def received (relay : Nat) (element : Except PyError Json) : List Event :=
  match direct_response element with
  | .ok (some (.str txn_id, data)) => [.popped relay txn_id data]
  | _ => []

/-- One step of one call or loop, or of the agents. A `uuid4` is new. `WSRelay` passes
    the task itself to `asyncio.wait`, which raises before a message is read. -/
inductive Step : Service → Action → Service → Prop
  | respond {s : Service} (element : Except PyError Json) :
      Step s (.respond element) { s with direct_resp_topic := s.direct_resp_topic ++ [element] }
  | message_ws {s : Service} {r : Nat} {relay : Relay} (txn_id : Text) : s.relays[r]? = some relay →
      relay.transport_type = .ws →
      Step s (.message r txn_id) { s with relays := s.relays.set r (relay.refuse .TypeError) }
  | message_http {s : Service} {r : Nat} {relay : Relay} (txn_id : Text) : s.relays[r]? = some relay →
      relay.transport_type = .http → (∀ other, .began other txn_id ∉ s.log) →
      Step s (.message r txn_id)
        { s with relays := s.relays.set r (relay.begin txn_id), log := .began r txn_id :: s.log }
  | push {s : Service} {r i : Nat} {relay : Relay} {txn_id : Text} : s.relays[r]? = some relay →
      relay.calls[i]? = some (.pushing txn_id) →
      Step s (.push r i) { s with relays := s.relays.set r (relay.goes_on i (.waiting txn_id)) }
  | push_raises {s : Service} {r i : Nat} {relay : Relay} {txn_id : Text} (error : PyError) :
      s.relays[r]? = some relay → relay.calls[i]? = some (.pushing txn_id) →
      Step s (.push r i) { s with relays := s.relays.set r (relay.goes_on i (.raised error)) }
  | look_none {s : Service} {r i : Nat} {relay : Relay} {txn_id : Text} : s.relays[r]? = some relay →
      relay.calls[i]? = some (.waiting txn_id) → relay.running = true →
      relay.direct_response_txn_request_map txn_id = none → Step s (.look r i) s
  | look {s : Service} {r i : Nat} {relay : Relay} {txn_id : Text} {entry : Entry} : s.relays[r]? = some relay →
      relay.calls[i]? = some (.waiting txn_id) → relay.running = true →
      relay.direct_response_txn_request_map txn_id = some entry →
      Step s (.look r i) { s with relays := s.relays.set r (relay.goes_on i (.answered (some entry))) }
  | look_stopped {s : Service} {r i : Nat} {relay : Relay} {txn_id : Text} : s.relays[r]? = some relay →
      relay.calls[i]? = some (.waiting txn_id) → relay.running = false →
      Step s (.look r i) { s with relays := s.relays.set r (relay.goes_on i (.answered none)) }
  -- `wait_for` gives up when no look has returned for 15 seconds
  | timeout {s : Service} {r i : Nat} {relay : Relay} {txn_id : Text} : s.relays[r]? = some relay →
      relay.calls[i]? = some (.waiting txn_id) → relay.running = true →
      relay.direct_response_txn_request_map txn_id = none →
      Step s (.timeout r i) { s with relays := s.relays.set r (relay.goes_on i .timed_out) }
  | blpop_none {s : Service} {r : Nat} {relay : Relay} : s.relays[r]? = some relay →
      s.direct_resp_topic = [] → Step s (.blpop r) s
  -- the `BLPOP` may have been waiting when the relay stopped
  | blpop {s : Service} {r : Nat} {relay : Relay} {element : Except PyError Json}
      {rest : List (Except PyError Json)} : s.relays[r]? = some relay → relay.listening = true →
      s.direct_resp_topic = element :: rest →
      Step s (.blpop r)
        { s with
          direct_resp_topic := rest
          relays := s.relays.set r (relay.receive element)
          log := received r element ++ s.log }
  | stop {s : Service} {r : Nat} {relay : Relay} : s.relays[r]? = some relay →
      Step s (.stop r) { s with relays := s.relays.set r { relay with running := false } }

/-- A handler that runs and has no calls. -/
def idle (transport_type : TransportType) : Relay := ⟨transport_type, true, true, fun _ => none, [], []⟩

/-- The handlers that `main` starts for the transport types of its configuration. -/
def started (types : List TransportType) : Service where
  direct_resp_topic := []
  relays := types.map idle
  log := []

/-- A response of an agent. -/
def response (txn_id : Text) (data : Json) : Except PyError Json :=
  .ok (.obj [(text "response_data", data), (text "txn_id", .str txn_id)])

/-- A run: the states it went through with the action in each, newest first. -/
inductive Run (start : Service) : List (Service × Action) → Service → Prop
  | start : Run start [] start
  | step {trace s a s'} : Run start trace s → Step s a s' → Run start ((s, a) :: trace) s'

/-- Every state of a run is reached by an earlier run. -/
theorem run_reaches {start s g : Service} {a : Action} {trace : List (Service × Action)} (run : Run start trace s)
    (member : (g, a) ∈ trace) : ∃ earlier, Run start earlier g := by
  induction run with
  | start => cases member
  | @step trace s _ _ before _ ih =>
    obtain now | past := List.mem_cons.mp member
    · obtain ⟨rfl,rfl⟩ := Prod.mk.inj now
      exact ⟨trace,before⟩
    · exact ih past

end AcapyRedis.Relays
