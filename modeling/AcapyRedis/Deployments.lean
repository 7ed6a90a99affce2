import AcapyRedis.Wire
import AcapyRedis.Responses
import AcapyRedis.Commands

/-!
Relays, mediators and instances on one Redis. The commands of all their programs interleave
freely and may fail. A request that asks for a direct response starts a push loop and a call of
its relay (`Step.asks`), the call goes on when the loop has ended (`Step.pushed`), an instance
answers over the direct response topic and each relay pops from it (`Step.pops`). `Role.may`
says what each program may push; `serves_keeps` and its siblings say that it keeps to that
whatever command fails.
-/
namespace AcapyRedis.Deployments
open AcapyRedis.Programs AcapyRedis.Programs.Program AcapyRedis.Python AcapyRedis.RedisStore AcapyRedis.Utils
open AcapyRedis.Inbound AcapyRedis.Threads AcapyRedis.Threads.Discipline AcapyRedis.Commands AcapyRedis.Records
open AcapyRedis.JsonText AcapyRedis.Handlers AcapyRedis.Responses AcapyRedis.Wire

/-! ### Steps -/

/-- Python's `json` and the configuration of the relays and the instances. The names of the
    content types can be written. -/
structure Setup where
  limits : Limits
  floats : Floats
  codec : Codec
  mime : MimeTypes
  inbound_topic : String
  direct_resp_topic : String
  deep : 1 < limits.depth
  typed : ∀ content_type, Readable (mime.value content_type)

def Setup.json (setup : Setup) : JsonModule := python_json setup.limits setup.floats setup.codec

def Setup.handler (setup : Setup) (patience : Nat) : Handler := ⟨setup.json, setup.inbound_topic, patience⟩

/-- Why a program was started. -/
inductive Role
  /-- The push loop of a `message_handler` call that asks for a direct response. -/
  | asks (relay call : Nat) (txn_id : Text) (payload : Bytes)
  /-- A pass of an instance. -/
  | serves (self : RedisInboundTransport)
  | other

/-- A program in progress. -/
structure Actor where
  role : Role
  thread : Thread Command Command.Reply PyError Unit

/-- Redis, the programs in the order they were started, the handlers of the relays, and what
    happened to their transactions. -/
structure Deployment where
  store : Store
  actors : List Actor
  relays : List Relays.Relay
  log : List Relays.Event

namespace Deployment

def start (d : Deployment) (role : Role) (program : Redis Unit) : Deployment :=
  { d with actors := d.actors ++ [⟨role, ⟨program, []⟩⟩] }

def set_relay (d : Deployment) (r : Nat) (relay : Relays.Relay) : Deployment :=
  { d with relays := d.relays.set r relay }

/-- The relays as they see themselves, without the direct response topic. -/
def service (d : Deployment) : Relays.Service := ⟨[], d.relays, d.log⟩

/-- Why its programs were started. -/
def roles (d : Deployment) : List Role := d.actors.map (·.role)

end Deployment

/-- What `HttpRelay.message_handler` makes of a request before it uses Redis: the message data
    and whether it asks for a direct response. -/
def prepare (json : JsonModule) (request : Request) : Except PyError (Bytes × Bool) := do
  let body ← request.body
  let message_data ← message_data body
  let message_dict ← message_dict json body
  return (message_data, ← direct_response_request message_dict)

/-- The other programs on the topics: registrations, and the messages of a mediator. -/
inductive Bystander (setup : Setup) : Redis Unit → Prop
  | registers (uid : Uid) : Bystander setup (register uid)
  | mediates (self : RedisOutboundQueue) (emit_new_didcomm_mime_type : Bool) (payload : Data) (endpoint : Text)
      (metadata : List (Text × Json)) (api_key : Option Text) (now : Int) : self.is_mediator = true →
      Bystander setup (self.handle_message emit_new_didcomm_mime_type payload endpoint metadata api_key now)

/-- What `process_direct_responses` reads of an entry. An inbound message has no response data,
    whoever has pushed it. -/
def element (setup : Setup) : Entry → Except PyError Json
  | .direct_response txn_id content_type response => do
    popped setup.json (← (setup.json.dumps (response_record setup.mime txn_id content_type response)).utf8)
  | .inbound payload txn_id => .ok (relay_record payload txn_id "http")
  | .invalid error => .error error

/-- What a relay does without Redis. -/
def Own : Relays.Action → Prop
  | .look _ _ => True
  | .timeout _ _ => True
  | .stop _ => True
  | _ => False

/-- Where a call is after its push loop. -/
def after_push (txn_id : Text) : Except PyError Unit → Relays.Handling
  | .ok _ => .waiting txn_id
  | .error error => .raised error

/-- How a program has ended. -/
def outcome : Redis Unit → Option (Except PyError Unit)
  | .done value => some (.ok value)
  | .raise error => some (.error error)
  | _ => none

/-- One step. A `uuid4` is new, and a command that fails was not executed. -/
inductive Step (setup : Setup) : Deployment → Deployment → Prop
  | serves {d : Deployment} (self : RedisInboundTransport) : Step setup d (d.start (.serves self) self.poll)
  | bystands {d : Deployment} {program : Redis Unit} : Bystander setup program → Step setup d (d.start .other program)
  | raises {d : Deployment} {r : Nat} {relay : Relays.Relay} {request : Request} {error : PyError} :
      d.relays[r]? = some relay → relay.transport_type = .http →
      prepare setup.json request = .error error → Step setup d (d.set_relay r (relay.refuse error))
  | plain {d : Deployment} {r : Nat} {relay : Relays.Relay} {request : Request} {message_data : Bytes} {message : Entry}
      (patience : Nat) (readings : List Int) : d.relays[r]? = some relay →
      relay.transport_type = .http → prepare setup.json request = .ok (message_data, false) →
      entry_of setup.json (relay_record message_data none "http") = .ok message →
      Step setup d (d.start .other ((setup.handler patience).send message_data message readings))
  | asks {d : Deployment} {r : Nat} {relay : Relays.Relay} {request : Request} {message_data : Bytes} {message : Entry}
      (txn_id : Text) (patience : Nat) (readings : List Int) :
      d.relays[r]? = some relay → relay.transport_type = .http →
      Readable txn_id → (∀ other, .began other txn_id ∉ d.log) →
      prepare setup.json request = .ok (message_data, true) →
      entry_of setup.json (relay_record message_data (some txn_id) "http") = .ok message →
      Step setup d
        { (d.start (.asks r relay.calls.length txn_id message_data)
            ((setup.handler patience).send message_data message readings)).set_relay r (relay.begin txn_id) with
          log := .began r txn_id :: d.log }
  -- `asyncio.wait` raises before a frame is read
  | web_socket {d : Deployment} {r : Nat} {relay : Relays.Relay} : d.relays[r]? = some relay →
      relay.transport_type = .ws → Step setup d (d.set_relay r (relay.refuse .TypeError))
  | command {d : Deployment} {n : Nat} {role : Role} {c : Command} {next : Except PyError c.Reply → Redis Unit}
      {log : List (Event Command Command.Reply)} (choice : Choice) :
      d.actors[n]? = some ⟨role, ⟨.command c next, log⟩⟩ →
      Step setup d
        { d with
          store := (exec c choice d.store).2
          actors := d.actors.set n
            ⟨role, ⟨next (.ok (exec c choice d.store).1), log ++ [⟨c, (exec c choice d.store).1⟩]⟩⟩ }
  | fails {d : Deployment} {n : Nat} {role : Role} {c : Command} {next : Except PyError c.Reply → Redis Unit}
      {log : List (Event Command Command.Reply)} (error : PyError) :
      d.actors[n]? = some ⟨role, ⟨.command c next, log⟩⟩ →
      Step setup d { d with actors := d.actors.set n ⟨role, ⟨next (.error error), log⟩⟩ }
  | pushed {d : Deployment} {r i n : Nat} {relay : Relays.Relay} {txn_id : Text} {payload : Bytes}
      {thread : Thread Command Command.Reply PyError Unit} {ended : Except PyError Unit} : d.relays[r]? = some relay →
      relay.calls[i]? = some (.pushing txn_id) → d.actors[n]? = some ⟨.asks r i txn_id payload, thread⟩ →
      outcome thread.program = some ended → Step setup d (d.set_relay r (relay.goes_on i (after_push txn_id ended)))
  | own {d : Deployment} {s' : Relays.Service} {a : Relays.Action} : Own a → Relays.Step d.service a s' →
      Step setup d { d with relays := s'.relays }
  | pops {d : Deployment} {r : Nat} {relay : Relays.Relay} {entry : Entry} {rest : List Entry} :
      d.relays[r]? = some relay → relay.listening = true →
      d.store.lists setup.direct_resp_topic = entry :: rest →
      Step setup d
        { d.set_relay r (relay.receive (element setup entry)) with
          store := { d.store with lists := Function.update d.store.lists setup.direct_resp_topic rest }
          log := Relays.received r (element setup entry) ++ d.log }

/-- The states reached from an empty Redis and the handlers of some transport types. -/
def Reachable (setup : Setup) (types : List Relays.TransportType) (d : Deployment) : Prop :=
  Relation.ReflTransGen (Step setup) ⟨.empty, [], types.map Relays.idle, []⟩ d

/-- What is left of a program that has ended. -/
def ended : Except PyError Unit → Redis Unit
  | .ok value => .done value
  | .error error => .raise error

/-- A program may run to its end while the others wait. -/
theorem runs_alone {setup : Setup} {p : Redis Unit} {s s' : Store} {log' : List (Event Command Command.Reply)}
    {outcome : Except PyError Unit} (run : Runs exec p s log' outcome s') :
    ∀ (d : Deployment) (n : Nat) (role : Role) (log : List (Event Command Command.Reply)), d.store = s →
      d.actors[n]? = some ⟨role, ⟨p, log⟩⟩ → Relation.ReflTransGen (Step setup) d
        { d with store := s', actors := d.actors.set n ⟨role, ⟨ended outcome, log ++ log'⟩⟩ } := by
  induction run with
  | done =>
    rintro d n role log rfl here
    rw [List.append_nil,ended,set_same here]
  | raise =>
    rintro d n role log rfl here
    rw [List.append_nil,ended,set_same here]
  | @command c next s log' outcome s' choice _ ih =>
    rintro d n role log rfl here
    obtain ⟨inside,_⟩ := List.getElem?_eq_some_iff.mp here
    let after : Deployment := { d with
        store := (exec c choice d.store).2
        actors := d.actors.set n
          ⟨role, ⟨next (.ok (exec c choice d.store).1), log ++ [⟨c, (exec c choice d.store).1⟩]⟩⟩ }
    have later := ih after n role _ rfl (List.getElem?_set_self inside)
    refine .head (.command choice here) ?_
    simpa only [after,List.set_set,List.append_assoc,List.singleton_append] using later

/-! ### What each program may push -/

/-- Whether a push loop has pushed, and the request that a pass has popped last and not answered. -/
structure Held where
  sent : Bool
  request : Option (Bytes × Text)

namespace Held

/-- A pop with its request, if it asks for a direct response. -/
def next (g : Held) : Event Command Command.Reply → Held
  | ⟨.rpush _ _, _⟩ => ⟨true, none⟩
  | ⟨.blpop _, some (.inbound payload (some txn_id))⟩ => { g with request := some (payload, txn_id) }
  | ⟨.blpop _, _⟩ => { g with request := none }
  | _ => g

end Held

/-- An entry that asks nothing and answers nothing. -/
def Quiet : Entry → Prop
  | .inbound _ none => True
  | .invalid _ => True
  | _ => False

/-- A message may be pushed to the list of its key. -/
def Keyed (setup : Setup) (payload : Bytes) (list : String) : Prop :=
  ∃ k, recip_key_of setup.json.loads payload = .ok k ∧ list = topic_list setup.inbound_topic k

/-- The entry is what the instance makes of the answer of a session to a request. -/
def AnswerOf (self : RedisInboundTransport) (txn_id : Text) (payload : Bytes) (entry : Entry) : Prop :=
  ∃ answer, self.session payload = .ok answer ∧ self.direct_response txn_id answer = .ok entry

/-- A request is pushed once and only to the list of its key, a pass pushes answers to the request
    that it has popped, and other programs move neither. -/
def Role.may (setup : Setup) : Role → Held → Command → Prop
  | .asks _ _ txn_id payload, g, .rpush list entry =>
    g.sent = false ∧ entry = .inbound payload (some txn_id) ∧ Keyed setup payload list
  | .serves self, g, .rpush _ entry =>
    ∃ payload txn_id, g.request = some (payload, txn_id) ∧ AnswerOf self txn_id payload entry
  | .other, _, .rpush _ entry => Quiet entry
  | .serves _, _, .blpop _ => True
  | _, _, .blpop _ => False
  | _, _, _ => True

def conduct (setup : Setup) (role : Role) : Discipline Command Command.Reply Held :=
  ⟨⟨false, none⟩, Held.next, role.may setup, fun _ _ => True⟩

/-- The program keeps to its role whatever commands fail. -/
def Keeps {α : Type} (setup : Setup) (role : Role) (p : Redis α) (g : Held) : Prop :=
  (conduct setup role).Endures (fun _ => True) (fun _ _ => True) p g

/-- The commands that neither push nor pop. -/
def Still : Command → Prop
  | .rpush _ _ => False
  | .blpop _ => False
  | _ => True

theorem still_next {c : Command} (still : Still c) (g : Held) (reply : c.Reply) : g.next ⟨c, reply⟩ = g := by
  cases c <;> first | exact still.elim | rfl

theorem still_may {setup : Setup} {role : Role} {c : Command} (still : Still c) (g : Held) : role.may setup g c := by
  cases c <;> first | exact still.elim | cases role <;> trivial

section
variable {setup : Setup} {role : Role} {α β : Type}

theorem keeps_bind {p : Redis α} {rest : α → Redis β} {g : Held} (middle : α → Held → Prop)
    (first : (conduct setup role).Endures (fun _ => True)
      (fun outcome g' => ∀ value, outcome = .ok value → middle value g') p g)
    (later : ∀ value g', middle value g' → Keeps setup role (rest value) g') : Keeps setup role (p >>= rest) g := by
  refine endures_bind middle (endures_mono first (fun outcome g' holds => ?_)) later
  cases outcome with
  | ok value => exact holds value rfl
  | error error => trivial

/-- A call leaves what is held as it is. -/
theorem holds_alone (g : Held) (g' : Held) (c : Command) (same : g' = g) (inside : InCall c) :
    (conduct setup role).may g' c ∧ ∀ reply, (conduct setup role).next g' ⟨c, reply⟩ = g := by
  have still : Still c := by cases c <;> first | exact inside.elim | trivial
  exact ⟨still_may still g',fun reply => (still_next still g' reply).trans same⟩

/-- A push loop pushes its entry at most once, to the list of the key. -/
theorem send_keeps (patience : Nat) {payload : Bytes} {entry : Entry} (readings : List Int) {g : Held}
    (may : ∀ list, Keyed setup payload list → role.may setup g (.rpush list entry)) :
    Keeps setup role ((setup.handler patience).send payload entry readings) g := by
  refine send_endures (fun g' => g' = g) (holds_alone g) (fun _ _ => trivial) (setup.handler patience) ?_ readings rfl
  rintro k _ rfl key
  exact ⟨may _ ⟨k,key,rfl⟩,fun _ => trivial⟩

/-- A pass pops a request or something else, and answers only the request. -/
theorem pop_message_holds {self : RedisInboundTransport} (list : String) (tries : Nat) (g : Held) :
    (conduct setup (.serves self)).Endures (fun _ => True)
      (fun outcome g' => ∀ msg, outcome = .ok msg → ∀ payload txn_id, msg = some (Entry.inbound payload (some txn_id)) →
        g'.request = some (payload, txn_id))
      (pop_message list tries) g := by
  induction tries generalizing g with
  | zero =>
    intro msg returned
    cases returned
  | succ tries ih =>
    refine ⟨trivial,fun reply _ msg returned payload txn_id same => ?_,fun error _ => ?_⟩
    · cases returned
      subst same
      rfl
    · have raised : ∀ other : PyError, (conduct setup (.serves self)).Endures (fun _ => True)
          (fun outcome g' => ∀ msg, outcome = .ok msg → ∀ payload txn_id, msg = some (Entry.inbound payload (some txn_id)) →
            g'.request = some (payload, txn_id)) (.raise other) g :=
        fun other msg returned => by cases returned
      cases error <;> first | exact ih g | exact raised _

theorem receive_keeps {self : RedisInboundTransport} {payload : Bytes} {txn_id : Option Text} {g : Held}
    (held : ∀ id, txn_id = some id → g.request = some (payload, id)) :
    Keeps setup (.serves self) (self.receive payload txn_id) g := by
  rw [RedisInboundTransport.receive]
  cases answered : self.session payload with
  | error error => cases error <;> trivial
  | ok answer =>
    cases txn_id with
    | none => trivial
    | some id =>
      dsimp only
      cases made : self.direct_response id answer with
      | error error => trivial
      | ok message =>
        refine ⟨⟨payload,id,held id rfl,answer,answered,made⟩,fun _ _ => trivial,fun error _ => ?_⟩
        cases error <;> trivial

theorem poll_key_keeps (self : RedisInboundTransport) (k : RecipKey) (g : Held) :
    Keeps setup (.serves self) (self.poll_key k) g := by
  refine keeps_bind _ (pop_message_holds _ 6 g) (fun msg g' held => ?_)
  rcases msg with _ | ⟨payload,txn_id⟩ | ⟨_,_,_⟩ | error
  · trivial
  · have receives : Keeps setup (.serves self) (self.receive payload txn_id) g' :=
      receive_keeps (fun id same => held payload id (by rw [same]))
    refine ⟨trivial,fun _ _ => ⟨trivial,fun count _ => ?_,fun _ _ => trivial⟩,fun _ _ => trivial⟩
    cases count with
    | none => exact receives
    | some count =>
      show Keeps setup (.serves self) (if 1 ≤ count then _ else _) g'
      split
      · exact ⟨trivial,fun _ _ => receives,fun _ _ => trivial⟩
      · exact receives
  · trivial
  · cases error <;> trivial

theorem poll_keys_keeps (self : RedisInboundTransport) (ks : List RecipKey) (g : Held) :
    Keeps setup (.serves self) (self.poll_keys ks) g := by
  induction ks generalizing g with
  | nil => trivial
  | cons k rest ih =>
    refine keeps_bind (fun _ _ => True) (endures_mono (poll_key_keeps self k g) (fun _ _ _ _ _ => trivial)) ?_
    exact fun _ g' _ => ih g'

/-- A pass keeps to its role. -/
theorem serves_keeps (self : RedisInboundTransport) (g : Held) : Keeps setup (.serves self) self.poll g := by
  refine ⟨trivial,fun listed _ => ?_,fun error _ => ?_⟩
  · cases listed with
    | none => trivial
    | some ks => exact poll_keys_keeps self ks g
  · cases error <;> trivial

/-- A push of a mediator is that of the call. -/
theorem bystander_keeps {program : Redis Unit} (bystander : Bystander setup program) (g : Held) :
    Keeps setup .other program g := by
  cases bystander with
  | registers uid => exact ⟨trivial,fun _ _ => ⟨trivial,fun _ _ => trivial,fun _ _ => trivial⟩,fun _ _ => trivial⟩
  | mediates self emit_new_didcomm_mime_type payload endpoint metadata api_key now mediator =>
    simp only [RedisOutboundQueue.handle_message,mediator,↓reduceIte]
    split
    · trivial
    · cases message_data payload with
      | error error => trivial
      | ok data =>
        obtain ⟨entry,made⟩ := entry_of_ok self.json
          (outbound_record endpoint data (self.headers emit_new_didcomm_mime_type metadata api_key payload))
        simp only [ofExcept_ok,done_bind,made]
        refine keeps_bind (fun called g' => called.2 = .inbound data none)
          (endures_mono (process_payload_endures (fun g' => g' = g) (holds_alone g) _ _ _ _ _ rfl)
            (fun outcome g' returned called same => (returned called same).2.1))
          (fun called g' same => ?_)
        have quiet : Quiet called.2 := by
          rw [same]
          trivial
        refine ⟨quiet,fun _ _ => trivial,fun error _ => ?_⟩
        cases error <;> trivial

/-- A message that asks for no response is pushed without a transaction. -/
theorem plain_keeps (patience : Nat) {message_data : Bytes} {message : Entry} (readings : List Int) (g : Held)
    (written : entry_of setup.json (relay_record message_data none "http") = .ok message) :
    Keeps setup .other ((setup.handler patience).send message_data message readings) g := by
  refine send_keeps patience readings (fun list _ => ?_)
  have deep := setup.deep
  have faithful : Faithful setup.json (relay_record message_data none "http") :=
    python_json_faithful setup.floats setup.codec
      (relay_writable (by omega) message_data (fun _ none => by cases none) "http")
  rw [entry_of_relay_record faithful] at written
  cases written
  trivial

/-- A request is pushed with its transaction. -/
theorem asks_keeps (r i patience : Nat) {txn_id : Text} {message_data : Bytes} {message : Entry} (readings : List Int)
    (readable : Readable txn_id)
    (written : entry_of setup.json (relay_record message_data (some txn_id) "http") = .ok message) :
    Keeps setup (.asks r i txn_id message_data) ((setup.handler patience).send message_data message readings)
      ⟨false, none⟩ := by
  refine send_keeps patience readings (fun list keyed => ?_)
  have deep := setup.deep
  have faithful : Faithful setup.json (relay_record message_data (some txn_id) "http") :=
    python_json_faithful setup.floats setup.codec
      (relay_writable (by omega) message_data (fun _ same => by cases same; exact readable) "http")
  rw [entry_of_relay_record faithful] at written
  cases written
  exact ⟨rfl,rfl,keyed⟩

end
end AcapyRedis.Deployments
