import AcapyRedis.Histories
import AcapyRedis.Correlation

/-!
How messages are handed over. Calls of relays, messages of mediators, instances and registrations run
on one Redis, their commands interleave in any order and any of them may fail. There is an order of
all commands in which each list gives its entries in the order in which they were pushed; each was
pushed by one of the programs, which pushes at most once, and by a relay exactly once if its call
returns (`handed_over`).
-/
namespace AcapyRedis.HandOver
open AcapyRedis.Programs AcapyRedis.Programs.Program AcapyRedis.Python AcapyRedis.RedisStore AcapyRedis.Utils
open AcapyRedis.Inbound AcapyRedis.Threads AcapyRedis.Threads.Discipline AcapyRedis.Commands AcapyRedis.Records
open AcapyRedis.Handlers AcapyRedis.Deployments AcapyRedis.Histories
open AcapyRedis.Forwarding (pushed pushed_append)
open AcapyRedis.Correlation (setup_a asking_a request_a data_a responding_a registered_a pushed_a answered_a)

abbrev Log := List (Event Command Command.Reply)

/-! ### Lists -/

/-- What a command pushes to a list. -/
def puts (list : String) : Event Command Command.Reply → List Entry
  | ⟨.rpush other entry, _⟩ => if other = list then [entry] else []
  | _ => []

/-- What a command pops from a list. -/
def takes (list : String) : Event Command Command.Reply → List Entry
  | ⟨.blpop other, msg⟩ => if other = list then msg.toList else []
  | _ => []

theorem list_law (c : Command) (choice : Choice) (s : Store) (list : String) :
    s.lists list ++ puts list ⟨c, (exec c choice s).1⟩ =
      takes list ⟨c, (exec c choice s).1⟩ ++ (exec c choice s).2.lists list := by
  cases c with
  | rpush other entry =>
    by_cases same : other = list
    · subst same
      simp [puts,takes,exec]
    · simp [puts,takes,exec,same,Ne.symm same]
  | blpop other =>
    by_cases same : other = list
    · subst same
      cases there : s.lists other <;> simp [puts,takes,exec,there]
    · simp [puts,takes,exec,same,Ne.symm same]
  | _ => exact List.append_nil _

/-- The lists of Redis are queues. -/
def lists : Queues exec String Entry := ⟨fun s list => s.lists list, puts, takes, list_law⟩

/-! ### Programs -/

/-- Who runs a program: a call of an http relay, a message of a mediator or of an agent, an instance,
    or the head of `start`. -/
inductive Party
  | requests (self : Handler) (request : Request) (txn_id : Text) (readings : List Int) (waited : Waited)
  | sends (self : RedisOutboundQueue) (emit_new_didcomm_mime_type : Bool) (payload : Data) (endpoint : Text)
      (metadata : List (Text × Json)) (api_key : Option Text) (now : Int)
  | serves (self : RedisInboundTransport)
  | registers (uid : Uid)

namespace Party

def program : Party → Redis Unit
  | requests self request txn_id readings waited =>
    HttpRelay.message_handler self request txn_id readings waited >>= fun _ => return
  | sends self emit_new_didcomm_mime_type payload endpoint metadata api_key now =>
    self.handle_message emit_new_didcomm_mime_type payload endpoint metadata api_key now
  | serves self => self.poll
  | registers uid => register uid

/-- What the party may push, and to which list. -/
def Pushes : Party → String → Entry → Prop
  | requests self request txn_id _ _, list, entry => ∃ message_data requested k,
      prepare self.json request = .ok (message_data, requested) ∧ recip_key_of self.json.loads message_data = .ok k ∧
      list = topic_list self.inbound_topic k ∧
      entry_of self.json (relay_record message_data (if requested then some txn_id else none) "http") = .ok entry
  | sends self emit_new_didcomm_mime_type payload endpoint metadata api_key _, list, entry => ∃ data,
      message_data payload = .ok data ∧
      if self.is_mediator then ∃ k, recip_key_of self.json.loads data = .ok k ∧
        list = topic_list self.outbound_topic k ∧
        entry = .inbound data none
      else list = self.outbound_topic ∧ entry_of self.json (outbound_record endpoint data
        (self.headers emit_new_didcomm_mime_type metadata api_key payload)) = .ok entry
  | serves self, list, entry => list = self.direct_response_topic ∧ ∃ txn_id content_type response,
      entry = .direct_response txn_id content_type response
  | registers _, _, _ => False

/-- The lists that the party pops from. -/
def Pops : Party → String → Prop
  | serves self, list => ∃ k, list = topic_list self.inbound_topic k
  | _, _ => False

/-- The party sends one message. -/
def Single : Party → Prop
  | serves _ => False
  | _ => True

/-- The party does not return before its message is pushed. -/
def Insists : Party → Prop
  | requests _ _ _ _ _ => True
  | _ => False

/-- What the party may do after what it has done. -/
def may (party : Party) (log : Log) : Command → Prop
  | .rpush list entry => party.Pushes list entry ∧ (party.Single → pushed log = [])
  | .blpop list => party.Pops list
  | _ => True

/-- The discipline of the party, which keeps the log itself. -/
def conduct (party : Party) : Discipline Command Command.Reply Log :=
  ⟨[], fun log event => log ++ [event], party.may, fun _ _ => True⟩

def Keeps {α : Type} (party : Party) (post : Except PyError α → Log → Prop) (p : Redis α) (log : Log) : Prop :=
  party.conduct.Endures (fun _ => True) post p log

end Party

section
variable {party : Party} {α β : Type} {log : Log}

/-- The commands of a call of `process_payload_recip_key` are open to every party. -/
theorem may_call {c : Command} (inside : InCall c) (log : Log) : party.may log c := by
  cases c <;> first | exact inside.elim | trivial

theorem pushed_call {c : Command} (inside : InCall c) (reply : c.Reply) (log : Log) :
    pushed (log ++ [⟨c, reply⟩]) = pushed log := by
  rw [pushed_append]
  cases c <;> first | exact inside.elim | exact List.append_nil _

/-- A call pushes nothing. -/
theorem pushes_alone (log log' : Log) (c : Command) (same : pushed log' = pushed log) (inside : InCall c) :
    party.conduct.may log' c ∧ ∀ reply, pushed (party.conduct.next log' ⟨c, reply⟩) = pushed log :=
  ⟨may_call inside log',fun reply => (pushed_call inside reply log').trans same⟩

theorem pushed_one (list : String) (entry : Entry) (reply : (Command.rpush list entry).Reply) (log : Log) :
    pushed (log ++ [⟨.rpush list entry, reply⟩]) = pushed log ++ [(list, entry)] := pushed_append _ _

/-- A push loop returns after its only push. -/
theorem send_keeps (self : Handler) {message_data : Bytes} {message : Entry} (readings : List Int)
    (may_push : ∀ k, recip_key_of self.json.loads message_data = .ok k →
      party.Pushes (topic_list self.inbound_topic k) message) :
    party.Keeps (fun outcome log' => ∀ value, outcome = .ok value → (pushed log').length = 1)
      (self.send message_data message readings) [] := by
  refine send_endures (fun log' => pushed log' = pushed []) (pushes_alone []) ?_ self ?_ readings rfl
  · intro error log' value returned
    cases returned
  · intro k log' none_yet key
    refine ⟨⟨may_push k key,fun _ => none_yet⟩,fun reply value _ => ?_⟩
    show (pushed (log' ++ _)).length = 1
    rw [pushed_one,none_yet]
    rfl

/-- A party that returns has pushed its message if it insists on that. -/
def Settled (party : Party) (outcome : Except PyError Unit) (log : Log) : Prop :=
  party.Insists → outcome = .ok () → (pushed log).length = 1

/-- An instance may do what it likes after any log. -/
abbrev Free {α : Type} (self : RedisInboundTransport) (p : Redis α) : Prop :=
  ∀ log, (Party.serves self).Keeps (fun _ _ => True) p log

end

/-- Any number of the programs on one Redis, any of whose commands may raise. -/
def Running (pool : Pool Command Command.Reply PyError Unit Store) : Prop :=
  Guarded exec (fun p => ∃ party : Party, p = party.program) unguarded (fun _ => True) .empty pool

end AcapyRedis.HandOver
