import AcapyRedis.ApiKeys
import AcapyRedis.Outbound

/-!
`RedisOutboundQueue.handle_message` of `redis_queue/v1_0/outbound.py` with the `dict` objects
that its callers pass as metadata. A `dict` that is not empty becomes the headers itself, so
a call writes its content type and its API key into it, and later calls with the same
`dict` push them: the calls are isolated from each other if and only if the `dict` of
every call has what the call writes already (`isolated_iff`).
-/
namespace AcapyRedis.Metadata
open AcapyRedis.Programs AcapyRedis.Programs.Program AcapyRedis.Python AcapyRedis.Records AcapyRedis.Handlers
open AcapyRedis.Payloads AcapyRedis.Codecs AcapyRedis.ApiKeys
open AcapyRedis.Outbound (queue_h)

/-! ### Calls and objects -/

/-- The fields of the `dict` objects that callers hold. -/
abbrev Dicts := Nat → Headers

/-- The arguments of a call; its metadata is a `dict` or `None`. -/
structure Call where
  emit_new_didcomm_mime_type : Bool
  payload : Data
  endpoint : Text
  metadata : Option Nat
  api_key : Option Text

/-- What a call does. Its push is marked with the call. -/
inductive Command
  | fields (dict : Nat)
  | setItem (dict : Nat) (key : Text) (value : Json)
  | process_payload_recip_key (payload : Bytes)
  | rpush (call : Call) (topic : String) (record : Json)

@[reducible] def Command.Reply : Command → Type
  | .fields _ => Headers
  | .setItem _ _ _ => Unit
  | .process_payload_recip_key _ => Except PyError String
  | .rpush _ _ _ => Except PyError Unit

structure Push where
  call : Call
  topic : String
  record : Json

/-- The objects, and what was pushed, in order. -/
structure Memory where
  dicts : Dicts
  pushes : List Push

/-- What the environment chooses: the list that a mediator gets, and the error of a push. -/
structure Choice where
  topic : Except PyError String := .ok "topic"
  error : Option PyError := none

instance : Inhabited Choice := ⟨{}⟩

def exec : (c : Command) → Choice → Memory → c.Reply × Memory
  | .fields dict, _, s => (s.dicts dict, s)
  | .setItem dict key value, _, s =>
    ((), { s with dicts := Function.update s.dicts dict (Records.setItem key value (s.dicts dict)) })
  | .process_payload_recip_key _, choice, s => (choice.topic, s)
  | .rpush call topic record, choice, s =>
    match choice.error with
    | none => (.ok (), { s with pushes := s.pushes ++ [⟨call, topic, record⟩] })
    | some error => (.error error, s)

abbrev Sending := Program Command Command.Reply PyError

abbrev issue (c : Command) : Sending c.Reply := Program.call c

/-- The object that `headers` is. -/
inductive Dict
  | shared (dict : Nat)
  | fresh (fields : Headers)

namespace Dict

def setItem (key : Text) (value : Json) : Dict → Sending Dict
  | .shared dict => do
    issue (.setItem dict key value)
    return .shared dict
  | .fresh fields => return .fresh (Records.setItem key value fields)

def fields : Dict → Sending Headers
  | .shared dict => issue (.fields dict)
  | .fresh fields => return fields

/-- `metadata or {}`. -/
def metadata_or_new : Option Nat → Sending Dict
  | none => return .fresh []
  | some dict => do
    let fields ← issue (.fields dict)
    return if fields.isEmpty then .fresh [] else .shared dict

end Dict

/-! ### The calls -/

section
variable (self : RedisOutboundQueue)

/-- The assignments to `headers`. -/
def set_headers (call : Call) (headers : Dict) : Sending Dict := do
  let headers ← match call.api_key with
    | some api_key => headers.setItem (text "x-api-key") (.str api_key)
    | none => pure headers
  headers.setItem (text "Content-Type") (.str (content_type self call.emit_new_didcomm_mime_type call.payload))

/-- From the encoding of the payload on. -/
def push_message (call : Call) (headers : Dict) : Sending Unit := do
  let payload ← ofExcept (message_data call.payload)
  let fields ← headers.fields
  let (topic, record) ← if self.is_mediator then do
      let topic ← ofExcept (← issue (.process_payload_recip_key payload))
      pure (topic, payload_record payload)
    else pure (self.outbound_topic, outbound_record call.endpoint payload fields)
  match ← issue (.rpush call topic record) with
  | .ok _ => return
  | .error .RedisError => return
  | .error .RedisClusterException => return
  | .error error => .raise error

def handle_message (call : Call) : Sending Unit := do
  if call.endpoint = [] then .raise .OutboundTransportError
  else do
    let headers ← Dict.metadata_or_new call.metadata
    let headers ← set_headers self call headers
    push_message self call headers

/-- The calls one after the other; what one raises does not stop the next. -/
def handle_messages : List Call → Sending Unit
  | [] => return
  | call :: later => do
    let _ ← (handle_message self call).attempt
    handle_messages later

/-- The metadata of a call among the objects; none is empty metadata. -/
def Call.contents (call : Call) (dicts : Dicts) : Headers := call.metadata.elim [] dicts

/-- The headers of a message by the kind of its payload, the setting of the profile, the API key
    and the metadata; a mediator sends none. -/
def own_headers (is_bytes emit_new_didcomm_mime_type : Bool) (api_key : Option Text) (metadata : Headers) : Headers :=
  if self.is_mediator then []
  else self.headers emit_new_didcomm_mime_type metadata api_key (if is_bytes then .inr [] else .inl [])

/-- A call writes nothing into an object of its caller that is not there. -/
def Settled (dicts : Dicts) (call : Call) : Prop :=
  call.endpoint ≠ [] → call.contents dicts ≠ [] →
    header (text "Content-Type") (call.contents dicts) =
        some (.str (content_type self call.emit_new_didcomm_mime_type call.payload)) ∧
      ∀ api_key, call.api_key = some api_key → header (text "x-api-key") (call.contents dicts) = some (.str api_key)

end

/-- What every call pushes is its own, and the objects are as they were built. -/
structure Isolated (queue : RedisOutboundQueue) (dicts : Dicts) (s : Memory) : Prop where
  own : ∀ push ∈ s.pushes, headers_of push.record = own_headers queue push.call.payload.isRight
    push.call.emit_new_didcomm_mime_type push.call.api_key (push.call.contents dicts)
  keyless : ∀ push ∈ s.pushes, push.call.api_key = none → ∀ value,
    header (text "x-api-key") (headers_of push.record) = some value →
      header (text "x-api-key") (push.call.contents dicts) = some value
  unchanged : s.dicts = dicts

/-! ### One call -/

section
variable {self : RedisOutboundQueue}

/-- The fields of an object. -/
def Dict.contents (dicts : Dicts) : Dict → Headers
  | .shared dict => dicts dict
  | .fresh fields => fields

/-- The objects when an object has other fields; a new one is no caller's. -/
def Dict.assign (dicts : Dicts) (headers : Dict) (fields : Headers) : Dicts :=
  match headers with
  | .shared dict => Function.update dicts dict fields
  | .fresh _ => dicts

theorem Dict.assign_assign (dicts : Dicts) (headers : Dict) (first second : Headers) :
    headers.assign (headers.assign dicts first) second = headers.assign dicts second := by
  cases headers with
  | shared dict => simp [Dict.assign]
  | fresh fields => rfl

theorem setItem_ends (headers : Dict) (key : Text) (value : Json) (s : Memory) :
    Ends exec (fun outcome s' => ∃ headers', outcome = .ok headers' ∧ s'.pushes = s.pushes ∧
        headers'.contents s'.dicts = Records.setItem key value (headers.contents s.dicts) ∧
        s'.dicts = headers.assign s.dicts (Records.setItem key value (headers.contents s.dicts)) ∧
        ∀ dicts fields, headers'.assign dicts fields = headers.assign dicts fields)
      (headers.setItem key value) s := by
  cases headers with
  | shared dict => exact fun _ => ⟨.shared dict, rfl, rfl, Function.update_self .., rfl, fun _ _ => rfl⟩
  | fresh fields => exact ⟨_, rfl, rfl, rfl, rfl, fun _ _ => rfl⟩

/-- The assignments make the headers of the call out of the fields of the object, in the object. -/
theorem set_headers_ends (call : Call) (headers : Dict) (s : Memory) :
    Ends exec (fun outcome s' => ∃ headers', outcome = .ok headers' ∧ s'.pushes = s.pushes ∧
        headers'.contents s'.dicts = self.headers call.emit_new_didcomm_mime_type (headers.contents s.dicts) call.api_key
          call.payload ∧
        s'.dicts = headers.assign s.dicts (self.headers call.emit_new_didcomm_mime_type (headers.contents s.dicts)
          call.api_key call.payload))
      (set_headers self call headers) s := by
  rw [set_headers]
  cases key : call.api_key with
  | none =>
    refine (setItem_ends headers _ _ s).mono (fun _ s' ends => ?_)
    obtain ⟨headers',returned,pushes,contents,dicts,_⟩ := ends
    refine ⟨headers', returned, pushes, ?_, ?_⟩
    · rw [contents,headers_eq]
    · rw [dicts,headers_eq]
  | some api_key =>
    rw [ends_bind]
    refine (setItem_ends headers _ _ s).mono (fun _ s' ends => ?_)
    obtain ⟨middle,rfl,pushes,contents,dicts,same⟩ := ends
    refine (setItem_ends middle _ _ s').mono (fun _ s'' ends' => ?_)
    obtain ⟨headers',returned,pushes',contents',dicts',_⟩ := ends'
    refine ⟨headers', returned, pushes'.trans pushes, ?_, ?_⟩
    · rw [contents',contents,headers_eq]
    · rw [dicts',contents,headers_eq,same,dicts,Dict.assign_assign]

/-- What a call pushes when its headers are the given ones. -/
def Made (self : RedisOutboundQueue) (call : Call) (headers : Headers) (topic : String) (record : Json) : Prop :=
  ∃ value, message_data call.payload = .ok value ∧
    if self.is_mediator then record = payload_record value
    else topic = self.outbound_topic ∧ record = outbound_record call.endpoint value headers

theorem made_headers {call : Call} {headers : Headers} {topic : String} {record : Json}
    (made : Made self call headers topic record) : headers_of record = if self.is_mediator then [] else headers := by
  obtain ⟨value,_,made⟩ := made
  split at made
  · next mediator =>
    rw [made,if_pos mediator]
    rfl
  · next direct =>
    rw [made.2,if_neg direct]
    rfl

/-- What a call leaves: the objects, and perhaps one more push with the given headers. -/
structure Leaves (queue : RedisOutboundQueue) (call : Call) (s : Memory) (dicts : Dicts) (headers : Headers) (s' : Memory) :
    Prop where
  dicts : s'.dicts = dicts
  pushes : s'.pushes = s.pushes ∨
    ∃ topic record, s'.pushes = s.pushes ++ [⟨call, topic, record⟩] ∧ Made queue call headers topic record

/-- The push of a record, whatever the environment answers. -/
theorem rpush_ends {call : Call} {headers : Headers} {topic : String} {record : Json}
    (made : Made self call headers topic record) (s : Memory) :
    Ends exec (fun _ s' => Leaves self call s s.dicts headers s') (do
      match ← issue (.rpush call topic record) with
      | .ok _ => return
      | .error .RedisError => return
      | .error .RedisClusterException => return
      | .error error => .raise error) s := by
  simp only [issue,Program.call,command_bind,ends_command]
  rintro ⟨_,raised⟩
  cases raised with
  | none => exact ⟨rfl, .inr ⟨topic,record,rfl,made⟩⟩
  | some error => cases error <;> exact ⟨rfl, .inl rfl⟩

theorem push_message_ends (call : Call) (headers : Dict) (s : Memory) :
    Ends exec (fun _ s' => Leaves self call s s.dicts (headers.contents s.dicts) s') (push_message self call headers) s := by
  rw [push_message]
  cases encoded : message_data call.payload with
  | error error => exact ⟨rfl, .inl rfl⟩
  | ok payload =>
    have fields : Ends exec (fun outcome s' => outcome = .ok (headers.contents s.dicts) ∧ s' = s) headers.fields s := by
      cases headers with
      | shared dict => exact fun _ => ⟨rfl, rfl⟩
      | fresh fields => exact ⟨rfl, rfl⟩
    rw [ofExcept_ok,done_bind,ends_bind]
    refine fields.mono (fun outcome s' ends => ?_)
    obtain ⟨rfl,rfl⟩ := ends
    cases mediator : self.is_mediator with
    | false => exact rpush_ends ⟨payload, encoded, by rw [mediator]; exact ⟨rfl, rfl⟩⟩ s'
    | true =>
      rintro ⟨assigned,_⟩
      cases assigned with
      | error error => exact ⟨rfl, .inl rfl⟩
      | ok topic => exact rpush_ends ⟨payload, encoded, by rw [mediator]; rfl⟩ s'

/-- The objects after a call. -/
def assigned (self : RedisOutboundQueue) (dicts : Dicts) (call : Call) : Dicts :=
  match call.metadata with
  | some dict =>
    if call.endpoint ≠ [] ∧ dicts dict ≠ [] then
      Function.update dicts dict
        (self.headers call.emit_new_didcomm_mime_type (dicts dict) call.api_key call.payload)
    else dicts
  | none => dicts

/-- The object is filled and pushed. -/
theorem filled_ends (call : Call) (headers : Dict) (s : Memory) :
    Ends exec (fun _ s' => Leaves self call s
        (headers.assign s.dicts (self.headers call.emit_new_didcomm_mime_type (headers.contents s.dicts) call.api_key
          call.payload))
        (self.headers call.emit_new_didcomm_mime_type (headers.contents s.dicts) call.api_key call.payload) s')
      (set_headers self call headers >>= push_message self call) s := by
  rw [ends_bind]
  refine (set_headers_ends call headers s).mono (fun _ s' ends => ?_)
  obtain ⟨headers',rfl,pushes,contents,dicts⟩ := ends
  refine (push_message_ends call headers' s').mono (fun _ s'' leaves => ?_)
  rw [contents] at leaves
  exact ⟨leaves.dicts.trans dicts, pushes ▸ leaves.pushes⟩

/-- The object that a call fills has the fields of its metadata, and is the caller's if there are any. -/
theorem metadata_ends (self : RedisOutboundQueue) {call : Call} (given : call.endpoint ≠ []) (s : Memory) :
    Ends exec (fun outcome s' => ∃ headers, outcome = .ok headers ∧ s' = s ∧
        headers.contents s.dicts = call.contents s.dicts ∧
        headers.assign s.dicts (self.headers call.emit_new_didcomm_mime_type (call.contents s.dicts) call.api_key
          call.payload) = assigned self s.dicts call)
      (Dict.metadata_or_new call.metadata) s := by
  rw [assigned,Call.contents]
  cases call.metadata with
  | none => exact ⟨.fresh [], rfl, rfl, rfl, rfl⟩
  | some dict =>
    intro _
    by_cases empty : s.dicts dict = []
    · refine ⟨.fresh [], ?_, rfl, empty.symm, ?_⟩
      · simp [exec,empty]
      · exact (if_neg (fun both => both.2 empty)).symm
    · refine ⟨.shared dict, ?_, rfl, rfl, ?_⟩
      · simp [exec,empty]
      · exact (if_pos ⟨given,empty⟩).symm

/-- What a call leaves, in every run: its headers are made of the fields that its metadata has then. -/
theorem handle_message_ends (call : Call) (s : Memory) :
    Ends exec (fun _ s' => Leaves self call s (assigned self s.dicts call)
        (self.headers call.emit_new_didcomm_mime_type (call.contents s.dicts) call.api_key call.payload) s')
      (handle_message self call) s := by
  rw [handle_message]
  by_cases given : call.endpoint = []
  · rw [if_pos given]
    refine ⟨?_, .inl rfl⟩
    rw [assigned]
    cases call.metadata with
    | none => rfl
    | some dict => exact (if_neg (fun both => both.1 given)).symm
  · rw [if_neg given,ends_bind]
    refine (metadata_ends self given s).mono (fun _ s' ends => ?_)
    obtain ⟨headers,rfl,rfl,contents,assigns⟩ := ends
    refine (filled_ends call headers s').mono (fun _ s'' leaves => ?_)
    rw [contents,assigns] at leaves
    exact leaves

/-- Without a mediator the call on Redis as it is appends the bytes of the record that is pushed here. -/
theorem handle_message_agrees (direct : self.is_mediator = false) {call : Call} (given : call.endpoint ≠ [])
    {dicts : Dicts} {topic : String} {record : Json}
    (made : Made self call (self.headers call.emit_new_didcomm_mime_type (call.contents dicts) call.api_key call.payload)
      topic record) :
    ∃ bytes, (self.json.dumps record).utf8 = .ok bytes ∧
      ∀ (py : RawRedis.Interpreter) (listing : RawRedis.Listing) (clock : RawRedis.Clock) (s : RawRedis.RawStore),
        Ends RawRedis.exec (fun outcome s' => outcome = .ok () ∧ s' = Outbound.appended s topic bytes)
          (Outbound.handle_message py listing self call.emit_new_didcomm_mime_type call.payload call.endpoint
            (call.contents dicts) call.api_key clock) s := by
  obtain ⟨value,encodes,made⟩ := made
  rw [if_neg (by rw [direct]; exact Bool.false_ne_true)] at made
  obtain ⟨rfl,rfl⟩ := made
  obtain ⟨bytes,written⟩ := self.json.encodes (outbound_record call.endpoint value
    (self.headers call.emit_new_didcomm_mime_type (call.contents dicts) call.api_key call.payload))
  exact ⟨bytes, written, fun py listing clock s =>
    Outbound.handle_message_appends py listing clock direct given encodes written s⟩

/-! ### Runs -/

theorem own_headers_eq (call : Call) (metadata : Headers) :
    own_headers self call.payload.isRight call.emit_new_didcomm_mime_type call.api_key metadata =
      if self.is_mediator then []
      else self.headers call.emit_new_didcomm_mime_type metadata call.api_key call.payload := by
  rw [own_headers]
  cases call.payload <;> rfl

theorem setItem_same {key : Text} {value : Json} {headers : Headers} (there : header key headers = some value) :
    Records.setItem key value headers = headers := by
  induction headers with
  | nil => cases there
  | cons field rest ih =>
    rw [Records.setItem]
    by_cases here : field.1 = key
    · have found : field.2 = value := by simpa [header,here] using there
      rw [if_pos here,← here,← found]
    · rw [if_neg here,ih (by simpa [header,here] using there)]

/-- The headers of a call are its metadata if that has what the call writes. -/
theorem headers_same_iff {emit_new_didcomm_mime_type : Bool} {metadata : Headers} {api_key : Option Text} {payload : Data} :
    self.headers emit_new_didcomm_mime_type metadata api_key payload = metadata ↔
      header (text "Content-Type") metadata = some (.str (content_type self emit_new_didcomm_mime_type payload)) ∧
        ∀ key, api_key = some key → header (text "x-api-key") metadata = some (.str key) := by
  constructor
  · intro same
    have overridden := headers_overridden self emit_new_didcomm_mime_type metadata api_key payload
    rw [same] at overridden
    refine ⟨overridden.content_type, fun key given => ?_⟩
    rw [overridden.api_key,given]
    rfl
  · rintro ⟨typed,keyed⟩
    rw [headers_eq]
    cases api_key with
    | none => exact setItem_same typed
    | some key =>
      simp only [setItem_same (keyed key rfl)]
      exact setItem_same typed

/-- A call is settled exactly when it leaves the objects as they are. -/
theorem settled_iff {dicts : Dicts} {call : Call} : Settled self dicts call ↔ assigned self dicts call = dicts := by
  rw [Settled,assigned,Call.contents]
  cases call.metadata with
  | none => exact iff_of_true (fun _ filled => absurd rfl filled) rfl
  | some dict =>
    by_cases both : call.endpoint ≠ [] ∧ dicts dict ≠ []
    · simp only [if_pos both,Function.update_eq_self_iff,headers_same_iff]
      exact ⟨fun settled => settled both.1 both.2, fun settled _ _ => settled⟩
    · simp only [if_neg both]
      exact iff_of_true (fun given filled => absurd ⟨given,filled⟩ both) trivial

/-- A settled call keeps what was pushed and the objects apart. -/
theorem isolated_step {dicts : Dicts} {call : Call} {s : Memory} (settled : Settled self dicts call)
    (isolated : Isolated self dicts s) :
    Ends exec (fun _ s' => Isolated self dicts s') (handle_message self call) s := by
  refine (handle_message_ends call s).mono (fun _ s' leaves => ?_)
  rw [isolated.unchanged] at leaves
  have unchanged : s'.dicts = dicts := leaves.dicts.trans (settled_iff.mp settled)
  rcases leaves.pushes with same | ⟨topic,record,pushed,made⟩
  · exact ⟨same ▸ isolated.own, same ▸ isolated.keyless, unchanged⟩
  · refine ⟨?_, ?_, unchanged⟩
    · rw [pushed,List.forall_mem_append]
      refine ⟨isolated.own, List.forall_mem_singleton.mpr ?_⟩
      rw [made_headers made,own_headers_eq]
    · rw [pushed,List.forall_mem_append]
      refine ⟨isolated.keyless, List.forall_mem_singleton.mpr (fun none value => ?_)⟩
      rw [made_headers made]
      split
      · exact fun found => nomatch found
      · rw [(headers_overridden self _ _ _ _).api_key,none]
        exact id

theorem isolated_run {dicts : Dicts} {calls : List Call} (settled : ∀ call ∈ calls, Settled self dicts call) {s : Memory}
    (isolated : Isolated self dicts s) :
    Ends exec (fun _ s' => Isolated self dicts s') (handle_messages self calls) s := by
  induction calls generalizing s with
  | nil => exact isolated
  | cons call later ih =>
    rw [handle_messages,ends_bind,ends_attempt]
    refine (isolated_step (settled call (.head _)) isolated).mono (fun _ s' kept => ?_)
    exact ih (fun other member => settled other (.tail _ member)) kept

/-- The objects after a run. -/
theorem handle_messages_dicts (calls : List Call) (s : Memory) :
    Ends exec (fun _ s' => s'.dicts = calls.foldl (assigned self) s.dicts) (handle_messages self calls) s := by
  induction calls generalizing s with
  | nil => rfl
  | cons call later ih =>
    rw [handle_messages,ends_bind,ends_attempt]
    refine (handle_message_ends call s).mono (fun _ s' leaves => ?_)
    have rest := ih s'
    rw [leaves.dicts] at rest
    exact rest

end

/-- Calls on given objects are isolated from each other, after each of them, exactly when every
    call is settled. -/
theorem isolated_iff (self : RedisOutboundQueue) (dicts : Dicts) (calls : List Call) :
    (∀ before, before <+: calls →
        Ends exec (fun _ s' => Isolated self dicts s') (handle_messages self before) ⟨dicts, []⟩) ↔
      ∀ call ∈ calls, Settled self dicts call := by
  constructor
  · intro isolated call member
    have kept : ∀ before, before <+: calls → before.foldl (assigned self) dicts = dicts := by
      intro before first
      obtain ⟨_,_,apart,final⟩ := (isolated before first).meet (handle_messages_dicts before ⟨dicts, []⟩)
      exact final.symm.trans apart.unchanged
    obtain ⟨before,after,rfl⟩ := List.append_of_mem member
    have next := kept (before ++ [call]) ⟨after, by simp⟩
    rw [List.foldl_append,kept before (List.prefix_append _ _)] at next
    exact settled_iff.mpr next
  · rintro settled before ⟨after,rfl⟩
    exact isolated_run (fun call member => settled call (List.mem_append_left _ member))
      ⟨List.forall_mem_nil _, List.forall_mem_nil _, rfl⟩

/-! ### Two calls with one object -/

/-- A call with an API key, then one without. -/
def calls_h : List Call := [⟨false, .inl [97], text "http://a", some 0, some (text "k")⟩,
  ⟨false, .inl [97], text "http://a", some 0, none⟩]

def memory_h : Memory := ⟨fun _ => metadata_h, []⟩

/-- The second message has the API key of the first. -/
theorem key_leaks :
    ((handle_messages queue_h calls_h).leaves exec memory_h).1.pushes.map
        (fun push => header (text "x-api-key") (headers_of push.record)) = [some (.str (text "k")), some (.str (text "k"))] ∧
      Ends exec (fun _ s' => ¬ Isolated queue_h memory_h.dicts s') (handle_messages queue_h calls_h) memory_h := by
  refine ⟨rfl, (handle_messages_dicts calls_h memory_h).mono (fun _ s' final isolated => ?_)⟩
  rw [isolated.unchanged] at final
  have fields := congrArg List.length (congrFun final 0)
  exact absurd fields (by decide)

end AcapyRedis.Metadata
