import AcapyRedis.RawRedis

/-!
`RedisOutboundQueue.handle_message` of `redis_queue/v1_0/outbound.py` on Redis as it is. Without
a mediator it appends the bytes of the message to the outbound topic (`handle_message_appends`),
and `from_bytes` of the deliverers takes them back, as it does with what `to_bytes` and a retry
write (`codecs_agree`).
-/
namespace AcapyRedis.Outbound
open AcapyRedis.Programs AcapyRedis.Programs.Program AcapyRedis.Python AcapyRedis.SortedSets AcapyRedis.Deliverer
open AcapyRedis.Records AcapyRedis.Handlers AcapyRedis.Payloads AcapyRedis.Survival AcapyRedis.Codecs AcapyRedis.RawRedis

/-! ### A call -/

/-- The call with a clock. `py` is what `process_payload_recip_key` uses. -/
def handle_message (py : Interpreter) (listing : Listing) (self : RedisOutboundQueue) (emit_new_didcomm_mime_type : Bool)
    (payload : Data) (endpoint : Text) (metadata : Headers) (api_key : Option Text) (clock : Clock) : Raw Unit := do
  if endpoint = [] then .raise .OutboundTransportError
  else do
    let headers := self.headers emit_new_didcomm_mime_type metadata api_key payload
    let payload ← ofExcept (message_data payload)
    let message ← ofExcept (RedisOutboundQueue.message self endpoint payload headers)
    let (topic, message) ← if self.is_mediator then
        process_payload_recip_key py listing (self.patience+1) clock payload self.outbound_topic
      else pure (self.outbound_topic, message)
    match ← (raw (.rpush topic message)).attempt with
    | .ok _ => return
    | .error .RedisError => return
    | .error .RedisClusterException => return
    | .error error => .raise error

/-- Redis with one more element in a list. -/
def appended (s : RawStore) (list : String) (value : Bytes) : RawStore :=
  { s with lists := Function.update s.lists list (s.lists list ++ [value]) }

section
variable (py : Interpreter) (listing : Listing) {self : RedisOutboundQueue} {emit_new_didcomm_mime_type : Bool}
  {payload : Data} {endpoint : Text} {metadata : Headers} {api_key : Option Text} (clock : Clock)

/-- Without a mediator a call appends its message to the outbound topic and changes nothing else. -/
theorem handle_message_appends (direct : self.is_mediator = false) {value bytes : Bytes} (given : endpoint ≠ [])
    (encodes : message_data payload = .ok value)
    (written : RedisOutboundQueue.message self endpoint value
      (self.headers emit_new_didcomm_mime_type metadata api_key payload) = .ok bytes) (s : RawStore) :
    Ends exec (fun outcome s' => outcome = .ok () ∧ s' = appended s self.outbound_topic bytes)
      (handle_message py listing self emit_new_didcomm_mime_type payload endpoint metadata api_key clock) s := by
  simp only [handle_message,given,↓reduceIte,encodes,written,ofExcept_ok,done_bind,direct,Bool.false_eq_true,pure_eq]
  exact fun _ => ⟨rfl,rfl⟩

end

/-! ### The codecs -/

/-- Every encoder is undone by `from_bytes`: that of a message, that of the element that a call for
    an endpoint pushes, and that of a message to retry, which counts one more retry. -/
theorem codecs_agree {tools : Toolbox} (documented : Documented tools) :
    (∀ msg : Message tools, Faithful tools.json (payload_dict msg.toOutboundPayload) →
      ∃ bytes, OutboundPayload.to_bytes tools msg.toOutboundPayload = .ok bytes ∧
        OutboundPayload.from_bytes tools bytes = .ok msg) ∧
    (∀ (self : RedisOutboundQueue) (emit_new_didcomm_mime_type : Bool) (payload : Data) (endpoint scheme : Text)
        (metadata : Headers) (api_key : Option Text) (value : Bytes),
      self.json = tools.json → self.is_mediator = false → endpoint ≠ [] →
      ∀ parsed : tools.urlparse_scheme endpoint = .ok scheme, message_data payload = .ok value →
      Faithful tools.json (outbound_record endpoint value
        (self.headers emit_new_didcomm_mime_type metadata api_key payload)) →
      ∃ headers, Overridden metadata (content_type self emit_new_didcomm_mime_type payload) api_key headers ∧
        ∀ (py : Interpreter) (listing : Listing) (clock : Clock) (s : RawStore),
          Ends exec (fun outcome s' => outcome = .ok () ∧ ∃ bytes, s' = appended s self.outbound_topic bytes ∧
              OutboundPayload.from_bytes tools bytes = .ok ⟨⟨endpoint, value, headers, 0⟩, scheme, parsed⟩)
            (handle_message py listing self emit_new_didcomm_mime_type payload endpoint metadata api_key clock) s) ∧
    (∀ (popped : Popped) (msg : Message tools) (retry after : SortedSet Bytes),
      OutboundPayload.from_bytes tools popped.msg_bytes = .ok msg → Web msg → popped.response.failed = true →
      msg.retries < 5 → Faithful tools.json (retry_record (again msg).toOutboundPayload) →
      deliver tools popped retry = .ok after →
      ∃ row, after = zadd retry row (tools.retry_time popped.now (msg.retries + 1)) ∧
        OutboundPayload.from_bytes tools row = .ok (again msg)) := by
  refine ⟨fun msg faithful => ?_, ?_, fun popped msg retry after read web failed few faithful went => ?_⟩
  · obtain ⟨bytes,written⟩ := tools.json.encodes (payload_dict msg.toOutboundPayload)
    exact ⟨bytes, written, from_bytes_to_bytes documented faithful written⟩
  · intro self emit payload endpoint scheme metadata api_key value same direct given parsed encodes faithful
    obtain ⟨bytes,written⟩ := self.json.encodes (outbound_record endpoint value (self.headers emit metadata api_key payload))
    have read := from_bytes_message documented same parsed faithful written
    refine ⟨self.headers emit metadata api_key payload, headers_overridden self emit metadata api_key payload,
      fun py listing clock s => ?_⟩
    refine (handle_message_appends py listing clock direct given encodes written s).mono (fun outcome s' pushed => ?_)
    exact ⟨pushed.1, bytes, pushed.2, read⟩
  · obtain ⟨row,written,rfl⟩ := deliver_stores read web failed few went
    exact ⟨row, rfl, from_bytes_retry documented faithful written⟩

/-! ### A message, its first record and its retry -/

def headers_h : Headers :=
  [(text "h", .str (text "v")), (text "x-api-key", .str (text "k")), (text "Content-Type", .str (text "application/json"))]

def records_a : List Json :=
  [payload_dict payload_a, outbound_record (text "http://a") [97] headers_h, retry_record payload_a.retried]

/-- Tools that take typed values as they are. -/
def tools_h : Toolbox := { tools_a with json := sample_json records_a }

def msg_a : Message tools_h := ⟨payload_a, text "http", by decide +kernel⟩

def queue_h : RedisOutboundQueue := ⟨sample_json records_a, Responses.mime_types, "o", false, 0⟩

theorem tools_h_documented : Documented tools_h := ⟨fun _ => rfl, fun _ => rfl, fun _ => rfl⟩

theorem records_a_faithful : ∀ record ∈ records_a, Faithful tools_h.json record := by
  have reads : ReadsBack records_a 0 (payload_dict payload_a) ∧
      ReadsBack records_a 1 (outbound_record (text "http://a") [97] headers_h) ∧
      ReadsBack records_a 2 (retry_record payload_a.retried) := by decide +kernel
  obtain ⟨first,second,third⟩ := reads
  intro record member
  simp only [records_a,List.mem_cons,List.not_mem_nil,or_false] at member
  obtain rfl | rfl | rfl := member
  · exact sample_faithful rfl first
  · exact sample_faithful rfl second
  · exact sample_faithful rfl third

/-- The bytes of a message decode to it; so do those that the queue pushes for its endpoint,
    and the row that is stored when its POST fails. -/
theorem codecs_agree_a :
    (∃ bytes, OutboundPayload.to_bytes tools_h payload_a = .ok bytes ∧
      OutboundPayload.from_bytes tools_h bytes = .ok msg_a ∧
      ∃ row, deliver tools_h ⟨bytes, .status 500, .sent, 0⟩ ∅ = .ok (zadd ∅ row 5) ∧
        OutboundPayload.from_bytes tools_h row = .ok (again msg_a)) ∧
    ∃ headers, Overridden metadata_h (text "application/json") (some (text "k")) headers ∧
      ∀ (py : Interpreter) (listing : Listing) (clock : Clock),
        Ends exec (fun outcome s' => outcome = .ok () ∧ ∃ bytes, s' = appended .empty "o" bytes ∧
            OutboundPayload.from_bytes tools_h bytes =
              .ok ⟨⟨text "http://a", [97], headers, 0⟩, text "http", msg_a.parsed⟩)
          (handle_message py listing queue_h false (.inl [97]) (text "http://a") metadata_h (some (text "k")) clock)
          .empty := by
  obtain ⟨first,second,third⟩ := codecs_agree tools_h_documented
  constructor
  · obtain ⟨bytes,written,read⟩ := first msg_a (records_a_faithful _ (by simp [records_a,msg_a]))
    have faithful : Faithful tools_h.json (retry_record (again msg_a).toOutboundPayload) :=
      records_a_faithful _ (.tail _ (.tail _ (.head _)))
    have survives : Survives tools_h ⟨bytes, .status 500, .sent, 0⟩ :=
      ⟨msg_a, from_bytes_iff.mp read, fun _ => rfl, fun _ => rfl, fun _ _ _ => of_decide_eq_true (by decide +kernel)⟩
    obtain ⟨after,went⟩ := (deliver_ok_iff ∅).mpr survives
    obtain ⟨row,rfl,decodes⟩ :=
      third ⟨bytes, .status 500, .sent, 0⟩ msg_a ∅ after read (.inl rfl) rfl (by decide) faithful went
    exact ⟨bytes, written, read, row, went, decodes⟩
  · obtain ⟨headers,overridden,pushes⟩ := second queue_h false (.inl [97]) (text "http://a") (text "http") metadata_h
      (some (text "k")) [97] rfl rfl (by decide) msg_a.parsed (by decide +kernel)
      (records_a_faithful _ (.tail _ (.head _)))
    exact ⟨headers, overridden, fun py listing clock => pushes py listing clock .empty⟩

end AcapyRedis.Outbound
