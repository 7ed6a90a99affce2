import AcapyRedis.Forwarding
import AcapyRedis.Responses
import AcapyRedis.Survival

/-!
The three encoders of outbound messages and the one decoder. `to_bytes` of
`redis_deliverer/deliver/__init__.py`, the `dict` of `RedisOutboundQueue.handle_message` and
the one of `process_delivery` write their fields in different orders and not the same ones;
`from_bytes` takes all of them back (`from_bytes_written`).
-/
namespace AcapyRedis.Codecs
open AcapyRedis.Programs AcapyRedis.Programs.Program AcapyRedis.Python AcapyRedis.RedisStore AcapyRedis.SortedSets
open AcapyRedis.Deliverer AcapyRedis.Base64 AcapyRedis.Records AcapyRedis.Handlers AcapyRedis.Payloads AcapyRedis.Survival
open AcapyRedis.Forwarding

/-! ### The encoders -/

/-- What `.json()` writes: the fields in the order of the class, without the private one. -/
def payload_dict (msg : OutboundPayload Headers) : Json :=
  .obj [(text "service", .obj [(text "url", .str msg.url)]), (text "payload", .str (b64_text msg.payload)),
    (text "headers", .obj msg.headers), (text "retries", .int msg.retries)]

/-- `RedisQueuePayload.to_bytes`. -/
def OutboundPayload.to_bytes (tools : Toolbox) (msg : OutboundPayload Headers) : Except PyError Bytes :=
  (tools.json.dumps (payload_dict msg)).utf8

/-- The `message` of `handle_message`, for the bytes of the payload. -/
def RedisOutboundQueue.message (self : RedisOutboundQueue) (endpoint : Text) (payload : Bytes) (headers : Headers) :
    Except PyError Bytes :=
  (self.json.dumps (outbound_record endpoint payload headers)).utf8

/-- The message to try once more. -/
def again {tools : Toolbox} (msg : Message tools) : Message tools :=
  ⟨⟨msg.url, msg.payload, msg.headers, msg.retries + 1⟩, msg.endpoint_scheme, msg.parsed⟩

/-! ### Headers -/

/-- `headers.get(name)`. -/
def header (name : Text) (headers : Headers) : Option Json :=
  (headers.find? (fun field => field.1 = name)).map (·.2)

/-- Metadata with a content type and, if there is one, an API key in the place of its own. -/
structure Overridden (metadata : Headers) (content_type : Text) (api_key : Option Text) (headers : Headers) : Prop where
  content_type : header (text "Content-Type") headers = some (.str content_type)
  api_key : header (text "x-api-key") headers = (api_key.map .str).or (header (text "x-api-key") metadata)
  rest : ∀ name, name ≠ text "Content-Type" → name ≠ text "x-api-key" → header name headers = header name metadata
  names : (metadata.map (·.1)).Nodup → (headers.map (·.1)).Nodup

/-- The content type of a payload: JSON for a `str`. -/
def content_type (self : RedisOutboundQueue) (emit_new_didcomm_mime_type : Bool) : Data → Text
  | .inr _ =>
    if emit_new_didcomm_mime_type then self.mime.DIDCOMM_V1_MIME_TYPE else self.mime.DIDCOMM_V0_MIME_TYPE
  | .inl _ => text "application/json"

theorem header_setItem (name key : Text) (value : Json) (headers : Headers) :
    header name (setItem key value headers) = if name = key then some value else header name headers := by
  induction headers with
  | nil =>
    by_cases same : name = key
    · simp [header,setItem,same]
    · simp [header,setItem,same,Ne.symm same]
  | cons field rest ih =>
    rw [setItem]
    split
    · next found =>
      by_cases same : name = key
      · simp [header,same]
      · simp [header,found,same,Ne.symm same]
    · next other =>
      by_cases here : field.1 = name
      · have differs : name ≠ key := fun same => other (here.trans same)
        simp [header,here,differs]
      · simp only [header,List.find?_cons,here,decide_false] at ih ⊢
        exact ih

theorem setItem_names (key : Text) (value : Json) (headers : Headers) :
    (setItem key value headers).map (·.1) =
      if key ∈ headers.map (·.1) then headers.map (·.1) else headers.map (·.1) ++ [key] := by
  induction headers with
  | nil => simp [setItem]
  | cons field rest ih =>
    rw [setItem]
    split
    · next found => simp [found]
    · next other =>
      rw [List.map_cons,ih]
      by_cases later : key ∈ rest.map (·.1)
      · have there : key ∈ (field :: rest).map (·.1) := List.mem_cons_of_mem _ later
        rw [if_pos later,if_pos there,List.map_cons]
      · have absent : key ∉ (field :: rest).map (·.1) := by
          rw [List.map_cons,List.mem_cons]
          exact fun here => here.elim (fun same => other same.symm) later
        rw [if_neg later,if_neg absent]
        rfl

theorem setItem_nodup (key : Text) (value : Json) {headers : Headers} (distinct : (headers.map (·.1)).Nodup) :
    ((setItem key value headers).map (·.1)).Nodup := by
  rw [setItem_names]
  split
  · exact distinct
  · next absent => exact List.nodup_append'.mpr ⟨distinct, List.nodup_singleton key, by simpa using absent⟩

/-- The headers are the metadata with the API key and then the content type set. -/
theorem headers_eq (self : RedisOutboundQueue) (emit_new_didcomm_mime_type : Bool) (metadata : Headers)
    (api_key : Option Text) (payload : Data) :
    self.headers emit_new_didcomm_mime_type metadata api_key payload =
      setItem (text "Content-Type") (.str (content_type self emit_new_didcomm_mime_type payload))
        (match api_key with
          | some api_key => setItem (text "x-api-key") (.str api_key) metadata
          | none => metadata) := by
  cases payload with
  | inl value => rfl
  | inr value => cases emit_new_didcomm_mime_type <;> rfl

theorem headers_overridden (self : RedisOutboundQueue) (emit_new_didcomm_mime_type : Bool) (metadata : Headers)
    (api_key : Option Text) (payload : Data) :
    Overridden metadata (content_type self emit_new_didcomm_mime_type payload) api_key
      (self.headers emit_new_didcomm_mime_type metadata api_key payload) := by
  have differ : text "x-api-key" ≠ text "Content-Type" := by decide
  rw [headers_eq]
  cases api_key with
  | none =>
    refine ⟨?_, ?_, fun name other _ => ?_, setItem_nodup _ _⟩
    · rw [header_setItem,if_pos rfl]
    · rw [header_setItem,if_neg differ]
      rfl
    · rw [header_setItem,if_neg other]
  | some api_key =>
    refine ⟨?_, ?_, fun name other other' => ?_, fun distinct => setItem_nodup _ _ (setItem_nodup _ _ distinct)⟩
    · rw [header_setItem,if_pos rfl]
    · rw [header_setItem,if_neg differ,header_setItem,if_pos rfl]
      rfl
    · rw [header_setItem,if_neg other,header_setItem,if_neg other']

/-! ### Decoding what was written -/

/-- What pydantic's documentation says of values that already have the type of their field. -/
structure Documented (tools : Toolbox) : Prop where
  service : ∀ url, tools.service (.obj [(text "url", .str url)]) = some url
  dict : ∀ headers, tools.dict (.obj headers) = some headers
  int : ∀ value, tools.int (.int value) = some value

section
variable {tools : Toolbox}

/-- Fields of the right types are valid; the retry count may be left out. -/
theorem fields_valid (documented : Documented tools) {data : List (Text × Json)} {msg : OutboundPayload Headers}
    (service : argument "service" data = some (.obj [(text "url", .str msg.url)]))
    (payload : argument "payload" data = some (.str (b64_text msg.payload)))
    (headers : argument "headers" data = some (.obj msg.headers))
    (retries : argument "retries" data = some (.int msg.retries) ∨ (argument "retries" data = none ∧ msg.retries = 0)) :
    Valid tools data msg := by
  refine ⟨⟨_, service, documented.service msg.url⟩, ?_, ?_, ?_⟩
  · exact ⟨_, _, payload, encodeAscii_text (urlsafe_b64encode_ascii msg.payload), urlsafe_b64decode_encode msg.payload⟩
  · rw [headers]
    exact documented.dict msg.headers
  · obtain given | ⟨absent,zero⟩ := retries
    · rw [given]
      exact documented.int msg.retries
    · rw [absent,zero]
      rfl

/-- `from_bytes` takes back a record with valid fields that `json` reads as it was written. -/
theorem from_bytes_written {data : List (Text × Json)} {msg : Message tools} {bytes : Bytes}
    (faithful : Faithful tools.json (.obj data)) (written : (tools.json.dumps (.obj data)).utf8 = .ok bytes)
    (own : argument "self" data = none) (other : argument "__pydantic_self__" data = none)
    (valid : Valid tools data msg.toOutboundPayload) : OutboundPayload.from_bytes tools bytes = .ok msg :=
  from_bytes_iff.mpr ⟨_, data, decode_utf8 written, faithful.text, own, other, valid⟩

theorem from_bytes_to_bytes (documented : Documented tools) {msg : Message tools} {bytes : Bytes}
    (faithful : Faithful tools.json (payload_dict msg.toOutboundPayload))
    (written : OutboundPayload.to_bytes tools msg.toOutboundPayload = .ok bytes) :
    OutboundPayload.from_bytes tools bytes = .ok msg :=
  from_bytes_written faithful written rfl rfl (fields_valid documented rfl rfl rfl (.inl rfl))

theorem from_bytes_message (documented : Documented tools) {self : RedisOutboundQueue} (same : self.json = tools.json)
    {endpoint scheme : Text} (parsed : tools.urlparse_scheme endpoint = .ok scheme) {payload bytes : Bytes}
    {headers : Headers} (faithful : Faithful tools.json (outbound_record endpoint payload headers))
    (written : RedisOutboundQueue.message self endpoint payload headers = .ok bytes) :
    OutboundPayload.from_bytes tools bytes = .ok ⟨⟨endpoint, payload, headers, 0⟩, scheme, parsed⟩ := by
  rw [RedisOutboundQueue.message,same] at written
  exact from_bytes_written faithful written rfl rfl (fields_valid documented rfl rfl rfl (.inr ⟨rfl,rfl⟩))

theorem from_bytes_retry (documented : Documented tools) {msg : Message tools} {bytes : Bytes}
    (faithful : Faithful tools.json (retry_record msg.toOutboundPayload))
    (written : retry_msg tools msg.toOutboundPayload = .ok bytes) : OutboundPayload.from_bytes tools bytes = .ok msg :=
  from_bytes_written faithful written rfl rfl (fields_valid documented rfl rfl rfl (.inl rfl))

end

/-! ### What is stored -/

/-- What is stored for a message whose POST fails is the encoding of the message to retry. -/
theorem deliver_stores {tools : Toolbox} {popped : Popped} {retry after : SortedSet Bytes} {msg : Message tools}
    (read : OutboundPayload.from_bytes tools popped.msg_bytes = .ok msg) (web : Web msg)
    (failed : popped.response.failed = true) (few : msg.retries < 5)
    (went : deliver tools popped retry = .ok after) :
    ∃ row, retry_msg tools (again msg).toOutboundPayload = .ok row ∧
      after = zadd retry row (tools.retry_time popped.now (msg.retries + 1)) := by
  obtain ⟨row,written⟩ := tools.json.encodes (retry_record msg.retried)
  have adds := (deliver_message retry read).1 web failed few
  cases fits : fits_float msg.retries with
  | true =>
    rw [adds,add_retry_ok retry written fits] at went
    exact ⟨row, written, (Except.ok.inj went).symm⟩
  | false =>
    rw [adds,add_retry_raises retry fits] at went
    cases went

/-- Metadata with one header, and a message that has been tried twice. -/
def metadata_h : Headers := [(text "h", .str (text "v"))]

def payload_a : OutboundPayload Headers := ⟨text "http://a", [97], metadata_h, 2⟩

end AcapyRedis.Codecs
