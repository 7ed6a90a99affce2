import AcapyRedis.Codecs
import AcapyRedis.JsonAccepts
import AcapyRedis.Listening

/-!
The records of the programs on the wire, with Python's `json` as it is instead of an assumption
about it. What a relay, a mediator, an instance or the deliverer writes is read back
(`records_read_back`), and the retries of an element of the outbound topic, whoever wrote it, say
what it said (`retries_faithful`).
-/
namespace AcapyRedis.Wire
open AcapyRedis.Python AcapyRedis.RedisStore AcapyRedis.JsonText AcapyRedis.Base64 AcapyRedis.Records AcapyRedis.Deliverer
open AcapyRedis.Payloads AcapyRedis.Survival AcapyRedis.Codecs AcapyRedis.Handlers AcapyRedis.SortedSets

/-! ### Strings -/

theorem readable_scalar {value : Text} (scalar : ∀ point ∈ value, Scalar point) : Readable value := by
  induction value using List.reverseRecOn with
  | nil => exact readable_nil
  | append_singleton value point ih =>
    have last := scalar point (by simp)
    exact readable_snoc (ih (fun other member => scalar other (List.mem_append_left _ member))) last.1
      (fun low => absurd low (by simp [last.2.2]))

theorem text_scalar (s : String) : ∀ point ∈ text s, Scalar point := by
  intro point member
  obtain ⟨c,_,rfl⟩ := List.mem_map.mp member
  exact valid_scalar c.valid

theorem readable_text (s : String) : Readable (text s) := readable_scalar (text_scalar s)

theorem b64_ascii (value : Bytes) : ∀ point ∈ b64_text value, point < 128 := by
  intro point member
  obtain ⟨byte,inside,rfl⟩ := List.mem_map.mp member
  exact urlsafe_b64encode_ascii value byte inside

theorem readable_b64 (value : Bytes) : Readable (b64_text value) :=
  readable_scalar (fun point member => small_scalar (b64_ascii value point member))

/-! ### Records -/

section
variable {limits : Limits} {floats : Floats}

/-- A JSON object whose keys are constants. -/
theorem record_writable {depth : Nat} (fields : List (String × Json)) (fits : depth < limits.depth)
    (distinct : (fields.map Prod.fst).Nodup)
    (each : ∀ field ∈ fields, Writable limits floats.Keeps (depth + 1) field.2) :
    Writable limits floats.Keeps depth (.obj (fields.map (fun field => (text field.1, field.2)))) := by
  refine .obj depth _ fits ?_ (fun field member => ?_) (fun field member => ?_)
  · rw [List.map_map]
    have names : Prod.fst ∘ (fun field : String × Json => (text field.1, field.2)) = text ∘ Prod.fst := rfl
    rw [names,← List.map_map]
    exact distinct.map (fun _ _ same => text_inj same)
  · obtain ⟨named,_,rfl⟩ := List.mem_map.mp member
    exact readable_text named.1
  · obtain ⟨named,there,rfl⟩ := List.mem_map.mp member
    exact each named there

/-- A message that is read back from its record. -/
structure Sendable (limits : Limits) (floats : Floats) (msg : OutboundPayload Headers) : Prop where
  url : Readable msg.url
  headers : Writable limits floats.Keeps 1 (.obj msg.headers)
  retries : (numeral msg.retries.natAbs).length ≤ limits.digits

theorem Sendable.deep {msg : OutboundPayload Headers} (sendable : Sendable limits floats msg) : 1 < limits.depth := by
  cases sendable.headers with
  | obj _ _ fits => exact fits

theorem service_writable {url : Text} (deep : 1 < limits.depth) (readable : Readable url) :
    Writable limits floats.Keeps 1 (.obj [(text "url", .str url)]) := by
  refine record_writable [("url", .str url)] deep (List.nodup_singleton _) (fun field member => ?_)
  rw [List.mem_singleton.mp member]
  exact .str _ _ readable

theorem retry_writable {msg : OutboundPayload Headers} (sendable : Sendable limits floats msg) :
    Writable limits floats.Keeps 0 (retry_record msg) := by
  have deep := sendable.deep
  refine record_writable [("service", .obj [(text "url", .str msg.url)]), ("headers", .obj msg.headers),
    ("payload", .str (b64_text msg.payload)), ("retries", .int msg.retries)] (by omega) (by simp) ?_
  simp only [List.forall_mem_cons]
  exact ⟨service_writable deep sendable.url,sendable.headers,.str _ _ (readable_b64 _),.int _ _ sendable.retries,
    List.forall_mem_nil _⟩

theorem payload_dict_writable {msg : OutboundPayload Headers} (sendable : Sendable limits floats msg) :
    Writable limits floats.Keeps 0 (payload_dict msg) := by
  have deep := sendable.deep
  refine record_writable [("service", .obj [(text "url", .str msg.url)]), ("payload", .str (b64_text msg.payload)),
    ("headers", .obj msg.headers), ("retries", .int msg.retries)] (by omega) (by simp) ?_
  simp only [List.forall_mem_cons]
  exact ⟨service_writable deep sendable.url,.str _ _ (readable_b64 _),sendable.headers,.int _ _ sendable.retries,
    List.forall_mem_nil _⟩

theorem outbound_writable {endpoint : Text} {headers : Headers} (readable : Readable endpoint)
    (headers_writable : Writable limits floats.Keeps 1 (.obj headers)) (payload : Bytes) :
    Writable limits floats.Keeps 0 (outbound_record endpoint payload headers) := by
  have deep : 1 < limits.depth := by
    cases headers_writable with
    | obj _ _ fits => exact fits
  refine record_writable [("service", .obj [(text "url", .str endpoint)]), ("payload", .str (b64_text payload)),
    ("headers", .obj headers)] (by omega) (by simp) ?_
  simp only [List.forall_mem_cons]
  exact ⟨service_writable deep readable,.str _ _ (readable_b64 _),headers_writable,List.forall_mem_nil _⟩

theorem payload_writable (deep : 0 < limits.depth) (payload : Bytes) :
    Writable limits floats.Keeps 0 (payload_record payload) := by
  refine record_writable [("payload", .str (b64_text payload))] deep (List.nodup_singleton _) (fun field member => ?_)
  rw [List.mem_singleton.mp member]
  exact .str _ _ (readable_b64 _)

theorem relay_writable (deep : 0 < limits.depth) (message_data : Bytes) {txn_id : Option Text}
    (readable : ∀ id ∈ txn_id, Readable id) (transport_type : String) :
    Writable limits floats.Keeps 0 (relay_record message_data txn_id transport_type) := by
  have payload : Writable limits floats.Keeps 1 (.str (b64_text message_data)) := .str _ _ (readable_b64 _)
  have kind : Writable limits floats.Keeps 1 (.str (text transport_type)) := .str _ _ (readable_text _)
  cases txn_id with
  | none =>
    refine record_writable [("payload", .str (b64_text message_data)), ("transport_type", .str (text transport_type))]
      deep (by simp) ?_
    simp only [List.forall_mem_cons]
    exact ⟨payload,kind,List.forall_mem_nil _⟩
  | some id =>
    refine record_writable [("payload", .str (b64_text message_data)), ("txn_id", .str id),
      ("transport_type", .str (text transport_type))] deep (by simp) ?_
    simp only [List.forall_mem_cons]
    exact ⟨payload,.str _ _ (readable id rfl),kind,List.forall_mem_nil _⟩

theorem response_writable (deep : 1 < limits.depth) (mime : MimeTypes) {txn_id : Text} (readable : Readable txn_id)
    {content_type : Option ContentType} (typed : ∀ kind ∈ content_type, Readable (mime.value kind)) (response : Bytes) :
    Writable limits floats.Keeps 0 (response_record mime txn_id content_type response) := by
  have data : Writable limits floats.Keeps 1 (response_data mime content_type response) := by
    cases content_type with
    | none =>
      refine record_writable [("response", .str (b64_text response))] deep (List.nodup_singleton _) (fun field member => ?_)
      rw [List.mem_singleton.mp member]
      exact .str _ _ (readable_b64 _)
    | some kind =>
      refine record_writable [("content-type", .str (mime.value kind)), ("response", .str (b64_text response))]
        deep (by simp) ?_
      simp only [List.forall_mem_cons]
      exact ⟨.str _ _ (typed kind rfl),.str _ _ (readable_b64 _),List.forall_mem_nil _⟩
  refine record_writable [("txn_id", .str txn_id), ("response_data", response_data mime content_type response)]
    (by omega) (by simp) ?_
  simp only [List.forall_mem_cons]
  exact ⟨.str _ _ readable,data,List.forall_mem_nil _⟩

variable (codec : Codec)

/-- A relay reads a record of an instance and stores its data for the transaction. -/
theorem response_read {mime : MimeTypes} {txn_id : Text} {content_type : Option ContentType} {response msg : Bytes}
    (writable : Writable limits floats.Keeps 0 (response_record mime txn_id content_type response))
    (written : ((python_json limits floats codec).dumps (response_record mime txn_id content_type response)).utf8 = .ok msg)
    (map : Listening.ResponseMap) :
    Listening.process_direct_response (python_json limits floats codec).loads map msg =
      .ok { map with
        strings := Function.update map.strings txn_id (some (.response_data (response_data mime content_type response))) } := by
  have read := (python_json_faithful floats codec writable).text
  rw [Listening.process_direct_response,decode_utf8 written,ok_bind,read,ok_bind,response_record]
  rfl

/-- What is written to Redis is read back, whatever the payload is: by an instance the records of
    a mediator and of a relay, and by a relay the records of an instance. -/
theorem records_read_back (deep : 1 < limits.depth) :
    (∀ payload, entry_of (python_json limits floats codec) (payload_record payload) = .ok (.inbound payload none)) ∧
    (∀ message_data txn_id transport_type, (∀ id ∈ txn_id, Readable id) →
      entry_of (python_json limits floats codec) (relay_record message_data txn_id transport_type) =
        .ok (.inbound message_data txn_id)) ∧
    ∀ (map : Listening.ResponseMap) (mime : MimeTypes) txn_id content_type response msg, Readable txn_id →
      (∀ kind, Readable (mime.value kind)) →
      ((python_json limits floats codec).dumps (response_record mime txn_id content_type response)).utf8 = .ok msg →
      Listening.process_direct_response (python_json limits floats codec).loads map msg =
        .ok { map with
          strings := Function.update map.strings txn_id (some (.response_data (response_data mime content_type response))) } := by
  have some_depth : 0 < limits.depth := by omega
  refine ⟨fun payload => ?_,fun message_data txn_id transport_type readable => ?_,?_⟩
  · exact entry_of_payload_record (python_json_faithful floats codec (payload_writable some_depth payload))
  · have writable : Writable limits floats.Keeps 0 (relay_record message_data txn_id transport_type) :=
      relay_writable some_depth message_data readable transport_type
    exact entry_of_relay_record (python_json_faithful floats codec writable)
  · intro map mime txn_id content_type response msg readable typed written
    exact response_read codec (response_writable deep mime readable (fun kind _ => typed kind) response) written map

end

/-! ### What the outbound topic holds -/

theorem decode_scalar {bytes : Bytes} {decoded : Text} (decodes : bytes.decode = .ok decoded) :
    ∀ point ∈ decoded, Scalar point := by
  unfold Bytes.decode at decodes
  split at decodes
  · cases decodes
    exact text_scalar _
  · cases decodes

/-- What pydantic makes of well-formed JSON is well formed: a `str` of a `url`, a `dict` no deeper
    than what it is made of, and an `int` that can be written. -/
structure Coerces (tools : Toolbox) (limits : Limits) : Prop where
  service : ∀ value url, Given limits 1 value → tools.service value = some url → Readable url
  dict : ∀ value headers, Given limits 1 value → tools.dict value = some headers → Given limits 1 (.obj headers)
  int : ∀ value n, Given limits 1 value → tools.int value = some n → (numeral n.natAbs).length ≤ limits.digits

section
variable {tools : Toolbox} {limits : Limits} {floats : Floats} {codec : Codec}

theorem argument_given {name : String} {data : List (Text × Json)} {value : Json} (given : Given limits 0 (.obj data))
    (there : argument name data = some value) : Given limits 1 value := by
  obtain ⟨field,found,rfl⟩ := Option.map_eq_some_iff.mp there
  cases given with
  | obj _ _ _ _ _ each => exact each field (List.mem_of_find?_eq_some found)

/-- A field with a default that is given or not. -/
theorem not_none_given {α : Type} {validator : Json → Option α} {default result : α} {name : String}
    {data : List (Text × Json)} (given : Given limits 0 (.obj data))
    (accepted : not_none validator default (argument name data) = some result) :
    result = default ∨ ∃ value, Given limits 1 value ∧ validator value = some result := by
  cases there : argument name data with
  | none =>
    rw [there] at accepted
    exact .inl (Option.some.inj accepted).symm
  | some value =>
    rw [there] at accepted
    cases value with
    | null => exact .inl (Option.some.inj accepted).symm
    | _ => exact .inr ⟨_,argument_given given there,accepted⟩

/-- A message that was read can be written, if its floats can. -/
theorem read_sendable (same : tools.json = python_json limits floats codec) (coerces : Coerces tools limits)
    (deep : 1 < limits.depth) (digit : 0 < limits.digits) {bytes : Bytes} {msg : Message tools}
    (read : OutboundPayload.from_bytes tools bytes = .ok msg)
    (kept : ∀ literal ∈ float_literals (.obj msg.headers), floats.Keeps literal) :
    Sendable limits floats msg.toOutboundPayload := by
  obtain ⟨decoded,data,decodes,loaded,_,_,valid⟩ := from_bytes_iff.mp read
  rw [same] at loaded
  have given : Given limits 0 (.obj data) := loads_given (decode_scalar decodes) loaded
  obtain ⟨service,named,url⟩ := valid.service
  refine ⟨coerces.service service _ (argument_given given named) url,given_writable ?_ kept,?_⟩
  · rcases not_none_given given valid.headers with default | ⟨value,inside,typed⟩
    · rw [default]
      exact (fields_sound_nil deep).obj
    · exact coerces.dict value _ inside typed
  · rcases not_none_given given valid.retries with default | ⟨value,inside,typed⟩
    · rw [default]
      exact digit
    · exact coerces.int value _ inside typed

theorem Sendable.again {msg : OutboundPayload Headers} (sendable : Sendable limits floats msg) (few : msg.retries < 5) :
    Sendable limits floats msg.retried := by
  have digits := sendable.retries
  rw [numeral,List.length_map] at digits
  have some_digit : 0 < limits.digits := Nat.lt_of_lt_of_le Nat.length_toDigits_pos digits
  have small := (Nat.length_toDigits_le_iff (by decide) some_digit).mp digits
  have ten : 10 ≤ 10 ^ limits.digits := Nat.le_self_pow (by omega) 10
  have next : (numeral (msg.retries + 1).natAbs).length ≤ limits.digits := by
    rw [numeral,List.length_map]
    exact (Nat.length_toDigits_le_iff (by decide) some_digit).mpr (by omega)
  exact ⟨sendable.url,sendable.headers,next⟩

/-- An iteration of `process_delivery` on a row adds another row to the retry set. -/
def Retried (tools : Toolbox) (row row' : Bytes) : Prop :=
  ∃ (popped : Popped) (retry after : SortedSet Bytes), popped.msg_bytes = row ∧ deliver tools popped retry = .ok after ∧
    row' ∈ after ∧ row' ∉ retry

/-- The row is the record of the message with one more retry. -/
theorem retried_row {row row' : Bytes} (retried : Retried tools row row') :
    ∃ msg, OutboundPayload.from_bytes tools row = .ok msg ∧ Web msg ∧ msg.retries < 5 ∧
      retry_msg tools msg.retried = .ok row' := by
  obtain ⟨popped,retry,after,rfl,went,there,fresh⟩ := retried
  obtain ⟨msg,read,_⟩ := bind_ok_iff.mp went
  obtain ⟨again,settled,raised,ws,others⟩ := deliver_message retry read
  by_cases web : Web msg
  · have caught : popped.response.raises = false := by
      refine Bool.eq_false_iff.mpr (fun raises => ?_)
      obtain ⟨error,thrown⟩ := result_error raises
      rw [raised web error thrown] at went
      cases went
    by_cases failed : popped.response.failed = true ∧ msg.retries < 5
    · rw [again web failed.1 failed.2] at went
      obtain ⟨row,written⟩ := tools.json.encodes (retry_record msg.retried)
      cases fits : fits_float msg.retries with
      | true =>
        rw [add_retry_ok retry written fits] at went
        cases went
        rcases mem_zadd.mp there with rfl | old
        · exact ⟨msg,read,web,failed.2,written⟩
        · exact absurd old fresh
      | false =>
        rw [add_retry_raises retry fits] at went
        cases went
    · rw [settled web caught failed] at went
      cases went
      exact absurd there fresh
  · by_cases scheme : msg.endpoint_scheme = text "ws"
    · rw [ws scheme] at went
      obtain ⟨_,_,ended⟩ := bind_ok_iff.mp went
      cases ended
      exact absurd there fresh
    · rw [others web scheme] at went
      cases went
      exact absurd there fresh

/-- Rows that are retries of each other, so many in all. -/
inductive Retries (tools : Toolbox) (first : Bytes) : Nat → Bytes → Prop
  | first : Retries tools first 0 first
  | again {n row row'} : Retries tools first n row → Retried tools row row' → Retries tools first (n + 1) row'

/-- The message after so many retries. -/
def after_retries (msg : Message tools) (n : Nat) : Message tools :=
  ⟨⟨msg.url, msg.payload, msg.headers, msg.retries + n⟩, msg.endpoint_scheme, msg.parsed⟩

theorem again_after (msg : Message tools) (n : Nat) : again (after_retries msg n) = after_retries msg (n + 1) := by
  have count : msg.retries + n + 1 = msg.retries + (n + 1 : Nat) := by omega
  simp only [again,after_retries,count]

/-- One retry of a message that is read back. -/
theorem retried_read (documented : Documented tools) (same : tools.json = python_json limits floats codec)
    {row row' : Bytes} {msg : Message tools} (read : OutboundPayload.from_bytes tools row = .ok msg)
    (sendable : Sendable limits floats msg.toOutboundPayload) (retried : Retried tools row row') :
    msg.retries < 5 ∧ OutboundPayload.from_bytes tools row' = .ok (again msg) ∧
      Sendable limits floats (again msg).toOutboundPayload := by
  obtain ⟨other,read',_,few,written⟩ := retried_row retried
  have found : other = msg := Except.ok.inj (read'.symm.trans read)
  subst found
  have next : Sendable limits floats (again other).toOutboundPayload := sendable.again few
  have faithful : Faithful tools.json (retry_record (again other).toOutboundPayload) := by
    rw [same]
    exact python_json_faithful floats codec (retry_writable next)
  exact ⟨few,from_bytes_retry documented faithful written,next⟩

/-- An element that is a message, whoever wrote it, and all its retries say the same: url, payload
    and headers stay and the retries are counted, up to the fifth. -/
theorem retries_faithful (documented : Documented tools) (same : tools.json = python_json limits floats codec)
    (coerces : Coerces tools limits) (deep : 1 < limits.depth) (digit : 0 < limits.digits) {first row : Bytes} {n : Nat}
    {msg : Message tools} (read : OutboundPayload.from_bytes tools first = .ok msg)
    (kept : ∀ literal ∈ float_literals (.obj msg.headers), floats.Keeps literal) (retries : Retries tools first n row) :
    OutboundPayload.from_bytes tools row = .ok (after_retries msg n) ∧ (n = 0 ∨ msg.retries + n ≤ 5) := by
  have whole : OutboundPayload.from_bytes tools row = .ok (after_retries msg n) ∧
      Sendable limits floats (after_retries msg n).toOutboundPayload ∧ (n = 0 ∨ msg.retries + n ≤ 5) := by
    have none_yet : after_retries msg 0 = msg := by
      have count : msg.retries + (0 : Nat) = msg.retries := Int.add_zero _
      simp only [after_retries,count]
    induction retries with
    | first =>
      rw [none_yet]
      exact ⟨read,read_sendable same coerces deep digit read kept,.inl rfl⟩
    | @again n row row' _ retried ih =>
      obtain ⟨read,sendable,_⟩ := ih
      obtain ⟨few,read',sendable'⟩ := retried_read documented same read sendable retried
      have count : msg.retries + n < 5 := few
      rw [again_after] at read' sendable'
      exact ⟨read',sendable',.inr (by omega)⟩
  exact ⟨whole.1,whole.2.2⟩

end

/-! ### A message that fails once -/

def limits_a : Limits := ⟨4300, 900⟩

/-- Floats whose shortest form is the literal. -/
def floats_a : Floats where
  repr literal := literal.filter (fun point => 32 ≤ point && point < 127)
  printable _ point member := by simpa using (List.mem_filter.mp member).2

def codec_a : Codec := ⟨fun _ bytes => bytes.decode, fun _ _ decodes => decodes⟩

def tools_p : Toolbox := { tools_a with json := python_json limits_a floats_a codec_a }

theorem tools_p_documented : Documented tools_p := ⟨fun _ => rfl, fun _ => rfl, fun _ => rfl⟩

theorem tools_p_coerces : Coerces tools_p limits_a := by
  refine ⟨fun value url given accepted => ?_,fun value headers given accepted => ?_,fun value n given accepted => ?_⟩
  · cases value with
    | obj fields =>
      cases found : fields.find? (fun field => field.1 = text "url") with
      | none => simp [tools_p,tools_a,Json.getItem,found] at accepted
      | some field =>
        cases given with
        | obj _ _ _ _ _ each =>
          have inside := each field (List.mem_of_find?_eq_some found)
          obtain ⟨key,value⟩ := field
          cases value with
          | str value =>
            simp only [tools_p,tools_a,Json.getItem,found,Option.some.injEq] at accepted
            cases inside with
            | str _ _ readable => exact accepted ▸ readable
          | _ => simp [tools_p,tools_a,Json.getItem,found] at accepted
    | _ => cases accepted
  · cases value with
    | obj fields => exact Option.some.inj accepted ▸ given
    | _ => cases accepted
  · cases value with
    | int value =>
      cases given with
      | int _ _ few => exact Option.some.inj accepted ▸ few
    | _ => cases accepted

theorem metadata_h_writable : Writable limits_a floats_a.Keeps 1 (.obj metadata_h) := by
  refine record_writable [("h", .str (text "v"))] (by decide) (List.nodup_singleton _) (fun field member => ?_)
  rw [List.mem_singleton.mp member]
  exact .str _ _ (readable_text "v")

def msg_p : Message tools_p := ⟨payload_a, text "http", by decide +kernel⟩

theorem payload_a_sendable : Sendable limits_a floats_a payload_a :=
  ⟨readable_text "http://a",metadata_h_writable,by decide⟩

/-- What is written for the second retry of a message is read as it is, and so is the third. -/
theorem retries_faithful_a : ∃ first row, Retries tools_p first 1 row ∧
    OutboundPayload.from_bytes tools_p row = .ok (after_retries msg_p 1) := by
  obtain ⟨first,written⟩ := tools_p.json.encodes (payload_dict payload_a)
  have read : OutboundPayload.from_bytes tools_p first = .ok msg_p :=
    @from_bytes_to_bytes _ tools_p_documented msg_p _
      (python_json_faithful floats_a codec_a (payload_dict_writable payload_a_sendable)) written
  obtain ⟨row,written'⟩ := tools_p.json.encodes (retry_record payload_a.retried)
  have went : deliver tools_p ⟨first, .status 500, .sent, 0⟩ ∅ = .ok (zadd ∅ row 5) := by
    rw [(deliver_message ∅ read).1 (.inl rfl) rfl (by decide)]
    exact add_retry_ok ∅ written' (by decide +kernel)
  have retries : Retries tools_p first 1 row :=
    .again .first ⟨_,∅,_,rfl,went,mem_zadd.mpr (.inl rfl),AList.notMem_empty row⟩
  exact ⟨first,row,retries,(retries_faithful tools_p_documented rfl tools_p_coerces (by decide) (by decide) read
    (fun _ member => absurd member List.not_mem_nil) retries).1⟩

theorem mime_types_readable (content_type : ContentType) : Readable (Responses.mime_types.value content_type) := by
  cases content_type with
  | DIDCOMM_V0_MIME_TYPE => exact readable_text _
  | DIDCOMM_V1_MIME_TYPE => exact readable_text _
  | application_json => exact readable_text _

/-- A relay that has no responses yet. -/
def no_responses : Listening.ResponseMap := ⟨fun _ => none, []⟩

/-- What an instance answers to the message with the id `x`. -/
def response_x : Json :=
  response_record Responses.mime_types (text "x") (some .DIDCOMM_V0_MIME_TYPE) Responses.empty_object

/-- The records of a mediator and of a relay for a byte are read back, and the response of an
    instance is found under its id. -/
theorem records_read_back_a :
    entry_of (python_json limits_a floats_a codec_a) (payload_record [97]) = .ok (.inbound [97] none) ∧
    entry_of (python_json limits_a floats_a codec_a) (relay_record [97] (some (text "x")) "http") =
      .ok (.inbound [97] (some (text "x"))) ∧
    ∃ msg map, ((python_json limits_a floats_a codec_a).dumps response_x).utf8 = .ok msg ∧
      Listening.process_direct_response (python_json limits_a floats_a codec_a).loads no_responses msg = .ok map ∧
      map.strings (text "x") = some (.response_data
        (response_data Responses.mime_types (some .DIDCOMM_V0_MIME_TYPE) Responses.empty_object)) := by
  obtain ⟨payloads,messages,responses⟩ := @records_read_back limits_a floats_a codec_a (by decide)
  obtain ⟨msg,written⟩ := (python_json limits_a floats_a codec_a).encodes response_x
  have found := responses no_responses _ _ _ _ msg (readable_text "x") mime_types_readable written
  refine ⟨payloads [97],messages [97] (some (text "x")) "http" ?_,msg,_,written,found,?_⟩
  · rintro id ⟨⟩
    exact readable_text "x"
  · simp only [Function.update_self]

end AcapyRedis.Wire
