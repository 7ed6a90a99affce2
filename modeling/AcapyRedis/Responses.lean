import AcapyRedis.Agreement

/-!
A direct response from an instance to the HTTP reply of the relay. The body arrives
(`reply_of_record`), but the instance records the content type as `content-type` and the
handler looks for `content_type`, so every reply is sent as JSON; the reply is the response
exactly when the response was text (`delivered_iff`).
-/
namespace AcapyRedis.Responses
open AcapyRedis.Python AcapyRedis.RedisStore AcapyRedis.Utils AcapyRedis.Inbound AcapyRedis.Base64 AcapyRedis.Records
open AcapyRedis.Handlers

/-! ### From the agent to the reply -/

/-- The bytes of a response. -/
def Response.utf8 : Response → Except PyError Bytes
  | .bytes value => .ok value
  | .str value => value.utf8

/-- The content type that the instance records. -/
def recorded (self : RedisInboundTransport) : Response → ContentType
  | .bytes _ => if self.emit_new_didcomm_mime_type then .DIDCOMM_V1_MIME_TYPE else .DIDCOMM_V0_MIME_TYPE
  | .str _ => .application_json

/-- The message that an instance pushes for an entry. `direct_response` makes no other entries. -/
def response_message (mime : MimeTypes) : Entry → Json
  | .direct_response txn_id content_type response => response_record mime txn_id content_type response
  | _ => .null

/-- What `process_direct_responses` reads. -/
def popped (json : JsonModule) (msg : Bytes) : Except PyError Json := do json.loads (.inr (← msg.decode))

/-- The instance pushes the response, the relay pops it and the handler replies. -/
def http_reply (json : JsonModule) (mime : MimeTypes) (self : RedisInboundTransport) (relay : Relays.Relay)
    (txn_id : Text) (response : Response) : Except PyError (Option HttpResponse) := do
  let entry ← self.direct_response txn_id (some response)
  let msg ← (json.dumps (response_message mime entry)).utf8
  match (relay.receive (popped json msg)).direct_response_txn_request_map txn_id with
  | some entry => HttpRelay.answer (.found entry)
  | none => HttpRelay.answer .timeout

/-- The reply is the response with the content type that the instance has recorded. -/
def Delivered (mime : MimeTypes) (self : RedisInboundTransport) (response : Response)
    (reply : Except PyError (Option HttpResponse)) : Prop :=
  ∃ body bytes, reply = .ok (some ⟨200, some (.str (mime.value (recorded self response))), body⟩) ∧
    body.utf8 = .ok bytes ∧ Response.utf8 response = .ok bytes

/-- A response that is not empty; bytes are UTF-8. -/
def Proper : Response → Prop
  | .bytes value => value ≠ [] ∧ ∃ body, value.decode = .ok body
  | .str value => value ≠ []

/-! ### The reply -/

section
variable {json : JsonModule} {mime : MimeTypes} {self : RedisInboundTransport} {txn_id : Text} {response : Response}

/-- The handler decodes what was recorded and does not find the content type. -/
theorem reply_of_record {bytes : Bytes} {body : Text} (content_type : ContentType) (some_byte : bytes ≠ [])
    (decoded : bytes.decode = .ok body) :
    HttpRelay.reply (response_data mime (some content_type) bytes) =
      .ok (some ⟨200, some (.str (text "application/json")), body⟩) := by
  have response : (response_data mime (some content_type) bytes).getItem "response" = .ok (.str (b64_text bytes)) := by rfl
  have unknown : (response_data mime (some content_type) bytes).getItem "content_type" = .error .KeyError := by rfl
  simp only [HttpRelay.reply,response,unknown,ok_bind,b64_of_json,b64_to_bytes_encode,some_byte,↓reduceIte,decoded,pure_ok,
    Except.toOption,Option.getD_none]

/-- The relay stores the response data of the record for the transaction. -/
theorem relay_receives (relay : Relays.Relay) {content_type : Option ContentType} {bytes msg : Bytes}
    (faithful : Faithful json (response_record mime txn_id content_type bytes))
    (encoded : (json.dumps (response_record mime txn_id content_type bytes)).utf8 = .ok msg) :
    (relay.receive (popped json msg)).direct_response_txn_request_map txn_id =
      some (.response_data (response_data mime content_type bytes)) := by
  have read : popped json msg = .ok (response_record mime txn_id content_type bytes) := by
    rw [popped,decode_utf8 encoded,ok_bind]
    exact faithful.text
  have found : Relays.direct_response (.ok (response_record mime txn_id content_type bytes)) =
      .ok (some (.str txn_id, response_data mime content_type bytes)) := by rfl
  simp only [Relays.Relay.receive,read,found]
  exact Function.update_self _ _ _

theorem utf8_nonempty {value : Text} {bytes : Bytes} (encoded : value.utf8 = .ok bytes) (some_point : value ≠ []) :
    bytes ≠ [] := by
  rintro rfl
  have decoded := decode_utf8 encoded
  have empty : Bytes.decode [] = .ok [] := by decide
  rw [empty] at decoded
  cases decoded
  exact some_point rfl

/-- The entry of a response whose bytes are known. -/
theorem direct_response_entry (self : RedisInboundTransport) (txn_id : Text) {bytes : Bytes} (proper : Proper response)
    (encoded : Response.utf8 response = .ok bytes) :
    self.direct_response txn_id (some response) = .ok (.direct_response txn_id (some (recorded self response)) bytes) ∧
      bytes ≠ [] := by
  cases response with
  | bytes value =>
    cases encoded
    obtain ⟨some_byte,_⟩ := proper
    cases bytes with
    | nil => exact absurd rfl some_byte
    | cons first rest => exact ⟨rfl,some_byte⟩
  | str value =>
    cases value with
    | nil => exact absurd rfl proper
    | cons first rest =>
      have kept := utf8_nonempty encoded proper
      simp only [Response.utf8,Text.utf8] at encoded
      cases points : Text.encode (first :: rest) with
      | error error =>
        rw [points] at encoded
        cases encoded
      | ok s =>
        rw [points] at encoded
        cases encoded
        refine ⟨?_, kept⟩
        simp only [RedisInboundTransport.direct_response,points]
        rfl

/-- The reply to a response whose bytes are known. -/
theorem http_reply_json {bytes : Bytes} {body : Text} (relay : Relays.Relay) (proper : Proper response)
    (encoded : Response.utf8 response = .ok bytes) (decoded : bytes.decode = .ok body)
    (faithful : Faithful json (response_record mime txn_id (some (recorded self response)) bytes)) :
    http_reply json mime self relay txn_id response =
      .ok (some ⟨200, some (.str (text "application/json")), body⟩) := by
  obtain ⟨entry,some_byte⟩ := direct_response_entry self txn_id proper encoded
  obtain ⟨msg,written⟩ := json.encodes (response_record mime txn_id (some (recorded self response)) bytes)
  simp only [http_reply,entry,ok_bind,response_message,written,relay_receives relay faithful written,HttpRelay.answer,
    reply_of_record (recorded self response) some_byte decoded]

/-- The HTTP reply is the response of the agent, with its content type, exactly when the
    response is text that can be encoded. -/
theorem delivered_iff (relay : Relays.Relay) (proper : Proper response)
    (faithful : ∀ bytes, Response.utf8 response = .ok bytes →
      Faithful json (response_record mime txn_id (some (recorded self response)) bytes)) :
    Delivered mime self response (http_reply json mime self relay txn_id response) ↔
      ∃ value bytes, response = .str value ∧ value.utf8 = .ok bytes := by
  cases response with
  | bytes value =>
    obtain ⟨body,decoded⟩ := proper.2
    have reply := http_reply_json relay proper rfl decoded (faithful value rfl)
    constructor
    · rintro ⟨other,bytes,same,_⟩
      rw [reply] at same
      simp only [Except.ok.injEq,Option.some.injEq,HttpResponse.mk.injEq,Json.str.injEq,true_and] at same
      have packed : mime.value (recorded self (.bytes value)) ≠ text "application/json" := by
        rw [recorded]
        split
        · exact mime.v1_packed
        · exact mime.v0_packed
      exact absurd same.1.symm packed
    · rintro ⟨value',bytes,other,_⟩
      cases other
  | str value =>
    constructor
    · rintro ⟨body,bytes,_,_,encoded⟩
      exact ⟨value, bytes, rfl, encoded⟩
    · rintro ⟨_,bytes,⟨rfl⟩,encoded⟩
      have decoded := decode_utf8 encoded
      exact ⟨value, bytes, http_reply_json relay proper encoded decoded (faithful bytes encoded), encoded, encoded⟩

end

/-! ### Two responses -/

def mime_types : MimeTypes :=
  ⟨text "application/ssi-agent-wire", text "application/didcomm-envelope-enc", by decide, by decide⟩

def empty_object : Bytes := [123, 125]

/-- The record of the response, as text or as bytes. -/
def empty_object_record (content_type : ContentType) : Json :=
  response_record mime_types (text "x") (some content_type) empty_object

def empty_object_json (content_type : ContentType) : JsonModule := sample_json [empty_object_record content_type]

theorem empty_object_faithful (content_type : ContentType) :
    Faithful (empty_object_json content_type) (empty_object_record content_type) := by
  have reads : ReadsBack [empty_object_record content_type] 0 (empty_object_record content_type) := by
    cases content_type <;> decide +kernel
  exact sample_faithful rfl reads

theorem delivered_iff_text : Delivered mime_types Pending.instance_a (.str [123, 125])
    (http_reply (empty_object_json .application_json) mime_types Pending.instance_a (Relays.idle .http) (text "x")
      (.str [123, 125])) := by
  have encodes : Text.utf8 [123, 125] = .ok empty_object := by decide +kernel
  have proper : Proper (.str [123, 125]) := (by decide : ([123, 125] : Text) ≠ [])
  refine (delivered_iff (Relays.idle .http) proper (fun bytes encoded => ?_)).mpr ⟨[123, 125], empty_object, rfl, encodes⟩
  have same : bytes = empty_object := Except.ok.inj (encoded.symm.trans encodes)
  subst same
  exact empty_object_faithful .application_json

/-- A packed response is sent as JSON. -/
theorem bytes_sent_as_json : Proper (.bytes empty_object) ∧
    ¬ Delivered mime_types Pending.instance_a (.bytes empty_object)
      (http_reply (empty_object_json .DIDCOMM_V0_MIME_TYPE) mime_types Pending.instance_a (Relays.idle .http) (text "x")
        (.bytes empty_object)) := by
  have decodes : empty_object.decode = .ok [123, 125] := by decide +kernel
  have proper : Proper (.bytes empty_object) := ⟨by decide, _, decodes⟩
  have reply : http_reply (empty_object_json .DIDCOMM_V0_MIME_TYPE) mime_types Pending.instance_a (Relays.idle .http)
      (text "x") (.bytes empty_object) = .ok (some ⟨200, some (.str (text "application/json")), [123, 125]⟩) :=
    http_reply_json (Relays.idle .http) proper rfl decodes (empty_object_faithful .DIDCOMM_V0_MIME_TYPE)
  refine ⟨proper, ?_⟩
  rintro ⟨body,bytes,same,_⟩
  rw [reply] at same
  simp only [Except.ok.injEq,Option.some.injEq,HttpResponse.mk.injEq,Json.str.injEq,true_and] at same
  exact mime_types.v0_packed same.1.symm

end AcapyRedis.Responses
