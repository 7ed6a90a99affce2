import AcapyRedis.Arrivals
import AcapyRedis.Responses

/-!
Which responses of an agent are answered. The instance leaves an empty response as it is and
encodes it in base64 all the same, which raises unless it is bytes; the handler replies to
no empty response and decodes every other one as UTF-8. So a request is answered exactly
if the response is not empty, and text without lone surrogates or bytes that are UTF-8
(`answered_iff`).
-/
namespace AcapyRedis.Replies
open AcapyRedis.Programs AcapyRedis.Programs.Program AcapyRedis.Python AcapyRedis.RedisStore AcapyRedis.Utils
open AcapyRedis.Inbound AcapyRedis.Base64 AcapyRedis.Records AcapyRedis.Handlers AcapyRedis.Responses AcapyRedis.Arrivals

/-- The relay pops the message of an entry and the handler replies. -/
def handler_reply (json : JsonModule) (mime : MimeTypes) (relay : Relays.Relay) (txn_id : Text) (entry : Entry) :
    Except PyError (Option HttpResponse) := do
  let msg ← (json.dumps (response_message mime entry)).utf8
  match (relay.receive (popped json msg)).direct_response_txn_request_map txn_id with
  | some entry => HttpRelay.answer (.found entry)
  | none => HttpRelay.answer .timeout

theorem http_reply_parts (json : JsonModule) (mime : MimeTypes) (self : RedisInboundTransport) (relay : Relays.Relay)
    (txn_id : Text) (response : Response) :
    http_reply json mime self relay txn_id response =
      self.direct_response txn_id (some response) >>= handler_reply json mime relay txn_id := rfl

/-- The store after the first record of a key is popped and a message is pushed. -/
def answered_lists (self : RedisInboundTransport) (k : RecipKey) (rest : List Entry) (message : Entry) (s : Store) :
    String → List Entry :=
  Function.update (after_pop self k rest s).lists self.direct_response_topic
    ((after_pop self k rest s).lists self.direct_response_topic ++ [message])

/-- The loop goes on with one message for the transaction pushed, and the handler that gets its
    response data replies with status 200. -/
def Answered (json : JsonModule) (mime : MimeTypes) (self : RedisInboundTransport) (relay : Relays.Relay) (k : RecipKey)
    (txn_id : Text) (rest : List Entry) (s : Store) : Prop :=
  Ends exec (fun outcome s' => outcome = .ok () ∧ ∃ content_type response,
      s'.lists = answered_lists self k rest (.direct_response txn_id content_type response) s ∧
      ∃ reply, handler_reply json mime relay txn_id (.direct_response txn_id content_type response) = .ok (some reply) ∧
        reply.status = 200)
    (self.poll_key k) s

/-- A response that is not empty, text without lone surrogates or bytes that are UTF-8. -/
def Answerable : Option Response → Prop
  | none => False
  | some (.str value) => value ≠ [] ∧ ∀ point ∈ value, point.isValidChar
  | some (.bytes value) => value ≠ [] ∧ ∃ body : Text, body.utf8 = .ok value

section
variable {json : JsonModule} {mime : MimeTypes} {self : RedisInboundTransport} {relay : Relays.Relay} {k : RecipKey}
variable {payload : Bytes} {txn_id : Text} {response : Option Response} {rest : List Entry} {s : Store}

/-! ### The instance -/

theorem receive_request (receives : self.session payload = .ok response) (s : Store) :
    (∀ error, self.direct_response txn_id response = .error error →
      Ends exec (fun outcome _ => outcome = .error error) (self.receive payload (some txn_id)) s) ∧
    ∀ message, self.direct_response txn_id response = .ok message →
      Ends exec (fun outcome s' => outcome = .ok () ∧ s'.lists = Function.update s.lists self.direct_response_topic
        (s.lists self.direct_response_topic ++ [message])) (self.receive payload (some txn_id)) s := by
  constructor
  · intro error fails
    simp only [RedisInboundTransport.receive,receives,fails]
    rfl
  · intro message made
    simp only [RedisInboundTransport.receive,receives,made]
    exact fun _ => ⟨rfl,rfl⟩

theorem poll_key_request (first : s.lists (topic_list self.inbound_topic k) = .inbound payload (some txn_id) :: rest)
    (receives : self.session payload = .ok response) :
    (∀ error, self.direct_response txn_id response = .error error →
      Ends exec (fun outcome _ => outcome = .error error) (self.poll_key k) s) ∧
    ∀ message, self.direct_response txn_id response = .ok message →
      Ends exec (fun outcome s' => outcome = .ok () ∧ s'.lists = answered_lists self k rest message s)
        (self.poll_key k) s := by
  constructor
  · exact fun error fails => poll_key_inbound first (fun s' _ => (receive_request receives s').1 error fails)
  · intro message made
    refine poll_key_inbound first (fun s' same => ?_)
    have pushes := (receive_request receives s').2 message made
    rw [same] at pushes
    exact pushes

theorem direct_response_made {message : Entry} (made : self.direct_response txn_id response = .ok message) :
    ∃ content_type bytes, message = .direct_response txn_id content_type bytes := by
  match response with
  | none => cases made
  | some (.str []) => cases made
  | some (.str (first :: rest)) =>
    obtain ⟨s,_,same⟩ := bind_ok_iff.mp made
    cases same
    exact ⟨_,_,rfl⟩
  | some (.bytes []) =>
    cases made
    exact ⟨_,_,rfl⟩
  | some (.bytes (first :: rest)) =>
    cases made
    exact ⟨_,_,rfl⟩

/-! ### The relay -/

/-- The handler replies to a record that is read back. -/
theorem handler_reply_record (relay : Relays.Relay) {content_type : Option ContentType} {bytes : Bytes}
    (faithful : Faithful json (response_record mime txn_id content_type bytes)) :
    handler_reply json mime relay txn_id (.direct_response txn_id content_type bytes) =
      HttpRelay.reply (response_data mime content_type bytes) := by
  obtain ⟨msg,written⟩ := json.encodes (response_record mime txn_id content_type bytes)
  simp only [handler_reply,response_message,written,ok_bind,relay_receives relay faithful written,HttpRelay.answer]

/-- The reply has status 200 exactly if the response is not empty and is UTF-8. -/
theorem reply_status_iff {content_type : Option ContentType} {bytes : Bytes} :
    (∃ reply, HttpRelay.reply (response_data mime content_type bytes) = .ok (some reply) ∧ reply.status = 200) ↔
      bytes ≠ [] ∧ ∃ body : Text, body.utf8 = .ok bytes := by
  have response : (response_data mime content_type bytes).getItem "response" = .ok (.str (b64_text bytes)) := by
    cases content_type <;> rfl
  simp only [HttpRelay.reply,response,ok_bind,b64_of_json,b64_to_bytes_encode]
  by_cases empty : bytes = []
  · rw [if_pos empty]
    refine iff_of_false ?_ (fun answerable => answerable.1 empty)
    rintro ⟨reply,same,_⟩
    cases same
  · rw [if_neg empty]
    cases decoded : bytes.decode with
    | ok body => exact iff_of_true ⟨_,rfl,rfl⟩ ⟨empty, body, utf8_decode decoded⟩
    | error error =>
      refine iff_of_false ?_ ?_
      · rintro ⟨reply,same,_⟩
        cases same
      · rintro ⟨_,body,encoded⟩
        cases decoded.symm.trans (decode_utf8 encoded)

/-- Text can be encoded unless it has a lone surrogate. -/
theorem encode_ok_iff {value : Text} : (∃ s, value.encode = .ok s) ↔ ∀ point ∈ value, point.isValidChar := by
  have all : value.all (fun point => decide point.isValidChar) = true ↔ ∀ point ∈ value, point.isValidChar := by
    simp only [List.all_eq_true,decide_eq_true_eq]
  rw [Text.encode,← all]
  split
  · next valid => exact iff_of_true ⟨_,rfl⟩ valid
  · next invalid =>
    refine iff_of_false ?_ invalid
    rintro ⟨_,same⟩
    cases same

/-- Which responses the instance records and the handler replies to. -/
theorem answerable_iff : Answerable response ↔ ∃ content_type bytes,
    self.direct_response txn_id response = .ok (.direct_response txn_id content_type bytes) ∧
    bytes ≠ [] ∧ ∃ body : Text, body.utf8 = .ok bytes := by
  match response with
  | none => exact iff_of_false id (fun ⟨_,_,same,_⟩ => by cases same)
  | some (.str []) => exact iff_of_false (fun answerable => answerable.1 rfl) (fun ⟨_,_,same,_⟩ => by cases same)
  | some (.str (first :: rest)) =>
    constructor
    · rintro ⟨some_point,valid⟩
      obtain ⟨s,encoded⟩ := encode_ok_iff.mpr valid
      have written : Text.utf8 (first :: rest) = .ok s.toUTF8.toList := by rw [Text.utf8,encoded]; rfl
      have proper : Proper (.str (first :: rest)) := some_point
      obtain ⟨entry,some_byte⟩ := direct_response_entry self txn_id proper written
      exact ⟨_, _, entry, some_byte, first :: rest, written⟩
    · rintro ⟨_,bytes,same,_⟩
      obtain ⟨s,encoded,_⟩ := bind_ok_iff.mp same
      exact ⟨List.cons_ne_nil _ _, encode_ok_iff.mp ⟨s,encoded⟩⟩
  | some (.bytes []) =>
    refine iff_of_false (fun answerable => answerable.1 rfl) ?_
    rintro ⟨_,_,same,some_byte,_⟩
    cases same
    exact some_byte rfl
  | some (.bytes (first :: rest)) =>
    constructor
    · exact fun answerable => ⟨_, _, rfl, answerable⟩
    · rintro ⟨_,_,same,answerable⟩
      cases same
      exact answerable

/-- A request for a direct response is answered exactly if the response is answerable. -/
theorem answered_iff (first : s.lists (topic_list self.inbound_topic k) = .inbound payload (some txn_id) :: rest)
    (receives : self.session payload = .ok response)
    (faithful : ∀ content_type bytes,
      self.direct_response txn_id response = .ok (.direct_response txn_id content_type bytes) →
      Faithful json (response_record mime txn_id content_type bytes)) :
    Answered json mime self relay k txn_id rest s ↔ Answerable response := by
  obtain ⟨raises,pushes⟩ := poll_key_request first receives
  cases made : self.direct_response txn_id response with
  | error error =>
    refine iff_of_false (fun answered => ?_) (fun answerable => ?_)
    · obtain ⟨_,_,raised,went,_⟩ := (raises error made).meet answered
      cases raised.symm.trans went
    · obtain ⟨_,_,same,_⟩ := answerable_iff.mp answerable
      cases made.symm.trans same
  | ok message =>
    obtain ⟨content_type,bytes,rfl⟩ := direct_response_made made
    have reply := handler_reply_record relay (faithful content_type bytes made)
    constructor
    · intro answered
      obtain ⟨_,_,⟨_,lists⟩,_,other_type,other,lists',replied⟩ := (pushes _ made).meet answered
      have same := congrFun (lists.symm.trans lists') self.direct_response_topic
      simp only [answered_lists,Function.update_self,List.append_cancel_left_eq,List.cons.injEq,and_true] at same
      cases same
      rw [reply,reply_status_iff] at replied
      exact answerable_iff.mpr ⟨content_type, bytes, made, replied⟩
    · intro answerable
      obtain ⟨_,_,same,utf8⟩ := answerable_iff.mp answerable
      cases made.symm.trans same
      refine (pushes _ made).mono (fun outcome s' ends => ⟨ends.1, content_type, bytes, ends.2, ?_⟩)
      rw [reply]
      exact reply_status_iff.mpr utf8

end

/-- A request for a direct response is waiting in the list of the key `k`. -/
def one_request : Store :=
  { Store.empty with lists := Function.update (fun _ => []) (topic_list "t" "k") [.inbound [1] (some (text "x"))] }

/-- An instance whose sessions respond with the text of an empty object. -/
def responding : RedisInboundTransport := { Pending.instance_a with session := fun _ => .ok (some (.str [123, 125])) }

theorem answered_text : Answered (empty_object_json .application_json) mime_types responding (Relays.idle .http) "k"
    (text "x") [] one_request := by
  have encodes : Response.utf8 (.str [123, 125]) = .ok empty_object := by decide +kernel
  have proper : Proper (.str [123, 125]) := (by decide : ([123, 125] : Text) ≠ [])
  obtain ⟨entry,_⟩ := direct_response_entry responding (text "x") proper encodes
  have answerable : Answerable (some (.str [123, 125])) := ⟨by decide, by decide⟩
  refine (answered_iff rfl rfl (fun content_type bytes same => ?_)).mpr answerable
  cases entry.symm.trans same
  exact empty_object_faithful .application_json

/-- Without a response the base64 encoding raises, and the loop ends. -/
theorem no_response_ends : one_request.lists (topic_list Pending.instance_a.inbound_topic "k") =
      [.inbound [1] (some (text "x"))] ∧ Pending.instance_a.session [1] = .ok none ∧
    Ends exec (fun outcome _ => outcome = .error .TypeError) (Pending.instance_a.poll_key "k") one_request ∧
    ¬ Answered (empty_object_json .application_json) mime_types Pending.instance_a (Relays.idle .http) "k" (text "x") []
      one_request := by
  have raises : Ends exec (fun outcome _ => outcome = .error .TypeError) (Pending.instance_a.poll_key "k") one_request :=
    (poll_key_request rfl rfl).1 .TypeError rfl
  refine ⟨rfl, rfl, raises, fun answered => ?_⟩
  obtain ⟨_,_,raised,went,_⟩ := raises.meet answered
  cases raised.symm.trans went

end AcapyRedis.Replies
