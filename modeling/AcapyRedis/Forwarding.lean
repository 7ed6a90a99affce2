import AcapyRedis.Agreement

/-!
What the WebSocket relay forwards. A message without a direct-response request is pushed
once by either handler, to the list of its key and with the same payload
(`forward_pushes`), and a loop that waits for its frames forwards every message
(`forwards_when_waiting`). As written `message_handler` gives `asyncio.wait` a task, which
raises before the first frame; so it forwards what the HTTP handler would exactly when no
message arrives (`forwards_iff`).
-/
namespace AcapyRedis.Forwarding
open AcapyRedis.Programs AcapyRedis.Programs.Program AcapyRedis.Python AcapyRedis.RedisStore AcapyRedis.Utils
open AcapyRedis.Threads AcapyRedis.Commands AcapyRedis.Records AcapyRedis.Handlers AcapyRedis.Counting AcapyRedis.Agreement
open AcapyRedis.Base64 AcapyRedis.Sharding

/-! ### What is pushed -/

/-- The pushes of a run, in order. -/
def pushed (log : List (Event Command Command.Reply)) : List (String × Entry) :=
  log.filterMap fun
    | ⟨.rpush list entry, _⟩ => some (list, entry)
    | _ => none

theorem pushed_append (first later : List (Event Command Command.Reply)) :
    pushed (first ++ later) = pushed first ++ pushed later := List.filterMap_append

/-- The TEXT and BINARY frames. -/
def messages (arrivals : List Arrival) : List Data :=
  arrivals.filterMap fun arrival =>
    match arrival.frame with
    | .message data => some data
    | _ => none

/-- Data that is a packed message without a direct-response request, which `json.loads` reads
    alike as text and as bytes. -/
structure Plain (handler : Handler) (data : Data) (payload : Bytes) (k : RecipKey) : Prop where
  encodes : message_data data = .ok payload
  dict : ∃ dict, direct_response_request dict = .ok false ∧
    ∀ same, message_data same = .ok payload → message_dict handler.json same = .ok dict
  key : recip_key_of handler.json.loads payload = .ok k

/-- The records of both handlers for the payload are read back as they were written. -/
structure Recorded (json : JsonModule) (payload : Bytes) : Prop where
  http : Faithful json (relay_record payload none "http")
  ws : Faithful json (relay_record payload none "ws")

/-- The log is that of a run of the HTTP handler on a request with the bytes of the data. -/
def Posted (handler : Handler) (data : Data) (log : List (Event Command Command.Reply)) : Prop :=
  ∃ request txn_id readings waited s outcome s', (∃ body payload, request.body = .ok body ∧
      message_data body = .ok payload ∧ message_data data = .ok payload) ∧
    Runs exec (HttpRelay.message_handler handler request txn_id readings waited) s log outcome s'

/-- There is one push for every message, and the pushes are those of the HTTP handler. -/
def ForwardsAsHttp (handler : Handler) (arrivals : List Arrival) (log : List (Event Command Command.Reply)) : Prop :=
  (pushed log).length = (messages arrivals).length ∧
  ∀ posts, List.Forall₂ (Posted handler) (messages arrivals) posts → pushed log = posts.flatMap pushed

/-- A packed message that asks for no direct response is plain. -/
theorem packed_plain {json : JsonModule} {payload : Bytes} (message : PackedMessage json payload)
    (silent : ¬ message.Asks) {handler : Handler} (same : handler.json = json) {data : Data}
    (encodes : message_data data = .ok payload) : Plain handler data payload message.key := by
  subst same
  obtain ⟨requested,asks,iff⟩ := message.asks
  have none : requested = false := Bool.eq_false_iff.mpr (fun asked => silent (iff.mp asked))
  subst none
  refine ⟨encodes, ⟨.obj message.fields, asks, fun other alike => ?_⟩, message.recip_key⟩
  cases other with
  | inl value =>
    have decoded := message.decoded.symm.trans (decode_utf8 alike)
    cases decoded
    exact message.loads_text
  | inr value =>
    cases alike
    exact message.loads

/-! ### A message -/

/-- A call gives the list of the key and pushes nothing. -/
theorem process_payload_called {json_loads : Bytes ⊕ Text → Except PyError Json} {payload : Bytes} {k : RecipKey}
    (key : recip_key_of json_loads payload = .ok k) {topic : String} {patience : Nat} {now : Int} {s s' : Store}
    {log : List (Event Command Command.Reply)} {outcome : Except PyError (String × Entry)}
    (run : Runs exec (process_payload_recip_key json_loads patience now payload topic) s log outcome s') :
    outcome = .ok (topic_list topic k, .inbound payload none) ∧ pushed log = [] := by
  constructor
  · have leads : Leads exec (fun outcome _ => outcome = .ok (topic_list topic k, .inbound payload none))
        (process_payload_recip_key json_loads patience now payload topic) s :=
      process_payload_leads key patience now (fun _ _ => rfl)
    exact leads.post_of_runs run
  · refine List.filterMap_eq_nil_iff.mpr (fun event member => ?_)
    have inCall := (process_payload_issues json_loads patience now payload topic).runs run event member
    obtain ⟨c,reply⟩ := event
    cases c <;> first | exact inCall.elim | rfl

/-- A push loop that ends has pushed the message once. -/
theorem send_pushes {self : Handler} {payload : Bytes} {k : RecipKey}
    (key : recip_key_of self.json.loads payload = .ok k) {message : Entry} {readings : List Int} {s s' : Store}
    {log : List (Event Command Command.Reply)} {outcome : Except PyError Unit}
    (run : Runs exec (self.send payload message readings) s log outcome s') :
    outcome = .ok () ∧ pushed log = [(topic_list self.inbound_topic k, message)] := by
  cases readings with
  | nil => cases run
  | cons now later =>
    rw [Handler.send] at run
    obtain ⟨error,_,raised⟩ | ⟨value,middle,first,last,rfl,called,continued⟩ := runs_bind run
    · cases (process_payload_called key raised).1
    · obtain ⟨same,none⟩ := process_payload_called key called
      cases same
      cases continued with
      | command choice ended =>
        cases ended
        exact ⟨rfl, by rw [pushed_append,none]; rfl⟩

/-- Either handler pushes a message that asks for no direct response once, to the list of its
    key and as its payload. -/
theorem forward_pushes {self : Handler} {data : Data} {payload : Bytes} {k : RecipKey}
    (plain : Plain self data payload k) {transport_type : String}
    (faithful : Faithful self.json (relay_record payload none transport_type)) {txn_id : Text} {readings : List Int}
    {s s' : Store} {log : List (Event Command Command.Reply)} {outcome : Except PyError Bool}
    (run : Runs exec (self.forward transport_type data txn_id readings) s log outcome s') :
    outcome = .ok false ∧ pushed log = [(topic_list self.inbound_topic k, .inbound payload none)] := by
  obtain ⟨dict,asks,reads⟩ := plain.dict
  have entry := entry_of_relay_record faithful
  simp only [Handler.forward,plain.encodes,reads data plain.encodes,asks,Bool.false_eq_true,↓reduceIte,entry,ofExcept_ok,
    done_bind] at run
  obtain ⟨error,_,raised⟩ | ⟨value,middle,first,last,rfl,sent,continued⟩ := runs_bind run
  · cases (send_pushes plain.key raised).1
  · cases continued
    exact ⟨rfl, by rw [pushed_append,(send_pushes plain.key sent).2]; rfl⟩

theorem Plain.same {self : Handler} {data body : Data} {payload : Bytes} {k : RecipKey}
    (plain : Plain self data payload k) (encodes : message_data body = .ok payload) : Plain self body payload k :=
  ⟨encodes, plain.dict, plain.key⟩

/-- What the HTTP handler pushes for the bytes of a message. -/
theorem posted_pushes {self : Handler} {data : Data} {payload : Bytes} {k : RecipKey}
    (plain : Plain self data payload k) (recorded : Recorded self.json payload)
    {log : List (Event Command Command.Reply)} (posted : Posted self data log) :
    pushed log = [(topic_list self.inbound_topic k, .inbound payload none)] := by
  obtain ⟨request,txn_id,readings,waited,s,outcome,s',⟨body,payload',received,encodes,alike⟩,run⟩ := posted
  have same : payload' = payload := Except.ok.inj (alike.symm.trans plain.encodes)
  subst same
  rw [http_forwards,received,ofExcept_ok,done_bind] at run
  obtain ⟨error,_,raised⟩ | ⟨requested,middle,first,last,rfl,forwarded,continued⟩ := runs_bind run
  · cases (forward_pushes (plain.same encodes) recorded.http raised).1
  · obtain ⟨asked,once⟩ := forward_pushes (plain.same encodes) recorded.http forwarded
    cases asked
    cases continued
    rw [pushed_append,once]
    rfl

/-! ### The loop over the frames -/

/-- The body of the loop pushes a message like the HTTP handler, and nothing for other frames. -/
theorem receive_pushes {self : Handler} {arrival : Arrival} {s s' : Store} {log : List (Event Command Command.Reply)}
    {outcome : Except PyError (List Bytes)} (run : Runs exec (WSRelay.receive self arrival) s log outcome s') :
    (∀ data payload k, arrival.frame = .message data → Plain self data payload k → Recorded self.json payload →
      outcome = .ok [] ∧ pushed log = [(topic_list self.inbound_topic k, .inbound payload none)]) ∧
    ((∀ data, arrival.frame ≠ .message data) → outcome = .ok [] ∧ pushed log = []) := by
  constructor
  · intro data payload k received plain recorded
    rw [ws_forwards self arrival received] at run
    obtain ⟨error,_,raised⟩ | ⟨requested,middle,first,last,rfl,forwarded,continued⟩ := runs_bind run
    · cases (forward_pushes plain recorded.ws raised).1
    · obtain ⟨asked,once⟩ := forward_pushes plain recorded.ws forwarded
      cases asked
      cases continued
      exact ⟨rfl, by rw [pushed_append,once]; rfl⟩
  · intro other
    cases frame : arrival.frame with
    | message data => exact absurd frame (other data)
    | error =>
      simp only [WSRelay.receive,frame] at run
      cases run
      exact ⟨rfl,rfl⟩
    | other =>
      simp only [WSRelay.receive,frame] at run
      cases run
      exact ⟨rfl,rfl⟩

/-- Every message is plain for some key. -/
def Simple (self : Handler) (arrivals : List Arrival) : Prop :=
  ∀ data ∈ messages arrivals, ∃ payload k, Plain self data payload k ∧ Recorded self.json payload

theorem messages_message {arrival : Arrival} {data : Data} (received : arrival.frame = .message data)
    (later : List Arrival) : messages (arrival :: later) = data :: messages later := by
  simp [messages,received]

theorem messages_other {arrival : Arrival} (other : ∀ data, arrival.frame ≠ .message data) (later : List Arrival) :
    messages (arrival :: later) = messages later := by
  cases frame : arrival.frame with
  | message data => exact absurd frame (other data)
  | error => simp [messages,frame]
  | other => simp [messages,frame]

/-- A loop that waits for its frames forwards every message. -/
theorem forwards_when_waiting {self : Handler} {arrivals : List Arrival} (simple : Simple self arrivals) {s s' : Store}
    {log : List (Event Command Command.Reply)} {outcome : Except PyError (List Bytes)}
    (run : Runs exec (WSRelay.receive_all self .futures arrivals) s log outcome s') :
    ForwardsAsHttp self arrivals log := by
  induction arrivals generalizing s log outcome with
  | nil =>
    cases run
    refine ⟨rfl, fun posts posted => ?_⟩
    cases posted
    rfl
  | cons arrival later ih =>
    simp only [WSRelay.receive_all,asyncio_wait,ofExcept_ok,done_bind] at run
    -- the rest of the loop, however the frame was handled
    have continues : ∀ {sent : List Bytes} {middle : Store} {last : List (Event Command Command.Reply)},
        Simple self later → Runs exec (do
          let rest ← WSRelay.receive_all self .futures later
          return sent ++ rest) middle last outcome s' → ForwardsAsHttp self later last := by
      intro sent middle last simple_later continued
      obtain ⟨_,_,raised⟩ | ⟨_,_,looped,ended,rfl,returned,finished⟩ := runs_bind continued
      · exact ih simple_later raised
      · cases finished
        rw [List.append_nil]
        exact ih simple_later returned
    by_cases message : ∃ data, arrival.frame = .message data
    · obtain ⟨data,received⟩ := message
      have listed := messages_message received later
      obtain ⟨payload,k,plain,recorded⟩ := simple data (by rw [listed]; exact List.mem_cons_self)
      have simple_later : Simple self later := fun other member => simple other (by
        rw [listed]
        exact List.mem_cons_of_mem _ member)
      obtain ⟨_,_,raised⟩ | ⟨sent,middle,first,last,rfl,handled,continued⟩ := runs_bind run
      · cases ((receive_pushes raised).1 data payload k received plain recorded).1
      · have once := ((receive_pushes handled).1 data payload k received plain recorded).2
        obtain ⟨count,alike⟩ := continues simple_later continued
        rw [ForwardsAsHttp,listed,pushed_append,once]
        refine ⟨by simpa using count, fun posts posted => ?_⟩
        cases posted with
        | cons post rest =>
          rw [List.flatMap_cons,posted_pushes plain recorded post,← alike _ rest]
    · have other : ∀ data, arrival.frame ≠ .message data := fun data received => message ⟨data,received⟩
      have listed := messages_other other later
      have simple_later : Simple self later := fun data member => simple data (listed ▸ member)
      obtain ⟨_,_,raised⟩ | ⟨sent,middle,first,last,rfl,handled,continued⟩ := runs_bind run
      · cases ((receive_pushes raised).2 other).1
      · have none := ((receive_pushes handled).2 other).2
        obtain ⟨count,alike⟩ := continues simple_later continued
        rw [ForwardsAsHttp,listed,pushed_append,none]
        exact ⟨count,alike⟩

/-- `message_handler` raises before it looks at a frame. -/
theorem message_handler_raises {self : Handler} {arrivals : List Arrival} {s s' : Store}
    {log : List (Event Command Command.Reply)} {outcome : Except PyError (List Bytes)}
    (run : Runs exec (WSRelay.message_handler self arrivals) s log outcome s') :
    outcome = .error .TypeError ∧ log = [] ∧ s' = s := by
  cases arrivals <;> (cases run; exact ⟨rfl,rfl,rfl⟩)

/-- `message_handler` forwards what the HTTP handler would exactly when no message arrives. -/
theorem forwards_iff {self : Handler} {arrivals : List Arrival} {s s' : Store}
    {log : List (Event Command Command.Reply)} {outcome : Except PyError (List Bytes)}
    (run : Runs exec (WSRelay.message_handler self arrivals) s log outcome s') :
    ForwardsAsHttp self arrivals log ↔ messages arrivals = [] := by
  obtain ⟨_,rfl,_⟩ := message_handler_raises run
  constructor
  · rintro ⟨count,_⟩
    exact List.length_eq_zero_iff.mp count.symm
  · intro none
    rw [ForwardsAsHttp,none]
    refine ⟨rfl, fun posts posted => ?_⟩
    cases posted
    rfl

/-! ### A frame with a message -/

def error_frame : Arrival := ⟨.error, text "x", [0], .timeout⟩

theorem forwards_iff_error : ForwardsAsHttp handler_t [error_frame] [] := by
  have run : Runs exec (WSRelay.message_handler handler_t [error_frame]) one_instance [] (.error .TypeError)
      one_instance := .raise
  exact (forwards_iff run).mpr rfl

def plain_json : Json := .obj [(text "protected", .str (b64_text header_k))]

def plain_k : Bytes := (sample_text plain_json).map UInt8.ofNat

def plain_records : List Json :=
  [plain_json, recipients_json "k", relay_record plain_k none "http", relay_record plain_k none "ws"]

theorem plain_json_reads : ReadsBack plain_records 0 plain_json := by decide +kernel

theorem plain_header_reads : ReadsBack plain_records 1 (recipients_json "k") := by decide +kernel

theorem plain_http_reads : ReadsBack plain_records 2 (relay_record plain_k none "http") := by decide +kernel

theorem plain_ws_reads : ReadsBack plain_records 3 (relay_record plain_k none "ws") := by decide +kernel

def plain_message : PackedMessage (sample_json plain_records) plain_k where
  value := sample_text plain_json
  decoded := by decide +kernel
  fields := [(text "protected", .str (b64_text header_k))]
  loads := sample_loads_bytes rfl plain_json_reads
  loads_text := sample_loads_text rfl plain_json_reads
  header := header_k
  ascii := header_k_ascii
  padded := true
  protected_header := by rfl
  outer := recipients_json "k"
  header_loads := sample_loads_text rfl plain_header_reads
  recipients := [.obj [(text "header", .obj [(text "kid", .str (text "k"))])]]
  recipients_of := recipients_of_k
  kids := ["k"]
  kids_of := kids_of_k
  transport := .inl (by rfl)

def handler_k : Handler := ⟨sample_json plain_records, "t", 0⟩

/-- A BINARY frame with the message. -/
def frame_k : Arrival := ⟨.message (.inr plain_k), text "x", [0], .timeout⟩

theorem frame_k_simple : Simple handler_k [frame_k] := by
  intro data member
  obtain rfl := List.mem_singleton.mp member
  have silent : ¬ plain_message.Asks := by
    rintro ⟨transport,mode,there,_⟩
    cases there
  exact ⟨plain_k, "k", packed_plain plain_message silent rfl rfl, sample_faithful rfl plain_http_reads,
    sample_faithful rfl plain_ws_reads⟩

/-- The message of a frame is not pushed. -/
theorem message_not_forwarded : Simple handler_k [frame_k] ∧
    Runs exec (WSRelay.message_handler handler_k [frame_k]) one_instance [] (.error .TypeError) one_instance ∧
    ¬ ForwardsAsHttp handler_k [frame_k] [] := by
  refine ⟨frame_k_simple, .raise, ?_⟩
  rintro ⟨count,_⟩
  cases count

end AcapyRedis.Forwarding
