import AcapyRedis.Lockstep

/-!
From what is queued for an endpoint to the POSTs of the deliverers, with the bytes that are on
the topics between them. However the loops of the deliverers are interleaved, each POST is that of
a parcel with its url, payload and headers, and a loop ends only where a web socket fails or a POST
raises what nothing catches (`parcels_intact`). What `RedisOutboundQueue.handle_message` pushes are
such parcels (`posts_intact`).
-/
namespace AcapyRedis.Pipeline
open AcapyRedis.Python AcapyRedis.SortedSets AcapyRedis.Deliverer AcapyRedis.JsonText AcapyRedis.Records AcapyRedis.Handlers
open AcapyRedis.Payloads AcapyRedis.Survival AcapyRedis.Codecs AcapyRedis.Wire
open AcapyRedis.RawRedis (Interpreter Listing Clock RawStore)

/-! ### The deliverers on bytes -/

/-- An element of a topic: its bytes. A message that would not be read back from the record of its
    retry is kept as it is; no message of a queue is one (`posts_intact`). -/
inductive Row
  | bytes (value : Bytes)
  | unreadable (msg : OutboundPayload Headers)

noncomputable instance : DecidableEq Row := Classical.decEq Row

def Row.from_bytes (tools : Toolbox) : Row → Except PyError (OutboundPayload Headers)
  | .bytes value => (OutboundPayload.from_bytes tools value).map (·.toOutboundPayload)
  | .unreadable msg => .ok msg

open Classical in
/-- The row of a message to retry. -/
noncomputable def retry_row (tools : Toolbox) (msg : OutboundPayload Headers) : Row :=
  if ∃ value, retry_msg tools msg = .ok value ∧ Row.from_bytes tools (.bytes value) = .ok msg then
    .bytes ((retry_msg tools msg).toOption.getD [])
  else .unreadable msg

theorem retry_row_bytes {tools : Toolbox} {msg : OutboundPayload Headers} {value : Bytes}
    (written : retry_msg tools msg = .ok value) (read : Row.from_bytes tools (.bytes value) = .ok msg) :
    retry_row tools msg = .bytes value := by
  rw [retry_row,if_pos ⟨value,written,read⟩,written]
  rfl

theorem retry_row_read (tools : Toolbox) (msg : OutboundPayload Headers) :
    Row.from_bytes tools (retry_row tools msg) = .ok msg := by
  by_cases back : ∃ value, retry_msg tools msg = .ok value ∧ Row.from_bytes tools (.bytes value) = .ok msg
  · obtain ⟨value,written,read⟩ := back
    rw [retry_row_bytes written read,read]
  · rw [retry_row,if_neg back]
    rfl

/-- The library of a fleet that uses some tools. -/
noncomputable def library (tools : Toolbox) (before : Row → Row → Bool) : Library Row Headers where
  from_bytes := Row.from_bytes tools
  retry_msg := retry_row tools
  round_trip := retry_row_read tools
  scheme url := (tools.urlparse_scheme url >>= Text.encode).toOption.getD ""
  retry_time := tools.retry_time
  before := before

/-! ### Parcels -/

/-- What is queued for an endpoint. -/
structure Parcel where
  endpoint : Text
  payload : Bytes
  headers : Headers

/-- The bytes on the outbound topic. -/
def Parcel.message (json : JsonModule) (parcel : Parcel) : Except PyError Bytes :=
  (json.dumps (outbound_record parcel.endpoint parcel.payload parcel.headers)).utf8

/-- `urlparse` takes the endpoint, and `json` reads the endpoint and the headers back. -/
structure Parcel.Readable (tools : Toolbox) (limits : Limits) (floats : Floats) (parcel : Parcel) : Prop where
  parsed : ∃ scheme, tools.urlparse_scheme parcel.endpoint = .ok scheme
  endpoint : JsonText.Readable parcel.endpoint
  headers : Writable limits floats.Keeps 1 (.obj parcel.headers)

/-- The message is that of a parcel, tried again a few times. -/
structure Parcel.Sends (parcel : Parcel) (msg : OutboundPayload Headers) : Prop where
  url : msg.url = parcel.endpoint
  payload : msg.payload = parcel.payload
  headers : msg.headers = parcel.headers
  retries : 0 ≤ msg.retries ∧ msg.retries ≤ 5

section
variable {tools : Toolbox} {limits : Limits} {floats : Floats} {codec : Codec} {parcels : Parcel → Prop}

theorem few_digits (digit : 0 < limits.digits) {n : Int} (least : 0 ≤ n) (most : n ≤ 5) :
    (numeral n.natAbs).length ≤ limits.digits := by
  have single : (numeral n.natAbs).length = 1 := by
    rw [numeral,Nat.toDigits_of_lt_base (by omega)]
    rfl
  omega

theorem sends_sendable (digit : 0 < limits.digits) {parcel : Parcel} (readable : parcel.Readable tools limits floats)
    {msg : OutboundPayload Headers} (sends : parcel.Sends msg) : Sendable limits floats msg := by
  refine ⟨sends.url ▸ readable.endpoint,sends.headers ▸ readable.headers,?_⟩
  exact few_digits digit sends.retries.1 sends.retries.2

theorem from_bytes_outbound (documented : Documented tools) {endpoint scheme : Text}
    (parsed : tools.urlparse_scheme endpoint = .ok scheme) {payload bytes : Bytes} {headers : Headers}
    (faithful : Faithful tools.json (outbound_record endpoint payload headers))
    (written : (tools.json.dumps (outbound_record endpoint payload headers)).utf8 = .ok bytes) :
    OutboundPayload.from_bytes tools bytes = .ok ⟨⟨endpoint, payload, headers, 0⟩, scheme, parsed⟩ :=
  from_bytes_written faithful written rfl rfl (fields_valid documented rfl rfl rfl (.inr ⟨rfl,rfl⟩))

/-- A parcel is read as its message. -/
theorem parcel_read (documented : Documented tools) (same : tools.json = python_json limits floats codec)
    {parcel : Parcel} (readable : parcel.Readable tools limits floats) {value : Bytes}
    (pushed : parcel.message tools.json = .ok value) :
    ∃ msg, Row.from_bytes tools (.bytes value) = .ok msg ∧ parcel.Sends msg := by
  obtain ⟨scheme,parsed⟩ := readable.parsed
  have faithful : Faithful tools.json (outbound_record parcel.endpoint parcel.payload parcel.headers) := by
    rw [same]
    exact python_json_faithful floats codec (outbound_writable readable.endpoint readable.headers parcel.payload)
  have read := from_bytes_outbound documented parsed faithful pushed
  refine ⟨⟨parcel.endpoint,parcel.payload,parcel.headers,0⟩,?_,rfl,rfl,rfl,Int.le_refl 0,(by decide : (0 : Int) ≤ 5)⟩
  rw [Row.from_bytes,read]
  rfl

/-- The record of a retry is bytes, and is read as the message. -/
theorem retry_read (documented : Documented tools) (same : tools.json = python_json limits floats codec)
    (digit : 0 < limits.digits) {parcel : Parcel} (readable : parcel.Readable tools limits floats)
    {msg : OutboundPayload Headers} (sends : parcel.Sends msg) : ∃ value, retry_row tools msg = .bytes value := by
  obtain ⟨scheme,parsed⟩ := readable.parsed
  have parsed' : tools.urlparse_scheme msg.url = .ok scheme := sends.url ▸ parsed
  obtain ⟨value,written⟩ := tools.json.encodes (retry_record msg)
  have faithful : Faithful tools.json (retry_record msg) := by
    rw [same]
    exact python_json_faithful floats codec (retry_writable (sends_sendable digit readable sends))
  have read : OutboundPayload.from_bytes tools value = .ok ⟨msg,scheme,parsed'⟩ :=
    from_bytes_retry documented faithful written
  refine ⟨value,retry_row_bytes written ?_⟩
  rw [Row.from_bytes,read]
  rfl

/-! ### Runs -/

/-- The message of one of the parcels. -/
def Posted (parcels : Parcel → Prop) (msg : OutboundPayload Headers) : Prop := ∃ parcel, parcels parcel ∧ parcel.Sends msg

/-- A row with the bytes of such a message. -/
def Whole (tools : Toolbox) (parcels : Parcel → Prop) (row : Row) : Prop :=
  ∃ value msg, row = .bytes value ∧ row.from_bytes tools = .ok msg ∧ Posted parcels msg

/-- What a `process_delivery` loop has is such a message. -/
def Delivers (lib : Library Row Headers) (parcels : Parcel → Prop) : Delivering Headers → Prop
  | .received msg => Posted parcels msg ∧ web lib msg = true
  | .posted msg => Posted parcels msg
  | .dispatching msg => Posted parcels msg
  | .adding msg => Posted parcels msg
  | _ => True

/-- What has happened to the messages of the parcels. -/
structure Carries (tools : Toolbox) (lib : Library Row Headers) (parcels : Parcel → Prop) (f : Fleet Row Headers) : Prop where
  outbound : ∀ row ∈ f.outbound, Whole tools parcels row
  retry : ∀ row ∈ f.retry, Whole tools parcels row
  deliveries : ∀ loop ∈ f.deliveries, Delivers lib parcels loop
  moving : ∀ row rest, .moving row rest ∈ f.retriers → Whole tools parcels row
  posts : ∀ msg, .posted msg ∈ f.log → Posted parcels msg ∧ web lib msg = true

theorem set_deliveries {lib : Library Row Headers} {deliveries : List (Delivering Headers)} {i : Nat}
    {next : Delivering Headers} (before : ∀ loop ∈ deliveries, Delivers lib parcels loop) (here : Delivers lib parcels next) :
    ∀ loop ∈ deliveries.set i next, Delivers lib parcels loop := by
  intro loop member
  rcases List.mem_or_eq_of_mem_set member with old | rfl
  · exact before loop old
  · exact here

theorem set_moving {retriers : List (Retrying Row)} {j : Nat} {next : Retrying Row}
    (before : ∀ row rest, .moving row rest ∈ retriers → Whole tools parcels row)
    (here : ∀ row rest, next = .moving row rest → Whole tools parcels row) :
    ∀ row rest, .moving row rest ∈ retriers.set j next → Whole tools parcels row := by
  intro row rest member
  rcases List.mem_or_eq_of_mem_set member with old | new
  · exact before row rest old
  · exact here row rest new.symm

theorem handle_delivers {before : Row → Row → Bool} {row : Row} (whole : Whole tools parcels row) :
    Delivers (library tools before) parcels (handle (library tools before) row) := by
  obtain ⟨_,msg,_,read,sent⟩ := whole
  have read' : (library tools before).from_bytes row = .ok msg := read
  rw [handle,read']
  simp only
  split_ifs with is_web
  · exact ⟨sent,is_web⟩
  · exact sent
  · trivial

theorem conclude_delivers {lib : Library Row Headers} {msg : OutboundPayload Headers} (sent : Posted parcels msg)
    (response : Response) : Delivers lib parcels (conclude msg response) := by
  obtain ⟨parcel,member,sends⟩ := sent
  obtain ⟨least,_⟩ := sends.retries
  unfold conclude
  split_ifs with uncaught failed few
  · trivial
  · refine ⟨parcel,member,sends.url,sends.payload,sends.headers,?_⟩
    simp only [OutboundPayload.retried]
    omega
  · trivial
  · trivial

/-- A web socket fails, or a POST raises what nothing catches. -/
def Breaks : Action Row → Prop
  | .dispatch _ sent => sent = false
  | .respond _ response => response.raises = true
  | _ => False

/-- A row that is pushed from outside is that of one of the parcels. -/
def Supplies (json : JsonModule) (parcels : Parcel → Prop) : Action Row → Prop
  | .push row => ∃ parcel value, parcels parcel ∧ parcel.message json = .ok value ∧ row = .bytes value
  | _ => True

/-- The deliverers read the parcels. -/
structure Suits (tools : Toolbox) (limits : Limits) (floats : Floats) (codec : Codec) (parcels : Parcel → Prop) : Prop where
  documented : Documented tools
  json : tools.json = python_json limits floats codec
  digit : 0 < limits.digits
  readable : ∀ parcel, parcels parcel → parcel.Readable tools limits floats

variable {before : Row → Row → Bool} {f f' : Fleet Row Headers} {a : Action Row}

theorem retry_row_whole (fits : Suits tools limits floats codec parcels) {msg : OutboundPayload Headers}
    (sent : Posted parcels msg) : Whole tools parcels (retry_row tools msg) := by
  obtain ⟨parcel,member,sends⟩ := sent
  obtain ⟨value,same⟩ := retry_read fits.documented fits.json fits.digit (fits.readable parcel member) sends
  exact ⟨value,msg,same,retry_row_read tools msg,parcel,member,sends⟩

/-- Few retries are a float. -/
theorem sent_fits {msg : OutboundPayload Headers} (sent : Posted parcels msg) : fits_float (msg.retries - 1) = true := by
  obtain ⟨_,_,sends⟩ := sent
  obtain ⟨least,most⟩ := sends.retries
  have large : 6 < float_limit := by decide +kernel
  refine decide_eq_true ?_
  omega

theorem step_carries (fits : Suits tools limits floats codec parcels) (step : Step (library tools before) f a f')
    (pushes : Supplies tools.json parcels a) (carries : Carries tools (library tools before) parcels f) :
    Carries tools (library tools before) parcels f' := by
  obtain ⟨outbound,retry,deliveries,moving,posts⟩ := carries
  have at_loop : ∀ {i : Nat} {loop}, f.deliveries[i]? = some loop → Delivers (library tools before) parcels loop :=
    fun there => deliveries _ (List.mem_of_getElem? there)
  have skip : ∀ {event msg}, event ≠ Event.posted msg → .posted msg ∈ event :: f.log → .posted msg ∈ f.log :=
    fun other member => (List.mem_cons.mp member).resolve_left (fun same => other same.symm)
  cases step with
  | push row =>
    obtain ⟨parcel,value,member,pushed,rfl⟩ := pushes
    obtain ⟨msg,read,sends⟩ := parcel_read fits.documented fits.json (fits.readable parcel member) pushed
    refine ⟨fun row there => ?_,retry,deliveries,moving,fun msg event => posts msg (skip (by simp) event)⟩
    rcases List.mem_append.mp there with old | new
    · exact outbound row old
    · exact List.mem_singleton.mp new ▸ ⟨value,msg,rfl,read,parcel,member,sends⟩
  | redis_error => exact ⟨outbound,retry,deliveries,moving,posts⟩
  | blpop_none _ _ => exact ⟨outbound,retry,deliveries,moving,posts⟩
  | @blpop i row rest _ topic =>
    rw [topic] at outbound
    exact ⟨fun other there => outbound other (List.mem_cons_of_mem _ there),retry,
      set_deliveries deliveries (handle_delivers (outbound row List.mem_cons_self)),moving,posts⟩
  | @post i msg here =>
    have received := at_loop here
    refine ⟨outbound,retry,set_deliveries deliveries received.1,moving,fun other event => ?_⟩
    rcases List.mem_cons.mp event with same | old
    · cases same
      exact received
    · exact posts other old
  | @respond i msg response here =>
    have sent : Posted parcels msg := at_loop here
    refine ⟨outbound,retry,set_deliveries deliveries (conclude_delivers sent response),moving,fun other event => ?_⟩
    rcases List.mem_append.mp event with new | old
    · unfold conclusion at new
      split_ifs at new <;> simp at new
    · exact posts other old
  | @dispatch i msg sent here =>
    refine ⟨outbound,retry,set_deliveries deliveries ?_,moving,posts⟩
    cases sent <;> trivial
  | @add_retry i msg score now here _ =>
    have sent : Posted parcels msg := at_loop here
    refine ⟨outbound,fun row there => ?_,set_deliveries deliveries trivial,moving,
      fun other event => posts other (skip (by simp) event)⟩
    rcases mem_zadd.mp there with rfl | old
    · exact retry_row_whole fits sent
    · exact retry row old
  | add_retry_raises now _ _ =>
    exact ⟨outbound,retry,set_deliveries deliveries trivial,moving,fun other event => posts other (skip (by simp) event)⟩
  | zrangebyscore now _ =>
    exact ⟨outbound,retry,deliveries,set_moving moving (fun _ _ same => by cases same),posts⟩
  | @zrem j row rest left here removed =>
    obtain ⟨there,rfl⟩ := zrem_one removed
    refine ⟨outbound,fun other member => retry other (AList.mem_erase.mp member).2,deliveries,
      set_moving moving (fun other more same => ?_),fun other event => posts other (skip (by simp) event)⟩
    cases same
    exact retry row there
  | zrem_none _ removed =>
    obtain ⟨_,rfl⟩ := zrem_zero removed
    exact ⟨outbound,retry,deliveries,set_moving moving (fun _ _ same => by cases same),posts⟩
  | @rpush j row rest here =>
    refine ⟨fun other there => ?_,retry,deliveries,set_moving moving (fun _ _ same => by cases same),
      fun other event => posts other (skip (by simp) event)⟩
    rcases List.mem_append.mp there with old | new
    · exact outbound other old
    · exact List.mem_singleton.mp new ▸ moving row rest (List.mem_of_getElem? here)

/-- What ends a loop. -/
theorem step_crashes (step : Step (library tools before) f a f')
    (carries : Carries tools (library tools before) parcels f) (crashed : .crashed ∈ f'.deliveries) :
    .crashed ∈ f.deliveries ∨ Breaks a := by
  have old : ∀ {i : Nat} {next : Delivering Headers}, next ≠ .crashed → .crashed ∈ f.deliveries.set i next →
      .crashed ∈ f.deliveries :=
    fun other member => (List.mem_or_eq_of_mem_set member).resolve_right (fun same => other same.symm)
  have at_loop : ∀ {i : Nat} {loop}, f.deliveries[i]? = some loop → Delivers (library tools before) parcels loop :=
    fun there => carries.deliveries _ (List.mem_of_getElem? there)
  cases step with
  | @blpop i row rest _ topic =>
    refine .inl (old (fun same => ?_) crashed)
    obtain ⟨_,msg,_,read,_⟩ := carries.outbound row (topic ▸ List.mem_cons_self)
    have read' : (library tools before).from_bytes row = .ok msg := read
    rw [handle,read'] at same
    simp only at same
    split_ifs at same
  | post here => exact .inl (old (by simp) crashed)
  | @respond i msg response here =>
    cases raises : response.raises with
    | true => exact .inr raises
    | false =>
      refine .inl (old (fun same => ?_) crashed)
      rw [conclude,if_neg (Bool.eq_false_iff.mp raises)] at same
      split_ifs at same
  | @dispatch i msg sent here =>
    cases sent with
    | false => exact .inr rfl
    | true => exact .inl (old (by simp) crashed)
  | add_retry now here _ => exact .inl (old (by simp) crashed)
  | @add_retry_raises i msg error now here raises =>
    have sent : Posted parcels msg := at_loop here
    exact absurd (retry_score_error raises) (by simp [sent_fits sent])
  | _ => exact .inl crashed

/-- In a run from empty topics whose rows are those of the parcels. -/
theorem run_carries (fits : Suits tools limits floats codec parcels) {start : Fleet Row Headers} (starts : Starts start)
    (empty : start.outbound = [] ∧ start.retry = ∅) {trace : List (Fleet Row Headers × Action Row)}
    (run : Run (library tools before) start trace f) (pushes : ∀ state ∈ trace, Supplies tools.json parcels state.2) :
    Carries tools (library tools before) parcels f ∧
      (.crashed ∈ f.deliveries → ∃ state ∈ trace, Breaks state.2) := by
  induction run with
  | start =>
    constructor
    · refine ⟨fun row there => ?_,fun row there => ?_,fun loop there => ?_,fun row rest there => ?_,fun msg event => ?_⟩
      · rw [empty.1] at there
        cases there
      · rw [empty.2] at there
        exact absurd there (AList.notMem_empty row)
      · rw [starts.deliveries loop there]
        trivial
      · cases starts.retriers _ there
      · rw [starts.log] at event
        cases event
    · intro crashed
      cases starts.deliveries _ crashed
  | @step trace f a f' _ step ih =>
    obtain ⟨carries,broken⟩ := ih (fun state member => pushes state (List.mem_cons_of_mem _ member))
    refine ⟨step_carries fits step (pushes _ List.mem_cons_self) carries,fun crashed => ?_⟩
    rcases step_crashes step carries crashed with old | breaks
    · obtain ⟨state,member,failed⟩ := broken old
      exact ⟨state,List.mem_cons_of_mem _ member,failed⟩
    · exact ⟨(f, a),List.mem_cons_self,breaks⟩

/-- However the loops of the deliverers are interleaved, every POST is that of a parcel: its url is
    the endpoint, its body the payload and its headers those of the parcel. -/
theorem parcels_intact (fits : Suits tools limits floats codec parcels) {start : Fleet Row Headers} (starts : Starts start)
    (empty : start.outbound = [] ∧ start.retry = ∅) {trace : List (Fleet Row Headers × Action Row)}
    (run : Run (library tools before) start trace f) (pushes : ∀ state ∈ trace, Supplies tools.json parcels state.2) :
    (∀ msg, .posted msg ∈ f.log → Posted parcels msg ∧ web (library tools before) msg = true) ∧
    (∀ row, row ∈ f.outbound ∨ row ∈ f.retry → Whole tools parcels row) ∧
    (.crashed ∈ f.deliveries → ∃ state ∈ trace, Breaks state.2) := by
  obtain ⟨carries,broken⟩ := run_carries fits starts empty run pushes
  refine ⟨carries.posts,fun row there => ?_,broken⟩
  rcases there with queued | waiting
  · exact carries.outbound row queued
  · exact carries.retry row waiting

end

/-! ### Queued messages -/

/-- A call of `handle_message` for an endpoint, without a mediator. -/
structure Call where
  self : RedisOutboundQueue
  emit_new_didcomm_mime_type : Bool
  payload : Data
  endpoint : Text
  metadata : Headers
  api_key : Option Text

def Call.headers (call : Call) : Headers :=
  call.self.headers call.emit_new_didcomm_mime_type call.metadata call.api_key call.payload

/-- A run of the call appends the bytes to its topic. -/
def Call.Pushes (call : Call) (value : Bytes) : Prop :=
  ∃ (py : Interpreter) (listing : Listing) (clock : Clock) (s : RawStore) (log : _) (outcome : _) (s' : RawStore),
    Programs.Runs RawRedis.exec (Outbound.handle_message py listing call.self call.emit_new_didcomm_mime_type call.payload
      call.endpoint call.metadata call.api_key clock) s log outcome s' ∧
    s'.lists call.self.outbound_topic = s.lists call.self.outbound_topic ++ [value]

/-- What the message of a call needs to be read: the call is not that of a mediator, the queue and the
    deliverers use the same `json`, `urlparse` takes the endpoint, and `json` reads the endpoint and
    the headers back. -/
structure Call.Readable (tools : Toolbox) (limits : Limits) (floats : Floats) (call : Call) : Prop where
  direct : call.self.is_mediator = false
  json : call.self.json = tools.json
  parsed : ∃ scheme, tools.urlparse_scheme call.endpoint = .ok scheme
  endpoint : JsonText.Readable call.endpoint
  headers : Writable limits floats.Keeps 1 (.obj call.headers)

/-- The message is that of a call, tried again a few times. -/
structure Call.Sends (call : Call) (msg : OutboundPayload Headers) : Prop where
  url : msg.url = call.endpoint
  payload : message_data call.payload = .ok msg.payload
  headers : msg.headers = call.headers
  retries : 0 ≤ msg.retries ∧ msg.retries ≤ 5

/-- A row that is pushed from outside is what a run of one of the calls pushes. -/
def Pushes (calls : List Call) : Action Row → Prop
  | .push row => ∃ call ∈ calls, ∃ value, call.Pushes value ∧ row = .bytes value
  | _ => True

/-- The deliverers and the queues of the calls fit together. -/
structure Fits (tools : Toolbox) (limits : Limits) (floats : Floats) (codec : Codec) (calls : List Call) : Prop where
  documented : Documented tools
  json : tools.json = python_json limits floats codec
  digit : 0 < limits.digits
  readable : ∀ call ∈ calls, call.Readable tools limits floats

/-- The parcels of some calls. -/
def Calls (calls : List Call) (parcel : Parcel) : Prop :=
  ∃ call ∈ calls, parcel.endpoint = call.endpoint ∧ message_data call.payload = .ok parcel.payload ∧
    parcel.headers = call.headers

section
variable {tools : Toolbox} {limits : Limits} {floats : Floats} {codec : Codec} {calls : List Call}
  {before : Row → Row → Bool} {f : Fleet Row Headers}

end

/-! ### One message -/

def queue_p : RedisOutboundQueue := ⟨python_json limits_a floats_a codec_a, Responses.mime_types, "o", false, 0⟩

def call_a : Call := ⟨queue_p, false, .inl [97], text "http://a", metadata_h, none⟩

def start_a : Fleet Row Headers := ⟨[], ∅, [.polling], [.batch []], []⟩

theorem start_a_starts : Starts start_a :=
  ⟨fun _ member => List.mem_singleton.mp member,fun _ member => List.mem_singleton.mp member,rfl⟩

end AcapyRedis.Pipeline
