import AcapyRedis.Pipeline
import AcapyRedis.ApiKeys

/-!
Webhooks from `handle_event` to the POSTs of the deliverers. Every POST is that of a webhook which
an invocation has pushed: to the url of a subscriber with the topic of the event, with the headers
of the wallet, and with the JSON of the event as its body, which the receiver reads as the `dict`
of the event (`webhooks_posted`).
-/
namespace AcapyRedis.WebhookPosts
open AcapyRedis.Programs AcapyRedis.Python AcapyRedis.SortedSets AcapyRedis.Deliverer AcapyRedis.JsonText AcapyRedis.Records
open AcapyRedis.Payloads AcapyRedis.Codecs AcapyRedis.Wire AcapyRedis.Pipeline AcapyRedis.Webhooks AcapyRedis.ApiKeys
open AcapyRedis.Events (Profile EventPayload event_push handle_event handle_event_pushes Hooked)
open AcapyRedis.Events (webhook_record webhook_url split_hash)

/-- An invocation of `handle_event` for a subscribed pattern. -/
structure Invocation where
  tools : Events.Toolbox
  profile : Profile
  event : Events.Event
  pattern : Text

/-- The topic in the urls of the webhooks, if the event has one. -/
def Invocation.webhook_topic (call : Invocation) : Option Text :=
  call.profile.config_events.event_webhook_topic_maps.lookup call.event.topic

/-- The bytes of a record that a run of the invocation pushes to its outbound topic. -/
def Invocation.Pushes (call : Invocation) (value : Bytes) : Prop :=
  ∃ s log outcome s' record, Runs Events.exec (handle_event call.tools call.profile call.event call.pattern) s log outcome s' ∧
    (call.profile.acapy_outbound_topic, record) ∈ s'.drop s.length ∧ (call.tools.json.dumps record).utf8 = .ok value

/-- The parcel of a url: the text of the event for the url with the topic. -/
structure Invocation.Hook (call : Invocation) (payload : List (Text × Json)) (endpoint : Text) (parcel : Parcel) : Prop where
  list : ∃ list, event_push call.tools call.profile call.event call.pattern = .ok (list, payload)
  subscribed : endpoint ∈ call.profile.hooked
  url : parcel.endpoint = hook call.webhook_topic endpoint
  headers : parcel.headers = sent_headers call.profile endpoint
  body : (call.tools.json.dumps (.obj payload)).utf8 = .ok parcel.payload

/-- The parcels of some invocations. -/
def Hooks (calls : List Invocation) (parcel : Parcel) : Prop :=
  ∃ call ∈ calls, ∃ payload endpoint, call.Hook payload endpoint parcel

/-- What the webhooks of an invocation need to be read: the deliverers use the same `json`, the event
    has a list of its own, `urlparse` takes the urls, and `json` reads the urls, the wallet and the
    event back. -/
structure Invocation.Readable (tools : Toolbox) (limits : Limits) (floats : Floats) (call : Invocation) : Prop where
  json : call.tools.json = tools.json
  apart : ∀ list payload, event_push call.tools call.profile call.event call.pattern = .ok (list, payload) →
    list ≠ call.profile.acapy_outbound_topic
  event : ∀ list payload, event_push call.tools call.profile call.event call.pattern = .ok (list, payload) →
    Writable limits floats.Keeps 0 (.obj payload)
  wallet : ∀ wallet_id ∈ call.profile.wallet, JsonText.Readable wallet_id
  urls : ∀ endpoint ∈ call.profile.hooked, JsonText.Readable (hook call.webhook_topic endpoint) ∧
    ∃ scheme, tools.urlparse_scheme (hook call.webhook_topic endpoint) = .ok scheme

section
variable {tools : Toolbox} {limits : Limits} {floats : Floats} {codec : Codec} {calls : List Invocation} {call : Invocation}

theorem hooked_from {tools : Events.Toolbox} {profile : Profile} {event : Events.Event} {payload : List (Text × Json)}
    {urls : List Text} {records : List Json} (hooked : Hooked tools profile event payload urls records) {record : Json}
    (member : record ∈ records) : ∃ endpoint ∈ urls, webhook_record tools profile (.obj payload)
      (profile.config_events.event_webhook_topic_maps.lookup event.topic) endpoint = .ok record := by
  induction hooked with
  | nil => cases member
  | cons made _ ih =>
    rcases List.mem_cons.mp member with rfl | later
    · exact ⟨_,List.mem_cons_self,made⟩
    · obtain ⟨endpoint,among,made'⟩ := ih later
      exact ⟨endpoint,List.mem_cons_of_mem _ among,made'⟩

/-- The record of a webhook is that of a parcel. -/
theorem webhook_record_parcel {tools : Events.Toolbox} {profile : Profile} {payload record : Json}
    {webhook_topic : Option Text}
    {endpoint : Text} (made : webhook_record tools profile payload webhook_topic endpoint = .ok record) :
    ∃ body, (tools.json.dumps payload).utf8 = .ok body ∧
      record = outbound_record (hook webhook_topic endpoint) body (sent_headers profile endpoint) := by
  obtain ⟨body,encoded⟩ := tools.json.encodes payload
  simp only [webhook_record,encoded,ok_bind,pure_ok] at made
  cases made
  exact ⟨body,encoded,rfl⟩

/-- The records that an invocation pushes to its outbound topic are those of parcels. -/
theorem pushed_hook (readable : call.Readable tools limits floats) {value : Bytes} (pushed : call.Pushes value) :
    ∃ payload endpoint parcel, call.Hook payload endpoint parcel ∧ parcel.message tools.json = .ok value := by
  obtain ⟨s,log,outcome,s',record,run,member,written⟩ := pushed
  obtain ⟨pushes,sends,rfl⟩ := (handle_event_pushes call.tools call.profile call.event call.pattern s).post_of_runs run
  rw [List.drop_left] at member
  cases event : event_push call.tools call.profile call.event call.pattern with
  | error error =>
    rw [Events.Sends,event] at sends
    rw [sends] at member
    cases member
  | ok sent =>
    obtain ⟨list,payload⟩ := sent
    rw [Events.Sends,event] at sends
    obtain ⟨records,hooked,rfl⟩ := sends
    rcases List.mem_cons.mp member with same | queued
    · exact absurd (Prod.mk.inj same).1.symm (readable.apart list payload event)
    · obtain ⟨other,among,same⟩ := List.mem_map.mp queued
      obtain rfl : other = record := (Prod.mk.inj same).2
      obtain ⟨endpoint,subscribed,made⟩ := hooked_from hooked among
      obtain ⟨body,encoded,rfl⟩ := webhook_record_parcel made
      refine ⟨payload,endpoint,⟨_,body,_⟩,⟨⟨list,event⟩,subscribed,rfl,rfl,encoded⟩,?_⟩
      rw [← readable.json]
      exact written

/-- The headers of a wallet and of a key. -/
theorem named_writable (deep : 1 < limits.depth) {wallet : Option Text}
    (readable : ∀ wallet_id ∈ wallet, JsonText.Readable wallet_id)
    (key : Option Json) (writable : ∀ value ∈ key, Writable limits floats.Keeps 2 value) :
    Writable limits floats.Keeps 1 (.obj (wallet.toList.map (fun wallet_id => (text "x-wallet-id", .str wallet_id)) ++
      key.toList.map (fun value => (text "x-api-key", value)))) := by
  cases wallet with
  | none =>
    cases key with
    | none => exact record_writable [] deep List.nodup_nil (List.forall_mem_nil _)
    | some value =>
      refine record_writable [("x-api-key", value)] deep (List.nodup_singleton _) ?_
      exact List.forall_mem_singleton.mpr (writable value rfl)
  | some wallet_id =>
    have name : Writable limits floats.Keeps 2 (.str wallet_id) := .str _ _ (readable wallet_id rfl)
    cases key with
    | none =>
      refine record_writable [("x-wallet-id", .str wallet_id)] deep (List.nodup_singleton _) ?_
      exact List.forall_mem_singleton.mpr name
    | some value =>
      refine record_writable [("x-wallet-id", .str wallet_id), ("x-api-key", value)] deep (by simp) ?_
      exact List.forall_mem_cons.mpr ⟨name,List.forall_mem_singleton.mpr (writable value rfl)⟩

theorem metadata_key (profile : Profile) (value : Json) :
    setItem (text "x-api-key") value profile.metadata = profile.metadata ++ [(text "x-api-key", value)] := by
  refine setItem_new value (fun member => ?_)
  obtain ⟨field,inside,same⟩ := List.mem_map.mp member
  obtain ⟨wallet_id,_,rfl⟩ := List.mem_map.mp inside
  exact absurd (text_inj same) (by decide)

theorem headers_writable {profile : Profile} (deep : 1 < limits.depth)
    (wallet : ∀ wallet_id ∈ profile.wallet, JsonText.Readable wallet_id) (endpoint : Text) :
    Writable limits floats.Keeps 1 (.obj (sent_headers profile endpoint)) := by
  rw [sent_headers]
  split
  · rw [metadata_key]
    exact named_writable deep wallet (some .null) (fun value same => by cases same; exact .null _)
  · rw [metadata_key]
    exact named_writable deep wallet (some (.str [])) (fun value same => by cases same; exact .str _ _ readable_nil)
  · rw [← List.append_nil profile.metadata]
    exact named_writable deep wallet none (fun value same => by cases same)

/-- The deliverers and the invocations fit together. -/
structure Fits (tools : Toolbox) (limits : Limits) (floats : Floats) (codec : Codec) (calls : List Invocation) : Prop where
  documented : Documented tools
  json : tools.json = python_json limits floats codec
  digit : 0 < limits.digits
  deep : 1 < limits.depth
  readable : ∀ call ∈ calls, call.Readable tools limits floats

theorem hooks_suit (fits : Fits tools limits floats codec calls) : Suits tools limits floats codec (Hooks calls) where
  documented := fits.documented
  json := fits.json
  digit := fits.digit
  readable parcel made := by
    obtain ⟨call,member,payload,endpoint,made⟩ := made
    have readable := fits.readable call member
    obtain ⟨url,parsed⟩ := readable.urls endpoint made.subscribed
    rw [← made.url] at url parsed
    exact ⟨parsed,url,made.headers ▸ headers_writable fits.deep readable.wallet endpoint⟩

/-- A row that is pushed from outside is that of an invocation. -/
def Supplied (calls : List Invocation) : Action Row → Prop
  | .push row => ∃ call ∈ calls, ∃ value, call.Pushes value ∧ row = .bytes value
  | _ => True

theorem supplied_hooks (fits : Fits tools limits floats codec calls) {a : Action Row} (supplied : Supplied calls a) :
    Supplies tools.json (Hooks calls) a := by
  cases a with
  | push row =>
    obtain ⟨call,member,value,pushed,rfl⟩ := supplied
    obtain ⟨payload,endpoint,parcel,made,written⟩ := pushed_hook (fits.readable call member) pushed
    exact ⟨parcel,value,⟨call,member,payload,endpoint,made⟩,written,rfl⟩
  | _ => trivial

/-- The message is the webhook of an event for a url, and its body is read as the event. -/
structure Reports (tools : Toolbox) (call : Invocation) (msg : OutboundPayload Headers) : Prop where
  webhook : ∃ endpoint ∈ call.profile.hooked, msg.url = hook call.webhook_topic endpoint ∧
    msg.headers = sent_headers call.profile endpoint
  event : ∃ list payload, event_push call.tools call.profile call.event call.pattern = .ok (list, payload) ∧
    tools.json.loads (.inl msg.payload) = .ok (.obj payload)

/-- However the loops of the deliverers are interleaved, each POST is that of a webhook of one of the
    invocations of `handle_event`, and whoever gets it reads the event. -/
theorem webhooks_posted (fits : Fits tools limits floats codec calls) {before : Row → Row → Bool}
    {start f : Fleet Row Headers} (starts : Starts start) (empty : start.outbound = [] ∧ start.retry = ∅)
    {trace : List (Fleet Row Headers × Action Row)}
    (run : Run (library tools before) start trace f) (supplied : ∀ state ∈ trace, Supplied calls state.2) :
    ∀ msg, .posted msg ∈ f.log → ∃ call ∈ calls, Reports tools call msg := by
  have supplies := fun state member => supplied_hooks fits (supplied state member)
  obtain ⟨posts,_,_⟩ := parcels_intact (hooks_suit fits) starts empty run supplies
  intro msg event
  obtain ⟨⟨parcel,⟨call,member,payload,endpoint,made⟩,sends⟩,_⟩ := posts msg event
  have readable := fits.readable call member
  obtain ⟨list,pushed⟩ := made.list
  refine ⟨call,member,⟨endpoint,made.subscribed,sends.url.trans made.url,sends.headers.trans made.headers⟩,list,payload,
    pushed,?_⟩
  have faithful : Faithful tools.json (.obj payload) := by
    rw [fits.json]
    exact python_json_faithful floats codec (readable.event list payload pushed)
  have body := made.body
  rw [readable.json,← sends.payload] at body
  exact faithful.bytes msg.payload body

end

/-! ### One webhook -/

/-- A ping is received, and a url with a key has subscribed. -/
def ping_a : Invocation where
  tools := ⟨python_json limits_a floats_a codec_a, fun _ => [], fun pattern topic => pattern.isPrefixOf topic⟩
  profile := ⟨none, [text "http://a#k"], .default, "acapy_outbound"⟩
  event := empty_event "acapy::ping::received"
  pattern := text "acapy::ping::received"

/-- The `dict` of the event. -/
def ping_fields : List (Text × Json) := Events.event_fields ping_a.profile ping_a.event.topic .null (.obj [])

theorem ping_pushed :
    event_push ping_a.tools ping_a.profile ping_a.event ping_a.pattern = .ok ("acapy-ping-received", ping_fields) := by
  rfl

theorem ping_writable : Writable limits_a floats_a.Keeps 0 (.obj ping_fields) := by
  refine record_writable [("wallet_id", .str (text "base")), ("state", .null), ("topic", .str (text "acapy::ping::received")),
    ("category", .null), ("payload", .obj [])] (by decide) (by decide) ?_
  simp only [List.forall_mem_cons]
  exact ⟨.str _ _ (readable_text _),.null _,.str _ _ (readable_text _),.null _,
    record_writable [] (by decide) List.nodup_nil (List.forall_mem_nil _),List.forall_mem_nil _⟩

theorem ping_url : hook ping_a.webhook_topic (text "http://a#k") = text "http://a/topic/ping/" := by decide +kernel

theorem ping_hooked {endpoint : Text} (member : endpoint ∈ ping_a.profile.hooked) : endpoint = text "http://a#k" :=
  List.mem_singleton.mp member

theorem ping_readable : ping_a.Readable tools_p limits_a floats_a where
  json := rfl
  apart list payload pushed := by
    rw [ping_pushed] at pushed
    cases pushed
    decide
  event list payload pushed := by
    rw [ping_pushed] at pushed
    cases pushed
    exact ping_writable
  wallet _ member := absurd member (Option.not_mem_none _)
  urls endpoint member := by
    rw [ping_hooked member,ping_url]
    exact ⟨readable_text _,_,rfl⟩

theorem ping_fits : WebhookPosts.Fits tools_p limits_a floats_a codec_a [ping_a] :=
  ⟨tools_p_documented,rfl,by decide,by decide,fun _ member => List.mem_singleton.mp member ▸ ping_readable⟩

theorem ping_sent : ∃ value, ping_a.Pushes value := by
  obtain ⟨log,outcome,s',run⟩ := (handle_event_pushes ping_a.tools ping_a.profile ping_a.event ping_a.pattern []).runs
  obtain ⟨pushes,sends,same⟩ := (handle_event_pushes ping_a.tools ping_a.profile ping_a.event ping_a.pattern []).post_of_runs run
  rw [Events.Sends,ping_pushed] at sends
  obtain ⟨records,hooked,rfl⟩ := sends
  have one : ping_a.profile.hooked = [text "http://a#k"] := rfl
  rw [one] at hooked
  cases hooked with
  | @cons _ record _ _ made rest =>
    obtain ⟨value,written⟩ := ping_a.tools.json.encodes record
    refine ⟨value,[],log,outcome,s',record,run,?_,written⟩
    rw [same]
    exact List.mem_cons_of_mem _ List.mem_cons_self

/-- The webhook of the ping is queued, popped and posted. -/
theorem webhooks_posted_ping : ∃ trace f msg, Run (library tools_p (fun _ _ => true)) start_a trace f ∧
    .posted msg ∈ f.log ∧ Reports tools_p ping_a msg := by
  obtain ⟨value,pushed⟩ := ping_sent
  obtain ⟨payload,endpoint,parcel,made,written⟩ := pushed_hook ping_readable pushed
  have suits := hooks_suit ping_fits
  have among : Hooks [ping_a] parcel := ⟨ping_a,List.mem_singleton_self _,payload,endpoint,made⟩
  obtain ⟨msg,read,sends⟩ := parcel_read suits.documented suits.json (suits.readable _ among) written
  have http : web (library tools_p (fun _ _ => true)) msg = true := by
    have scheme : tools_p.urlparse_scheme (text "http://a/topic/ping/") = .ok (text "http") := by decide +kernel
    rw [web,sends.url,made.url,ping_hooked made.subscribed,ping_url]
    simp only [library,scheme,ok_bind,text_encode,Except.toOption,Option.getD_some]
    rfl
  have received : handle (library tools_p (fun _ _ => true)) (.bytes value) = .received msg := by
    have read' : (library tools_p (fun _ _ => true)).from_bytes (.bytes value) = .ok msg := read
    rw [handle,read']
    exact if_pos http
  have first : Run (library tools_p (fun _ _ => true)) start_a _ _ := .step .start (.push (.bytes value))
  have second := Run.step first (@Step.blpop _ _ _ _ _ 0 (.bytes value) [] rfl rfl)
  rw [received] at second
  have third := Run.step second (@Step.post _ _ _ _ _ 0 msg rfl)
  have posted : ∃ call ∈ [ping_a], Reports tools_p call msg := by
    refine webhooks_posted ping_fits start_a_starts ⟨rfl,rfl⟩ third ?_ msg List.mem_cons_self
    intro state member
    simp only [List.mem_cons,List.not_mem_nil,or_false] at member
    rcases member with rfl | rfl | rfl
    · trivial
    · trivial
    · exact ⟨ping_a,List.mem_singleton_self _,value,pushed,rfl⟩
  obtain ⟨call,member,reports⟩ := posted
  rw [List.mem_singleton.mp member] at reports
  exact ⟨_,_,msg,third,List.mem_cons_self,reports⟩

end AcapyRedis.WebhookPosts
