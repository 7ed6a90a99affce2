import AcapyRedis.Codecs
import AcapyRedis.Webhooks

/-!
The API keys of webhooks. A url `base#key` carries a key, and `handle_event` is to put it into
the headers of the message for `base` and nowhere else. It puts a key that is missing there
instead of one that is given, so only the message for a url with an empty key is as it is to be
(`keyed_iff`, `keys_carried_iff`).
-/
namespace AcapyRedis.ApiKeys
open AcapyRedis.Programs AcapyRedis.Programs.Program AcapyRedis.Python AcapyRedis.Base64 AcapyRedis.Records
open AcapyRedis.Events AcapyRedis.Webhooks AcapyRedis.Codecs

/-! ### Urls -/

theorem split_hash_word {base key rest : Text} (clean : 35 ∉ base) (clean' : 35 ∉ key)
    (stops : rest = [] ∨ rest.head? = some 35) : split_hash (base ++ 35 :: (key ++ rest)) = (base, some key) := by
  obtain ⟨taken,dropped⟩ := takeWhile_word (35 :: (key ++ rest)) clean (.inr rfl)
  rw [split_hash,taken,dropped,if_pos (by simp)]
  rw [List.drop_one,List.tail_cons,(takeWhile_word rest clean' stops).1]

theorem split_hash_none {endpoint : Text} (clean : 35 ∉ endpoint) : split_hash endpoint = (endpoint, none) := by
  have taken := (takeWhile_word [] clean (.inl rfl)).1
  rw [List.append_nil] at taken
  rw [split_hash,taken,if_neg (by simpa using clean)]

/-- Every url has one part or two. -/
theorem split_hash_cases (endpoint : Text) : (35 ∉ endpoint ∧ split_hash endpoint = (endpoint, none)) ∨
    ∃ base key rest, 35 ∉ base ∧ 35 ∉ key ∧ (rest = [] ∨ rest.head? = some 35) ∧ endpoint = base ++ 35 :: (key ++ rest) ∧
      split_hash endpoint = (base, some key) := by
  obtain ⟨base,after,rfl,clean,stops⟩ := words 35 endpoint
  rcases stops with rfl | first
  · left
    rw [List.append_nil]
    exact ⟨clean, split_hash_none clean⟩
  · right
    cases after with
    | nil => cases first
    | cons point after =>
      cases first
      obtain ⟨key,rest,rfl,clean',stops'⟩ := words 35 after
      exact ⟨base, key, rest, clean, clean', stops', rfl, split_hash_word clean clean' stops'⟩

/-! ### One message -/

/-- The headers of a message. -/
def headers_of (record : Json) : List (Text × Json) :=
  match record.getItem "headers" with
  | .ok (.obj headers) => headers
  | _ => []

/-- The url of a message. -/
def url_of (record : Json) : Except PyError Json := record.getItem "service" >>= Json.getItem "url"

/-- The message for a url: it is for the part before the `#` and has the key after it, it has no
    key if the url has none, and all its headers are strings. -/
structure Keyed (webhook_topic : Option Text) (endpoint : Text) (record : Json) : Prop where
  carried : ∀ base key rest, 35 ∉ base → 35 ∉ key → (rest = [] ∨ rest.head? = some 35) →
    endpoint = base ++ 35 :: (key ++ rest) → key ≠ [] →
    header (text "x-api-key") (headers_of record) = some (.str key) ∧
      url_of record = .ok (.str (webhook_url base webhook_topic))
  bare : 35 ∉ endpoint → header (text "x-api-key") (headers_of record) = none
  strings : ∀ field ∈ headers_of record, ∃ value, field.2 = .str value

/-- The headers that the message for a url gets. -/
def sent_headers (profile : Profile) (endpoint : Text) : List (Text × Json) :=
  match (split_hash endpoint).2 with
  | none => setItem (text "x-api-key") .null profile.metadata
  | some [] => setItem (text "x-api-key") (.str []) profile.metadata
  | some _ => profile.metadata

section
variable {tools : Toolbox} {profile : Profile}

/-- What the message of a url has in its headers, and whom it is for. -/
theorem webhook_record_headers {payload record : Json} {webhook_topic : Option Text} {endpoint : Text}
    (made : webhook_record tools profile payload webhook_topic endpoint = .ok record) :
    url_of record = .ok (.str (hook webhook_topic endpoint)) ∧ headers_of record = sent_headers profile endpoint := by
  obtain ⟨bytes,encoded⟩ := tools.json.encodes payload
  simp only [webhook_record,encoded,ok_bind,pure_ok] at made
  cases made
  exact ⟨rfl,rfl⟩

theorem metadata_header (profile : Profile) : header (text "x-api-key") profile.metadata = none := by
  rw [Profile.metadata]
  cases profile.wallet <;> rfl

theorem setItem_strings {key value : Text} {headers : List (Text × Json)}
    (strings : ∀ field ∈ headers, ∃ value, field.2 = .str value) :
    ∀ field ∈ setItem key (.str value) headers, ∃ value, field.2 = .str value := by
  induction headers with
  | nil =>
    intro field member
    rw [List.mem_singleton.mp member]
    exact ⟨value,rfl⟩
  | cons first rest ih =>
    have later := ih (fun field member => strings field (List.mem_cons_of_mem _ member))
    intro field member
    rw [setItem] at member
    split at member
    · rcases List.mem_cons.mp member with rfl | there
      · exact ⟨value,rfl⟩
      · exact strings field (List.mem_cons_of_mem _ there)
    · rcases List.mem_cons.mp member with rfl | there
      · exact strings _ List.mem_cons_self
      · exact later field there

theorem metadata_strings (profile : Profile) : ∀ field ∈ profile.metadata, ∃ value, field.2 = .str value := by
  intro field member
  obtain ⟨wallet_id,_,rfl⟩ := List.mem_map.mp member
  exact ⟨wallet_id,rfl⟩

/-- The message for a url is as it is to be exactly when the key of the url is empty. -/
theorem keyed_iff {payload record : Json} {webhook_topic : Option Text} {endpoint : Text}
    (made : webhook_record tools profile payload webhook_topic endpoint = .ok record) :
    Keyed webhook_topic endpoint record ↔ (split_hash endpoint).2 = some [] := by
  obtain ⟨_,headers⟩ := webhook_record_headers made
  rcases split_hash_cases endpoint with ⟨clean,parts⟩ | ⟨base,key,rest,clean,clean',stops,rfl,parts⟩
  · rw [sent_headers,parts] at headers
    rw [parts]
    have null : header (text "x-api-key") (headers_of record) = some .null := by
      rw [headers,header_setItem,if_pos rfl]
    constructor
    · intro keyed
      rw [keyed.bare clean] at null
      cases null
    · exact fun blank => by cases blank
  · rw [sent_headers,parts] at headers
    rw [parts]
    cases key with
    | nil =>
      refine ⟨fun _ => rfl, fun _ => ⟨?_, fun bare => absurd (by simp) bare, ?_⟩⟩
      · intro base' key' rest' clean clean' stops same some_key
        have same' := split_hash_word clean clean' stops
        rw [← same,parts] at same'
        cases same'
        exact absurd rfl some_key
      · rw [headers]
        exact setItem_strings (metadata_strings profile)
    | cons point key =>
      constructor
      · intro keyed
        have has_key := (keyed.carried base (point :: key) rest clean clean' stops rfl (List.cons_ne_nil _ _)).1
        rw [headers,metadata_header] at has_key
        cases has_key
      · exact fun blank => by cases blank

end

/-! ### The messages of an event -/

/-- The records that an invocation has pushed after the event itself. -/
def queued (s s' : Pushes) : List Json := (s'.drop (s.length + 1)).map (·.2)

/-- Every url has its message as it is to be. -/
def KeysCarried (profile : Profile) (event : Event) (s s' : Pushes) : Prop :=
  ∀ message ∈ profile.webhook_urls.zip (queued s s'),
    Keyed (profile.config_events.event_webhook_topic_maps.lookup event.topic) message.1 message.2

/-- The invocation sends webhooks: they are on, and the event itself can be pushed. -/
def Delivers (tools : Toolbox) (profile : Profile) (event : Event) (pattern : Text) : Prop :=
  profile.config_events.deliver_webhook = true ∧ (event_push tools profile event pattern).isOk = true

variable {tools : Toolbox} {profile : Profile} {event : Event}

theorem hooked_keyed {payload : List (Text × Json)} {urls : List Text} {records : List Json}
    (hooked : Hooked tools profile event payload urls records) :
    (∀ message ∈ urls.zip records,
      Keyed (profile.config_events.event_webhook_topic_maps.lookup event.topic) message.1 message.2) ↔
      ∀ endpoint ∈ urls, (split_hash endpoint).2 = some [] := by
  induction hooked with
  | nil => simp
  | cons made _ ih => rw [List.zip_cons_cons,List.forall_mem_cons,List.forall_mem_cons,keyed_iff made,ih]

theorem queued_sends {pattern : Text} {pushes : Pushes} (sends : Sends tools profile event pattern pushes) (s : Pushes) :
    KeysCarried profile event s (s ++ pushes) ↔
      (Delivers tools profile event pattern → ∀ endpoint ∈ profile.webhook_urls, (split_hash endpoint).2 = some []) := by
  have none : queued s (s ++ pushes) = [] → KeysCarried profile event s (s ++ pushes) := by
    intro empty message member
    rw [empty,List.zip_nil_right] at member
    cases member
  cases pushed : event_push tools profile event pattern with
  | error error =>
    rw [Sends,pushed] at sends
    subst sends
    refine iff_of_true (none (by simp [queued])) (fun delivers => ?_)
    rw [Delivers,pushed] at delivers
    cases delivers.2
  | ok sent =>
    rw [Sends,pushed] at sends
    obtain ⟨records,hooked,rfl⟩ := sends
    have all : queued s (s ++ (sent.1, event_record profile sent.2) ::
        records.map (fun record => (profile.acapy_outbound_topic, record))) = records := by
      simp [queued,List.drop_append,Function.comp_def]
    cases on : profile.config_events.deliver_webhook with
    | false =>
      rw [Profile.hooked,on] at hooked
      cases hooked
      refine iff_of_true (none all) (fun delivers => ?_)
      rw [Delivers,on] at delivers
      cases delivers.1
    | true =>
      rw [Profile.hooked,on,if_pos rfl] at hooked
      have delivers : Delivers tools profile event pattern := ⟨on, by rw [pushed]; rfl⟩
      rw [KeysCarried,all,hooked_keyed hooked]
      exact ⟨fun blank _ => blank, fun blank => blank delivers⟩

/-- An invocation carries the keys as it is to exactly when it sends no webhooks or the key of
    every url is empty. -/
theorem keys_carried_iff (tools : Toolbox) (profile : Profile) (event : Event) (pattern : Text) (s : Pushes) :
    Ends exec (fun _ s' => KeysCarried profile event s s') (handle_event tools profile event pattern) s ↔
      (Delivers tools profile event pattern → ∀ endpoint ∈ profile.webhook_urls, (split_hash endpoint).2 = some []) := by
  have pushed := handle_event_pushes tools profile event pattern s
  constructor
  · intro carried
    obtain ⟨_,_,⟨pushes,sends,rfl⟩,keyed⟩ := pushed.meet carried
    exact (queued_sends sends s).mp keyed
  · intro blank
    refine pushed.mono (fun _ s' ends => ?_)
    obtain ⟨pushes,sends,rfl⟩ := ends
    exact (queued_sends sends s).mpr blank

/-! ### A url with a key and one without -/

def two_urls : Profile := ⟨none, [text "http://a#k", text "http://b"], .default, "acapy_outbound"⟩

theorem hooked_headers {payload : List (Text × Json)} {urls : List Text} {records : List Json}
    (hooked : Hooked tools profile event payload urls records) :
    records.map headers_of = urls.map (sent_headers profile) := by
  induction hooked with
  | nil => rfl
  | cons made _ ih => rw [List.map_cons,List.map_cons,ih,(webhook_record_headers made).2]

/-- The key of the first url is not sent, and the message for the second has a header that is
    no string. -/
theorem key_left_out :
    Ends exec (fun _ s' => (queued [] s').map headers_of = [[], [(text "x-api-key", .null)]] ∧
        ¬ KeysCarried two_urls (empty_event "acapy::ping::received") [] s')
      (handle_event literal_tools two_urls (empty_event "acapy::ping::received") (text "acapy::ping::received")) [] := by
  have delivers : Delivers literal_tools two_urls (empty_event "acapy::ping::received") (text "acapy::ping::received") :=
    ⟨rfl, by decide +kernel⟩
  refine (handle_event_pushes _ _ _ _ []).mono (fun _ s' ends => ?_)
  obtain ⟨pushes,sends,rfl⟩ := ends
  constructor
  · cases pushed : event_push literal_tools two_urls (empty_event "acapy::ping::received") (text "acapy::ping::received") with
    | error error =>
      have sent := delivers.2
      rw [pushed] at sent
      cases sent
    | ok sent =>
      rw [Sends,pushed] at sends
      obtain ⟨records,hooked,rfl⟩ := sends
      have headers : records.map headers_of = [[], [(text "x-api-key", .null)]] := hooked_headers hooked
      rw [← headers]
      simp [queued,Function.comp_def]
  · intro carried
    have blank := (queued_sends sends []).mp carried delivers (text "http://b") (.tail _ (.head _))
    exact absurd blank (by decide)

end AcapyRedis.ApiKeys
