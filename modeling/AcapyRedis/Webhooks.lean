import AcapyRedis.Events

/-!
How often an event yields webhooks. An invocation of `handle_event` that gets as far as to
push the event pushes a webhook for every url (`handle_event_ends`), whether its topic is
mapped or not, and the bus makes one for every matching pattern (`publish_ends`); so every
url gets its one webhook, or none, exactly when the invocations fit the topic
(`webhooked_iff`).
-/
namespace AcapyRedis.Webhooks
open AcapyRedis.Programs AcapyRedis.Programs.Program AcapyRedis.Python AcapyRedis.Records AcapyRedis.Events

/-! ### Webhooks -/

/-- The url of a message on the outbound topic. -/
def target (outbound : String) (push : String × Json) : Option Text :=
  if push.1 = outbound then
    match push.2.getItem "service" >>= Json.getItem "url" with
    | .ok (.str url) => some url
    | _ => none
  else none

/-- The urls of the messages on the outbound topic. -/
def targets (outbound : String) (pushes : Pushes) : List Text := pushes.filterMap (target outbound)

/-- The url that a webhook url is to get its message for. -/
def hook (webhook_topic : Option Text) (endpoint : Text) : Text := webhook_url (split_hash endpoint).1 webhook_topic

/-- Every webhook url gets one message if the topic of the event is mapped, and none otherwise. -/
def Webhooked (profile : Profile) (event : Event) (pushes : Pushes) : Prop :=
  match profile.config_events.event_webhook_topic_maps.lookup event.topic with
  | some webhook_topic =>
    (targets profile.acapy_outbound_topic pushes).Perm (profile.webhook_urls.map (hook (some webhook_topic)))
  | none => targets profile.acapy_outbound_topic pushes = []

/-- The list that an invocation for a pattern pushes the event to. -/
def event_list (tools : Toolbox) (profile : Profile) (event : Event) (pattern : Text) : Except PyError String := do
  let event_payload ← event_payload tools.json event.payload
  let state ← event_payload.get "state"
  let template ← (profile.config_events.event_topic_maps.lookup pattern).elim (.error .KeyError) .ok
  (← tools.redis_topic template (event_fields profile event.topic state event_payload)).encode

/-- The urls of the webhooks of an event. -/
def hooks (profile : Profile) (event : Event) : List Text :=
  profile.webhook_urls.map (hook (profile.config_events.event_webhook_topic_maps.lookup event.topic))

/-- What an invocation adds to them. -/
def added (tools : Toolbox) (profile : Profile) (event : Event) (pattern : Text) : List Text :=
  if (event_list tools profile event pattern).isOk then hooks profile event else []

/-- The patterns that match the topic and whose invocations push the event. -/
def reaching (tools : Toolbox) (profile : Profile) (event : Event) (patterns : List Text) : List Text :=
  patterns.filter (fun pattern =>
    tools.matches_prefix pattern event.topic && (event_list tools profile event pattern).isOk)

variable {tools : Toolbox} {profile : Profile} {event : Event}

theorem targets_append (outbound : String) (first later : Pushes) :
    targets outbound (first ++ later) = targets outbound first ++ targets outbound later := List.filterMap_append

/-! ### An invocation -/

theorem webhook_target {payload record : Json} {webhook_topic : Option Text} {endpoint : Text}
    (made : webhook_record tools profile payload webhook_topic endpoint = .ok record) :
    target profile.acapy_outbound_topic (profile.acapy_outbound_topic, record) = some (hook webhook_topic endpoint) := by
  obtain ⟨bytes,encoded⟩ := tools.json.encodes payload
  simp only [webhook_record,encoded,ok_bind,pure_ok] at made
  cases made
  rw [target,if_pos rfl]
  rfl

theorem hooked_targets {payload : List (Text × Json)} {urls : List Text} {records : List Json}
    (hooked : Hooked tools profile event payload urls records) :
    targets profile.acapy_outbound_topic (records.map (fun record => (profile.acapy_outbound_topic, record))) =
      urls.map (hook (profile.config_events.event_webhook_topic_maps.lookup event.topic)) := by
  induction hooked with
  | nil => rfl
  | cons made _ ih =>
    rw [List.map_cons,List.map_cons,← ih]
    exact List.filterMap_cons_some (webhook_target made)

/-- The event itself is no message for a url. -/
theorem targets_event (outbound list : String) (payload : List (Text × Json)) (pushes : Pushes) :
    targets outbound ((list, event_record profile payload) :: pushes) = targets outbound pushes := by
  have silent : target outbound (list, event_record profile payload) = none := by
    unfold target
    split <;> rfl
  exact List.filterMap_cons_none silent

theorem event_list_push (tools : Toolbox) (profile : Profile) (event : Event) (pattern : Text) :
    event_list tools profile event pattern = (event_push tools profile event pattern).map (·.1) := by
  rw [event_list,event_push]
  cases event_payload tools.json event.payload with
  | error error => rfl
  | ok fields =>
    rw [ok_bind,ok_bind]
    cases fields.get "state" with
    | error error => rfl
    | ok state =>
      rw [ok_bind,ok_bind]
      cases (profile.config_events.event_topic_maps.lookup pattern).elim (Except.error PyError.KeyError) Except.ok with
      | error error => rfl
      | ok template =>
        rw [ok_bind,ok_bind]
        cases tools.redis_topic template (event_fields profile event.topic state fields) with
        | error error => rfl
        | ok redis_topic =>
          rw [ok_bind,ok_bind]
          cases redis_topic.encode <;> rfl

/-- An invocation sends a webhook for every url if it sends the event. -/
theorem sends_targets (on : profile.config_events.deliver_webhook = true) {pattern : Text} {pushes : Pushes}
    (sends : Sends tools profile event pattern pushes) :
    targets profile.acapy_outbound_topic pushes = added tools profile event pattern := by
  rw [added,event_list_push]
  cases pushed : event_push tools profile event pattern with
  | error error =>
    rw [Sends,pushed] at sends
    rw [sends]
    rfl
  | ok sent =>
    rw [Sends,pushed] at sends
    obtain ⟨records,hooked,rfl⟩ := sends
    rw [Profile.hooked,if_pos on] at hooked
    rw [targets_event,hooked_targets hooked]
    rfl

theorem handle_event_ends (on : profile.config_events.deliver_webhook = true) (pattern : Text) (s : Pushes) :
    Ends exec (fun _ s' => targets profile.acapy_outbound_topic s' =
        targets profile.acapy_outbound_topic s ++ added tools profile event pattern)
      (handle_event tools profile event pattern) s := by
  refine (handle_event_pushes tools profile event pattern s).mono (fun _ s' ends => ?_)
  obtain ⟨pushes,sends,rfl⟩ := ends
  rw [targets_append,sends_targets on sends]

theorem added_error {pattern : Text} {error : PyError} (raises : event_list tools profile event pattern = .error error) :
    added tools profile event pattern = [] := by
  rw [added,raises]
  rfl

theorem added_ok {pattern : Text} {list : String} (listed : event_list tools profile event pattern = .ok list) :
    added tools profile event pattern = hooks profile event := by
  rw [added,listed]
  rfl

/-! ### The bus -/

theorem notify_ends (on : profile.config_events.deliver_webhook = true) (patterns : List Text) (s : Pushes) :
    Ends exec (fun _ s' => targets profile.acapy_outbound_topic s' = targets profile.acapy_outbound_topic s ++
        (reaching tools profile event patterns).flatMap (fun _ => hooks profile event))
      (notify tools profile event patterns) s := by
  induction patterns generalizing s with
  | nil => exact (List.append_nil _).symm
  | cons pattern later ih =>
    rw [notify]
    cases matched : tools.matches_prefix pattern event.topic with
    | false =>
      have same : reaching tools profile event (pattern :: later) = reaching tools profile event later := by
        simp [reaching,matched]
      rw [same]
      exact ih s
    | true =>
      simp only [↓reduceIte]
      rw [ends_bind,ends_attempt]
      refine (handle_event_ends on pattern s).mono (fun outcome s' handled => (ih s').mono (fun _ s'' rest => ?_))
      rw [rest,handled,List.append_assoc]
      cases listed : event_list tools profile event pattern with
      | ok list =>
        have first : reaching tools profile event (pattern :: later) =
            pattern :: reaching tools profile event later := by simp [reaching,matched,listed,Except.isOk,Except.toBool]
        rw [first,added_ok listed,List.flatMap_cons]
      | error error =>
        have same : reaching tools profile event (pattern :: later) = reaching tools profile event later := by
          simp [reaching,matched,listed,Except.isOk,Except.toBool]
        rw [same,added_error listed,List.nil_append]

/-- The patterns whose invocations push the event. -/
def invocations (tools : Toolbox) (profile : Profile) (event : Event) : List Text :=
  reaching tools profile event profile.config_events.event_topic_maps.keys

/-- Every such invocation pushes all webhooks of the event. -/
theorem publish_ends (on : profile.config_events.deliver_webhook = true) :
    Ends exec (fun _ pushes => targets profile.acapy_outbound_topic pushes =
        (invocations tools profile event).flatMap (fun _ => hooks profile event))
      (publish tools profile event) [] := notify_ends on _ []

/-- As many invocations as the topic asks for: one if it is mapped, and none otherwise. -/
def Fitting (tools : Toolbox) (profile : Profile) (event : Event) : Prop :=
  if event.topic ∈ profile.config_events.event_webhook_topic_maps then (invocations tools profile event).length = 1
  else invocations tools profile event = []

theorem repeated_perm {α β : Type} (turns : List α) (values : List β) :
    (turns.flatMap (fun _ => values)).Perm values ↔ values = [] ∨ turns.length = 1 := by
  constructor
  · intro perm
    have count := perm.length_eq
    simp only [List.length_flatMap,List.map_const',List.sum_replicate_nat] at count
    by_cases none : values = []
    · exact .inl none
    · have some_value : values.length ≠ 0 := fun zero => none (List.length_eq_zero_iff.mp zero)
      exact .inr ((Nat.mul_eq_right some_value).mp count)
  · rintro (rfl | once)
    · simp
    · obtain ⟨turn,rfl⟩ := List.length_eq_one_iff.mp once
      simp

theorem repeated_nil {α β : Type} (turns : List α) (values : List β) :
    turns.flatMap (fun _ => values) = [] ↔ values = [] ∨ turns = [] := by
  cases turns with
  | nil => simp
  | cons turn rest =>
    simp only [List.flatMap_cons,List.append_eq_nil_iff,reduceCtorEq,or_false,and_iff_left_iff_imp]
    rintro rfl
    simp

theorem webhooked_hooks {pushes : Pushes} (pushed : targets profile.acapy_outbound_topic pushes =
    (invocations tools profile event).flatMap (fun _ => hooks profile event)) :
    Webhooked profile event pushes ↔ profile.webhook_urls = [] ∨ Fitting tools profile event := by
  have none : hooks profile event = [] ↔ profile.webhook_urls = [] := List.map_eq_nil_iff
  rw [Webhooked,Fitting,pushed]
  cases mapped : profile.config_events.event_webhook_topic_maps.lookup event.topic with
  | none =>
    rw [if_neg (AList.lookup_eq_none.mp mapped)]
    show _ = [] ↔ _
    rw [repeated_nil,none]
  | some webhook_topic =>
    rw [if_pos (AList.lookup_isSome.mp (by rw [mapped]; rfl))]
    have same : profile.webhook_urls.map (hook (some webhook_topic)) = hooks profile event := by rw [hooks,mapped]
    show List.Perm _ _ ↔ _
    rw [same,repeated_perm,none]

/-- An event that is published once yields the right webhooks exactly when no url is set or
    its invocations fit its topic. -/
theorem webhooked_iff (on : profile.config_events.deliver_webhook = true) :
    Ends exec (fun _ pushes => Webhooked profile event pushes) (publish tools profile event) [] ↔
      profile.webhook_urls = [] ∨ Fitting tools profile event := by
  have pushed : Ends exec (fun _ pushes => targets profile.acapy_outbound_topic pushes =
      (invocations tools profile event).flatMap (fun _ => hooks profile event)) (publish tools profile event) [] :=
    publish_ends on
  constructor
  · intro ends
    obtain ⟨log,outcome,pushes,run⟩ := pushed.runs
    exact (webhooked_hooks (pushed.post_of_runs run)).mp (ends.post_of_runs run)
  · intro fitting
    exact pushed.mono (fun _ pushes same => (webhooked_hooks same).mpr fitting)

/-! ### Two events under the default configuration -/

/-- A matcher for the patterns that are literals. -/
def literal_tools : Toolbox := ⟨sample_json [], fun _ => [], fun pattern topic => pattern.isPrefixOf topic⟩

/-- A profile with one webhook url. -/
def one_url : Profile := ⟨none, [text "http://a"], .default, "acapy_outbound"⟩

/-- An event without content. -/
def empty_event (topic : String) : Event := ⟨text topic, ⟨.dict [], .error .AttributeError, .error .AttributeError,
  .error .AttributeError⟩⟩

theorem webhooked_iff_ping : Ends exec (fun _ pushes => Webhooked one_url (empty_event "acapy::ping::received") pushes)
    (publish literal_tools one_url (empty_event "acapy::ping::received")) [] := by
  have once : (invocations literal_tools one_url (empty_event "acapy::ping::received")).length = 1 := by decide +kernel
  have mapped : (empty_event "acapy::ping::received").topic ∈ one_url.config_events.event_webhook_topic_maps :=
    AList.lookup_isSome.mp (by decide +kernel)
  have on : one_url.config_events.deliver_webhook = true := rfl
  have iff := @webhooked_iff literal_tools one_url (empty_event "acapy::ping::received") on
  exact iff.mpr (.inr ((if_pos mapped).mpr once))

/-- An event whose topic is not mapped is sent for the topic `None`. -/
theorem unmapped_event_sent : one_url.config_events.deliver_webhook = true ∧
    one_url.config_events.event_webhook_topic_maps.lookup (empty_event "acapy::forward::received").topic = none ∧
    Ends exec (fun _ pushes => targets one_url.acapy_outbound_topic pushes = [text "http://a/topic/None/"] ∧
        ¬ Webhooked one_url (empty_event "acapy::forward::received") pushes)
      (publish literal_tools one_url (empty_event "acapy::forward::received")) [] := by
  have unmapped : one_url.config_events.event_webhook_topic_maps.lookup (empty_event "acapy::forward::received").topic =
      none := by decide +kernel
  have on : one_url.config_events.deliver_webhook = true := rfl
  have ends := @publish_ends literal_tools one_url (empty_event "acapy::forward::received") on
  refine ⟨on, unmapped, ends.mono (fun _ pushes pushed => ?_)⟩
  have sent : (invocations literal_tools one_url (empty_event "acapy::forward::received")).flatMap
      (fun _ => hooks one_url (empty_event "acapy::forward::received")) = [text "http://a/topic/None/"] := by
    decide +kernel
  refine ⟨pushed.trans sent, ?_⟩
  rw [Webhooked,unmapped,pushed,sent]
  simp

end AcapyRedis.Webhooks
