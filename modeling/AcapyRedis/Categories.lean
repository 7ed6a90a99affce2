import AcapyRedis.Regexes
import AcapyRedis.Events

/-!
The categories of events. `_derive_category` is what `RECORD_RE` and `WEBHOOK_RE` match
(`derive_category_eq`). The topics of records get their names; of the topics that the
subscription to webhooks matches only those get theirs that have braces around a part
(`categorised_iff`), as the braces of `WEBHOOK_RE` stand for themselves.
-/
namespace AcapyRedis.Categories
open AcapyRedis.Programs AcapyRedis.Python AcapyRedis.Regexes AcapyRedis.Regexes.Regex AcapyRedis.Events

/-! ### The expressions -/

/-- `[^:]*` and `.*`. -/
def no_colon : Regex Nat := many (· ≠ 58)
def any_line : Regex Nat := many (· ≠ 10)

/-- `acapy::record::([^:]*)(?:::(.*))?` -/
def RECORD_RE : Regex Nat :=
  seq (literal (text "acapy::record::")) (seq (group 1 no_colon) (maybe (seq (literal (text "::")) (group 2 any_line))))

/-- `acapy::webhook::{.*}`, where `{` begins no repetition. -/
def WEBHOOK_RE : Regex Nat := seq (literal (text "acapy::webhook::\x7b")) (seq any_line (literal (text "\x7d")))

/-- `^acapy::webhook::(.*)$` -/
def webhook_pattern : Regex Nat :=
  seq start (seq (literal (text "acapy::webhook::")) (seq (group 1 any_line) (finish 10)))

/-- `^acapy::record::([^:]*)::([^:]*)$` -/
def record_state_pattern : Regex Nat :=
  seq start (seq (literal (text "acapy::record::")) (seq (group 1 no_colon)
    (seq (literal (text "::")) (seq (group 2 no_colon) (finish 10)))))

/-- `^acapy::record::([^:])?` -/
def record_pattern : Regex Nat :=
  seq start (seq (literal (text "acapy::record::")) (maybe (group 1 (one (· ≠ 58)))))

/-! ### What they match -/

/-- An optional state does not change the group of the name. -/
theorem state_group {middle reached : Place Nat}
    (runs : reached ∈ (maybe (seq (literal (text "::")) (group 2 any_line))).runs middle) :
    reached.groups 1 = middle.groups 1 := by
  simp only [mem_maybe,mem_seq,mem_literal,mem_group,any_line,mem_many] at runs
  rcases runs with ⟨_,⟨rest,_,rfl⟩,_,⟨state,_,_,_,rfl⟩,rfl⟩ | rfl
  · simp
  · rfl

/-- The name that `RECORD_RE` finds. -/
theorem record_found (topic : Text) : (RECORD_RE.found topic).map (fun place => place.groups 1) =
    if (text "acapy::record::").isPrefixOf topic then
      some (some ((topic.drop (text "acapy::record::").length).takeWhile (· ≠ 58)))
    else none := by
  rw [found,RECORD_RE,runs_literal_seq,Place.initial]
  split
  · rw [head_seq (fun middle => by simp [runs_maybe]),runs_group,List.head?_map,no_colon,head_many,Option.map_some,
      Option.bind_some]
    generalize named : Place.mk _ _ _ = middle
    obtain ⟨reached,first⟩ : ∃ reached, ((maybe (seq (literal (text "::")) (group 2 any_line))).runs middle).head? =
        some reached := Option.isSome_iff_exists.mp (List.isSome_head?.mpr (by simp [runs_maybe]))
    rw [first,Option.map_some,state_group (List.mem_of_mem_head? first),← named]
    simp [Place.advance]
  · rfl

theorem webhook_accepts {topic : Text} : WEBHOOK_RE.accepts topic = true ↔
    ∃ inside after, 10 ∉ inside ∧ topic = text "acapy::webhook::\x7b" ++ (inside ++ 125 :: after) := by
  rw [accepts_iff]
  simp only [WEBHOOK_RE,any_line,mem_seq,mem_literal,mem_many,Place.initial,decide_eq_true_eq]
  constructor
  · rintro ⟨_,_,⟨_,rfl,rfl⟩,_,⟨inside,_,rfl,line,rfl⟩,after,rfl,_⟩
    exact ⟨inside, after, fun newline => line 10 newline rfl, rfl⟩
  · rintro ⟨inside,after,line,rfl⟩
    exact ⟨_, _, ⟨_, rfl, rfl⟩, _, ⟨inside, _, rfl, fun character member same => line (same ▸ member), rfl⟩,
      after, rfl, rfl⟩

/-- A piece without a newline that `}` follows somewhere. -/
theorem closed_iff {rest : Text} : (rest.takeWhile (· ≠ 10)).elem 125 = true ↔
    ∃ inside after, 10 ∉ inside ∧ rest = inside ++ 125 :: after := by
  rw [List.elem_iff]
  constructor
  · intro closes
    obtain ⟨inside,tail,piece⟩ := List.append_of_mem closes
    refine ⟨inside, tail ++ rest.dropWhile (· ≠ 10), fun newline => ?_, ?_⟩
    · have taken : 10 ∈ rest.takeWhile (· ≠ 10) := piece ▸ List.mem_append_left _ newline
      exact absurd (List.mem_takeWhile_imp taken) (by decide)
    · rw [← List.cons_append,← List.append_assoc,← piece,List.takeWhile_append_dropWhile]
  · rintro ⟨inside,after,line,rfl⟩
    rw [List.takeWhile_append_of_pos (clean_points line)]
    exact List.mem_append_right _ (.head _)

/-- `_derive_category` returns the group of `RECORD_RE` or what `WEBHOOK_RE` is for. -/
theorem derive_category_eq (topic : Text) : _derive_category topic =
    match RECORD_RE.found topic with
    | some place => ((place.groups 1).map Json.str).getD .null
    | none => if WEBHOOK_RE.accepts topic then .str (text "webhook") else .null := by
  have recorded := record_found topic
  rw [_derive_category]
  split
  · next begins =>
    rw [if_pos begins] at recorded
    obtain ⟨place,match_,group⟩ := Option.map_eq_some_iff.mp recorded
    simp only [match_,group,Option.map_some,Option.getD_some]
  · next other =>
    rw [if_neg other,Option.map_eq_none_iff] at recorded
    rw [recorded]
    refine if_congr ?_ rfl rfl
    rw [Bool.and_eq_true,closed_iff,webhook_accepts,List.isPrefixOf_iff_prefix]
    constructor
    · rintro ⟨⟨rest,rfl⟩,inside,after,line,closed⟩
      rw [List.drop_left] at closed
      exact ⟨inside, after, line, closed ▸ rfl⟩
    · rintro ⟨inside,after,line,rfl⟩
      exact ⟨List.prefix_append _ _, inside, after, line, List.drop_left⟩

theorem webhook_pattern_accepts {topic : Text} : webhook_pattern.accepts topic = true ↔
    ∃ line rest, 10 ∉ line ∧ (rest = [] ∨ rest = [10]) ∧ topic = text "acapy::webhook::" ++ (line ++ rest) := by
  rw [accepts_iff]
  simp only [webhook_pattern,any_line,mem_start,mem_seq,mem_literal,mem_group,mem_many,mem_finish,Place.initial,
    decide_eq_true_eq]
  constructor
  · rintro ⟨_,_,⟨_,rfl⟩,_,⟨_,rfl,rfl⟩,_,⟨_,⟨line,rest,rfl,clean,rfl⟩,rfl⟩,ends,_⟩
    exact ⟨line, rest, fun newline => clean 10 newline rfl, ends, rfl⟩
  · rintro ⟨line,rest,clean,ends,rfl⟩
    exact ⟨_, _, ⟨trivial, rfl⟩, _, ⟨_, rfl, rfl⟩, _, ⟨_, ⟨line, rest, rfl, fun character member same => clean (same ▸ member),
      rfl⟩, rfl⟩, ends, rfl⟩

/-! ### Topics of the two prefixes -/

theorem derive_record {name after : Text} (clean : 58 ∉ name) (stops : after = [] ∨ after.head? = some 58) :
    _derive_category (text "acapy::record::" ++ (name ++ after)) = .str name := by
  rw [_derive_category,if_pos (List.isPrefixOf_iff_prefix.mpr (List.prefix_append _ _)),List.drop_left,
    (takeWhile_word after clean stops).1]

/-- Every topic with the prefix of the records has some name. -/
theorem derive_record_exists (rest : Text) :
    ∃ name, _derive_category (text "acapy::record::" ++ rest) = .str name := by
  rw [_derive_category,if_pos (List.isPrefixOf_iff_prefix.mpr (List.prefix_append _ _))]
  exact ⟨_,rfl⟩

theorem prefixes_differ (after rest : Text) : text "acapy::record::" ++ after ≠ text "acapy::webhook::" ++ rest := by
  intro same
  have eight := congrArg (List.take 8) same
  rw [List.take_append_of_le_length (by decide),List.take_append_of_le_length (by decide)] at eight
  exact absurd eight (by decide)

theorem derive_webhook (rest : Text) : _derive_category (text "acapy::webhook::" ++ rest) =
    if WEBHOOK_RE.accepts (text "acapy::webhook::" ++ rest) then .str (text "webhook") else .null := by
  have unrecorded := record_found (text "acapy::webhook::" ++ rest)
  rw [if_neg (fun begins => by
    obtain ⟨after,same⟩ := List.isPrefixOf_iff_prefix.mp begins
    exact prefixes_differ after rest same),Option.map_eq_none_iff] at unrecorded
  rw [derive_category_eq,unrecorded]

theorem derive_other {topic : Text} (unrecorded : ¬ text "acapy::record::" <+: topic)
    (unhooked : ¬ text "acapy::webhook::" <+: topic) : _derive_category topic = .null := by
  rw [_derive_category,if_neg (fun begins => unrecorded (List.isPrefixOf_iff_prefix.mp begins)),if_neg]
  intro hooked
  obtain ⟨rest,same⟩ := List.isPrefixOf_iff_prefix.mp (Bool.and_eq_true_iff.mp hooked).1
  exact unhooked ⟨123 :: rest, same⟩

/-! ### The subscriptions -/

/-- The subscriptions to records and webhooks. -/
def subscriptions : List (Text × Regex Nat) :=
  [(text "^acapy::webhook::(.*)$", webhook_pattern), (text "^acapy::record::([^:]*)::([^:]*)$", record_state_pattern),
    (text "^acapy::record::([^:])?", record_pattern)]

theorem subscriptions_mapped : ∀ subscription ∈ subscriptions, subscription.1 ∈ EVENT_TOPIC_MAP.keys := by
  decide +kernel

theorem subscribed_prefix {subscription : Text × Regex Nat} {topic : Text} (member : subscription ∈ subscriptions)
    (accepted : subscription.2.accepts topic = true) :
    webhook_pattern.accepts topic = true ∨ ∃ rest, topic = text "acapy::record::" ++ rest := by
  simp only [subscriptions,List.mem_cons,List.not_mem_nil,or_false] at member
  rcases member with rfl | rfl | rfl
  · exact .inl accepted
  · exact .inr (accepts_begins accepted)
  · exact .inr (accepts_begins accepted)

/-- The category of a pushed event. -/
def category_of (record : Json) : Except PyError Json := record.getItem "payload" >>= (·.getItem "category")

/-- What is pushed first for an event of the topic has its category, whatever its payload and whoever publishes it. -/
def Carried (topic : Text) : Prop :=
  ∀ subscription ∈ subscriptions, subscription.2.accepts topic = true →
    ∃ category, _derive_category topic = .str category ∧
      ∀ (tools : Toolbox) (profile : Profile) (payload : EventPayload) (s : Pushes),
        Ends exec (fun _ s' => ∀ pushed, s'[s.length]? = some pushed → category_of pushed.2 = .ok (.str category))
          (handle_event tools profile ⟨topic, payload⟩ subscription.1) s

/-- `acapy::record::` and a name, and perhaps a state. -/
def RecordTopic (topic name : Text) : Prop :=
  58 ∉ name ∧ (topic = text "acapy::record::" ++ name ∨ ∃ state, topic = text "acapy::record::" ++ name ++ text "::" ++ state)

/-- The category of a topic is that of the grammar. -/
structure Categorised (topic : Text) : Prop where
  record : ∀ name, RecordTopic topic name → _derive_category topic = .str name
  webhook : webhook_pattern.accepts topic = true → _derive_category topic = .str (text "webhook")
  other : ¬ text "acapy::record::" <+: topic → ¬ text "acapy::webhook::" <+: topic → _derive_category topic = .null
  carried : Carried topic

/-- A part in braces follows the prefix of the webhooks. -/
def Braced (topic : Text) : Prop := ∃ inside after, topic = text "acapy::webhook::\x7b" ++ (inside ++ 125 :: after)

theorem event_push_fields {tools : Toolbox} {profile : Profile} {event : Event} {pattern : Text} {list : String}
    {fields : List (Text × Json)} (sent : event_push tools profile event pattern = .ok (list, fields)) :
    ∃ state payload, fields = event_fields profile event.topic state payload := by
  obtain ⟨payload,_,sent⟩ := bind_ok_iff.mp sent
  obtain ⟨state,_,sent⟩ := bind_ok_iff.mp sent
  obtain ⟨_,_,sent⟩ := bind_ok_iff.mp sent
  obtain ⟨_,_,sent⟩ := bind_ok_iff.mp sent
  obtain ⟨_,_,sent⟩ := bind_ok_iff.mp sent
  cases sent
  exact ⟨state,payload,rfl⟩

theorem category_pushed {topic category : Text} (derived : _derive_category topic = .str category) (tools : Toolbox)
    (profile : Profile) (payload : EventPayload) (pattern : Text) (s : Pushes) :
    Ends exec (fun _ s' => ∀ pushed, s'[s.length]? = some pushed → category_of pushed.2 = .ok (.str category))
      (handle_event tools profile ⟨topic, payload⟩ pattern) s := by
  refine (handle_event_pushes tools profile ⟨topic, payload⟩ pattern s).mono (fun _ s' ends pushed first => ?_)
  obtain ⟨pushes,sends,rfl⟩ := ends
  rw [List.getElem?_append_right (Nat.le_refl _),Nat.sub_self,← List.head?_eq_getElem?] at first
  cases sent : event_push tools profile ⟨topic, payload⟩ pattern with
  | error error =>
    rw [Sends,sent] at sends
    subst sends
    cases first
  | ok pair =>
    rw [Sends,sent] at sends
    obtain ⟨records,_,rfl⟩ := sends
    cases first
    obtain ⟨state,payload,fields⟩ := event_push_fields sent
    rw [fields,← derived]
    rfl

/-- Where the webhook subscription matches, the category is right if there are braces. -/
theorem webhook_braced {topic : Text} (accepted : webhook_pattern.accepts topic = true) :
    _derive_category topic = .str (text "webhook") ↔ Braced topic := by
  obtain ⟨line,rest,clean,ends,rfl⟩ := webhook_pattern_accepts.mp accepted
  rw [derive_webhook]
  cases braced : WEBHOOK_RE.accepts (text "acapy::webhook::" ++ (line ++ rest)) with
  | true =>
    obtain ⟨inside,after,_,same⟩ := webhook_accepts.mp braced
    exact iff_of_true rfl ⟨inside,after,same⟩
  | false =>
    refine iff_of_false (by simp) ?_
    rintro ⟨inside,after,same⟩
    refine Bool.false_ne_true (braced.symm.trans (webhook_accepts.mpr ⟨inside, after, fun newline => ?_, same⟩))
    have left : line ++ rest = 123 :: inside ++ 125 :: after := List.append_cancel_left same
    -- A newline of the topic is its last point, and `}` comes after that of `inside`.
    rcases ends with rfl | rfl
    · rw [List.append_nil] at left
      exact clean (left ▸ List.mem_append_left _ (.tail _ newline))
    · have ended := congrArg List.dropLast left
      rw [List.dropLast_concat,List.dropLast_append_of_ne_nil (List.cons_ne_nil _ _)] at ended
      exact clean (ended ▸ List.mem_append_left _ (.tail _ newline))

/-- The categories of a topic are right exactly when no subscription to webhooks matches it or
    it has a part in braces. -/
theorem categorised_iff (topic : Text) :
    Categorised topic ↔ (webhook_pattern.accepts topic = true → Braced topic) := by
  constructor
  · exact fun categorised accepted => (webhook_braced accepted).mp (categorised.webhook accepted)
  · intro braced
    refine ⟨?_, fun accepted => (webhook_braced accepted).mpr (braced accepted), derive_other, ?_⟩
    · rintro name ⟨clean,rfl | ⟨state,rfl⟩⟩
      · have derived : _derive_category (text "acapy::record::" ++ (name ++ [])) = .str name :=
          derive_record clean (.inl rfl)
        rwa [List.append_nil] at derived
      · rw [List.append_assoc,List.append_assoc]
        exact derive_record clean (.inr rfl)
    · intro subscription member accepted
      rcases subscribed_prefix member accepted with hooked | ⟨rest,rfl⟩
      · have derived := (webhook_braced hooked).mpr (braced hooked)
        exact ⟨_, derived, fun tools profile payload => category_pushed derived tools profile payload _⟩
      · obtain ⟨name,derived⟩ := derive_record_exists rest
        exact ⟨name, derived, fun tools profile payload => category_pushed derived tools profile payload _⟩

theorem ping_uncategorised : webhook_pattern.accepts (text "acapy::webhook::ping") = true ∧
    _derive_category (text "acapy::webhook::ping") = .null ∧ ¬ Categorised (text "acapy::webhook::ping") := by
  have accepted : webhook_pattern.accepts (text "acapy::webhook::ping") = true := by decide +kernel
  have none : _derive_category (text "acapy::webhook::ping") = .null := rfl
  refine ⟨accepted, none, fun categorised => ?_⟩
  have hooked := categorised.webhook accepted
  rw [none] at hooked
  cases hooked

end AcapyRedis.Categories
