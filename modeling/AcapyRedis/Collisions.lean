import AcapyRedis.Forwarding
import AcapyRedis.Sequential

/-!
The lists that the recipients of two messages give. The kids of a message are joined with
commas, and the relay's direct response topic is the inbound topic with `_direct_response`
after it. So two messages share a list exactly if their kids are the same once they are cut
at their commas, and a message for the only kid `direct_response` goes to the direct
response topic (`routed_apart_iff`).
-/
namespace AcapyRedis.Collisions
open AcapyRedis.Programs AcapyRedis.Programs.Program AcapyRedis.Python AcapyRedis.RedisStore AcapyRedis.Utils
open AcapyRedis.Inbound AcapyRedis.Sequential AcapyRedis.Forwarding

/-! ### The topics of a relay -/

def INBOUND_MSG_TOPIC (TOPIC_PREFIX : String) : String := TOPIC_PREFIX ++ "_inbound"
def INBOUND_MSG_DIRECT_RESP (TOPIC_PREFIX : String) : String := TOPIC_PREFIX ++ "_inbound_direct_response"

/-- The direct response topic is the list of a key. -/
theorem direct_resp_list (TOPIC_PREFIX : String) :
    INBOUND_MSG_DIRECT_RESP TOPIC_PREFIX = topic_list (INBOUND_MSG_TOPIC TOPIC_PREFIX) "direct_response" := by
  rw [INBOUND_MSG_DIRECT_RESP,INBOUND_MSG_TOPIC,topic_list,String.append_assoc,String.append_assoc]
  rfl

/-! ### Joined kids -/

/-- What a kid is cut into at its commas. -/
def kid_parts : Json → List Text
  | .str kid => kid.splitOn 44
  | _ => []

/-- What the kids are cut into at their commas; no kid counts as an empty one. -/
def parts : List Json → List Text
  | [] => [[]]
  | [last] => kid_parts last
  | kid :: rest => kid_parts kid ++ parts rest

/-- More than one kid is joined with a comma. -/
theorem join_cons {item joined : Text} {second : Json} {rest : List Json}
    (join : joinText (text ",") (.str item :: second :: rest) = .ok joined) :
    ∃ tail, joinText (text ",") (second :: rest) = .ok tail ∧ joined = item ++ 44 :: tail := by
  obtain ⟨tail,later,same⟩ := bind_ok_iff.mp join
  cases same
  exact ⟨tail, later, List.append_assoc item (text ",") tail⟩

theorem join_parts {kids : List Json} {joined : Text} (join : joinText (text ",") kids = .ok joined) :
    joined.splitOn 44 = parts kids := by
  induction kids generalizing joined with
  | nil =>
    cases join
    rfl
  | cons kid rest ih =>
    cases rest with
    | nil =>
      cases kid <;> cases join
      rfl
    | cons second rest =>
      cases kid with
      | str item =>
        obtain ⟨tail,later,rfl⟩ := join_cons join
        rw [parts,kid_parts,← ih later]
        · exact List.splitOn_append_cons_self item tail
        · exact List.cons_ne_nil _ _
      | _ => cases join

/-- Cutting at the commas loses nothing. -/
theorem splitOn_inj {a b : Text} (same : a.splitOn 44 = b.splitOn 44) : a = b := by
  have joined := congrArg [44].intercalate same
  rwa [List.intercalate_splitOn,List.intercalate_splitOn] at joined

/-- A name without commas is only joined from itself. -/
theorem join_single {kids : List Json} {name : Text} (some_point : name ≠ []) (plain : 44 ∉ name) :
    joinText (text ",") kids = .ok name ↔ kids = [.str name] := by
  constructor
  · intro join
    cases kids with
    | nil =>
      cases join
      exact absurd rfl some_point
    | cons kid rest =>
      cases rest with
      | nil =>
        cases kid <;> cases join
        rfl
      | cons second rest =>
        cases kid with
        | str item =>
          obtain ⟨tail,_,rfl⟩ := join_cons join
          exact absurd (List.mem_append_right item List.mem_cons_self) plain
        | _ => cases join
  · rintro rfl
    rfl

/-! ### Chosen lists -/

/-- The kids of a message whose key can be written. -/
theorem key_joined {json_loads : Bytes ⊕ Text → Except PyError Json} {payload : Bytes} {kids : List Json} {k : RecipKey}
    (accepted : _recipients_from_packed_message json_loads payload = .ok kids)
    (key : recip_key_of json_loads payload = .ok k) : joinText (text ",") kids = .ok (text k) := by
  rw [recip_key_of,accepted,ok_bind,bind_ok_iff] at key
  obtain ⟨joined,join,encoded⟩ := key
  rw [encode_text encoded]
  exact join

/-- A call that returns has a key and chooses its list. -/
theorem returned_key {json_loads : Bytes ⊕ Text → Except PyError Json} {payload : Bytes} {topic list : String}
    {message : Entry} {patience : Nat} {now : Int} {s s' : Store} {log : List (Event Command Command.Reply)}
    (run : Runs exec (process_payload_recip_key json_loads patience now payload topic) s log (.ok (list, message)) s') :
    ∃ k, recip_key_of json_loads payload = .ok k ∧ list = topic_list topic k := by
  cases key : recip_key_of json_loads payload with
  | error error =>
    rw [process_payload_recip_key,key] at run
    cases run
  | ok k =>
    obtain ⟨same,_⟩ := process_payload_called key run
    cases same
    exact ⟨k,rfl,rfl⟩

/-- The program begins with a pop from the list. -/
def Polls (list : String) (p : Redis Unit) : Prop := ∃ next, p = .command (.blpop list) next

theorem poll_key_polls (self : RedisInboundTransport) (k : RecipKey) :
    Polls (topic_list self.inbound_topic k) (self.poll_key k) := ⟨_,rfl⟩

/-- The lists of two messages are the same exactly if their kids are, and neither is the direct
    response topic. -/
structure Apart (TOPIC_PREFIX : String) (kids kids' : List Json) (list list' : String) : Prop where
  same : list = list' ↔ kids = kids'
  direct : list ≠ INBOUND_MSG_DIRECT_RESP TOPIC_PREFIX
  direct' : list' ≠ INBOUND_MSG_DIRECT_RESP TOPIC_PREFIX

/-- The kids are the same or differ still when they are cut at their commas, and are not the only
    kid `direct_response`. -/
structure Distinct (kids kids' : List Json) : Prop where
  parts : parts kids = parts kids' → kids = kids'
  direct : kids ≠ [.str (text "direct_response")]
  direct' : kids' ≠ [.str (text "direct_response")]

theorem direct_iff {TOPIC_PREFIX : String} {kids : List Json} {k : RecipKey}
    (join : joinText (text ",") kids = .ok (text k)) :
    topic_list (INBOUND_MSG_TOPIC TOPIC_PREFIX) k = INBOUND_MSG_DIRECT_RESP TOPIC_PREFIX ↔
      kids = [.str (text "direct_response")] := by
  rw [direct_resp_list,topic_list_inj,← join_single (by decide) (by decide),join]
  exact ⟨fun same => by rw [same], fun same => text_inj (Except.ok.inj same)⟩

/-- The lists chosen for two messages, which the owners of their keys poll, are apart exactly if
    the kids are distinct without their commas and none is `direct_response` alone. -/
theorem routed_apart_iff {json_loads : Bytes ⊕ Text → Except PyError Json} {TOPIC_PREFIX : String}
    {payload payload' : Bytes} {kids kids' : List Json} {list list' : String} {message message' : Entry}
    {patience patience' : Nat} {now now' : Int} {s s' t t' : Store} {log log' : List (Event Command Command.Reply)}
    (accepted : _recipients_from_packed_message json_loads payload = .ok kids)
    (accepted' : _recipients_from_packed_message json_loads payload' = .ok kids')
    (run : Runs exec (process_payload_recip_key json_loads patience now payload (INBOUND_MSG_TOPIC TOPIC_PREFIX)) s log
      (.ok (list, message)) s')
    (run' : Runs exec (process_payload_recip_key json_loads patience' now' payload' (INBOUND_MSG_TOPIC TOPIC_PREFIX)) t log'
      (.ok (list', message')) t') :
    (Apart TOPIC_PREFIX kids kids' list list' ↔ Distinct kids kids') ∧
    ∃ k, recip_key_of json_loads payload = .ok k ∧
      ∀ self : RedisInboundTransport, self.inbound_topic = INBOUND_MSG_TOPIC TOPIC_PREFIX →
        Polls list (self.poll_key k) := by
  obtain ⟨k,key,rfl⟩ := returned_key run
  obtain ⟨l,key',rfl⟩ := returned_key run'
  have join := key_joined accepted key
  have join' := key_joined accepted' key'
  have lists : topic_list (INBOUND_MSG_TOPIC TOPIC_PREFIX) k = topic_list (INBOUND_MSG_TOPIC TOPIC_PREFIX) l ↔
      parts kids = parts kids' := by
    rw [topic_list_inj,← join_parts join,← join_parts join']
    exact ⟨fun same => by rw [same], fun same => text_inj (splitOn_inj same)⟩
  refine ⟨⟨?_, ?_⟩, k, key, fun self under => under ▸ poll_key_polls self k⟩
  · rintro ⟨same,direct,direct'⟩
    exact ⟨fun alike => same.mp (lists.mpr alike), mt (direct_iff join).mpr direct, mt (direct_iff join').mpr direct'⟩
  · rintro ⟨apart,direct,direct'⟩
    refine ⟨⟨fun alike => apart (lists.mp alike), ?_⟩, mt (direct_iff join).mp direct, mt (direct_iff join').mp direct'⟩
    rintro rfl
    exact lists.mpr rfl

/-- Kids without commas, at least one. -/
def Plain (kids : List Json) : Prop := kids ≠ [] ∧ ∀ kid ∈ kids, ∃ value : Text, kid = .str value ∧ 44 ∉ value

theorem plain_parts {kids : List Json} (plain : Plain kids) : (parts kids).map .str = kids := by
  obtain ⟨some_kid,plain⟩ := plain
  induction kids with
  | nil => exact absurd rfl some_kid
  | cons kid rest ih =>
    obtain ⟨value,rfl,absent⟩ := plain kid List.mem_cons_self
    cases rest with
    | nil => rw [parts,kid_parts,List.splitOn_eq_singleton absent,List.map_singleton]
    | cons second rest =>
      have later := ih (List.cons_ne_nil _ _) (fun other member => plain other (List.mem_cons_of_mem _ member))
      rw [parts,kid_parts,List.splitOn_eq_singleton absent,List.map_append,later]
      · rfl
      · exact List.cons_ne_nil _ _

/-- The lists of kids without commas are apart unless a kid is called `direct_response`. -/
theorem plain_distinct {kids kids' : List Json} (plain : Plain kids) (plain' : Plain kids')
    (direct : kids ≠ [.str (text "direct_response")]) (direct' : kids' ≠ [.str (text "direct_response")]) :
    Distinct kids kids' := by
  refine ⟨fun same => ?_, direct, direct'⟩
  rw [← plain_parts plain,same,plain_parts plain']

/-! ### Shared lists -/

theorem called_returned {json_loads : Bytes ⊕ Text → Except PyError Json} {payload : Bytes} {topic : String} {s : Store}
    {result : String × Entry}
    (ended : ((process_payload_recip_key json_loads 1 0 payload topic).leaves exec s).2 = some (.ok result)) :
    ∃ log s', Runs exec (process_payload_recip_key json_loads 1 0 payload topic) s log (.ok result) s' :=
  ⟨_, _, leaves_log ended⟩

/-- Two messages with one kid each. -/
theorem routed_apart_two : Apart "acapy" [.str (text "k")] [.str (text "l")] "acapy_inbound_k" "acapy_inbound_l" := by
  have ended : ((process_payload_recip_key loads_two 1 0 (packed protected_k) (INBOUND_MSG_TOPIC "acapy")).leaves exec
      (registered .empty uid_a)).2 = some (.ok ("acapy_inbound_k", .inbound (packed protected_k) none)) := rfl
  have ended' : ((process_payload_recip_key loads_two 1 0 (packed protected_l) (INBOUND_MSG_TOPIC "acapy")).leaves exec
      (registered .empty uid_a)).2 = some (.ok ("acapy_inbound_l", .inbound (packed protected_l) none)) := rfl
  obtain ⟨_,_,run⟩ := called_returned ended
  obtain ⟨_,_,run'⟩ := called_returned ended'
  have apart : [Json.str (text "k")] ≠ [.str (text "direct_response")] := by simp [text]
  have apart' : [Json.str (text "l")] ≠ [.str (text "direct_response")] := by simp [text]
  have plain : ∀ name : Text, 44 ∉ name → Plain [.str name] := fun name absent =>
    ⟨List.cons_ne_nil _ _, fun kid member => ⟨name, List.mem_singleton.mp member, absent⟩⟩
  exact (routed_apart_iff rfl rfl run run').1.mpr (plain_distinct (plain _ (by decide)) (plain _ (by decide)) apart apart')

def protected_comma : String := "eyJyZWNpcGllbnRzIjpbeyJoZWFkZXIiOnsia2lkIjoiYSxiIn19XX0="
def protected_pair : String := "eyJyZWNpcGllbnRzIjpbeyJoZWFkZXIiOnsia2lkIjoiYSJ9fSx7ImhlYWRlciI6eyJraWQiOiJiIn19XX0="
def protected_direct : String := "eyJyZWNpcGllbnRzIjpbeyJoZWFkZXIiOnsia2lkIjoiZGlyZWN0X3Jlc3BvbnNlIn19XX0="

/-- The header of the two recipients `a` and `b`. -/
def recipients_pair : Text :=
  text "\x7b\"recipients\":[\x7b\"header\":\x7b\"kid\":\"a\"\x7d\x7d,\x7b\"header\":\x7b\"kid\":\"b\"\x7d\x7d]\x7d"

def pair_json : Json :=
  .obj [(text "recipients", .arr [.obj [(text "header", .obj [(text "kid", .str (text "a"))])],
    .obj [(text "header", .obj [(text "kid", .str (text "b"))])]])]

/-- `json.loads` on three messages and their headers. -/
def loads_three : Bytes ⊕ Text → Except PyError Json
  | .inl message =>
    if message = packed protected_comma then .ok (.obj [(text "protected", .str (text protected_comma))])
    else if message = packed protected_pair then .ok (.obj [(text "protected", .str (text protected_pair))])
    else if message = packed protected_direct then .ok (.obj [(text "protected", .str (text protected_direct))])
    else .error .JSONDecodeError
  | .inr header =>
    if header = recipients_of "a,b" then .ok (recipients_json "a,b")
    else if header = recipients_pair then .ok pair_json
    else if header = recipients_of "direct_response" then .ok (recipients_json "direct_response")
    else .error .JSONDecodeError

/-- The store that a call for a message leaves. -/
def routed (encoded : String) : Store × Option (Except PyError (String × Entry)) :=
  (process_payload_recip_key loads_three 1 0 (packed encoded) (INBOUND_MSG_TOPIC "acapy")).leaves exec
    (registered .empty uid_a)

/-- The kid `a,b` shares the list of the kids `a` and `b`; the kid `direct_response` gives the
    direct response topic, and the instance that gets its key polls it. -/
theorem lists_shared :
    (_recipients_from_packed_message loads_three (packed protected_comma) = .ok [.str (text "a,b")] ∧
      _recipients_from_packed_message loads_three (packed protected_pair) = .ok [.str (text "a"), .str (text "b")] ∧
      ∃ list log log' message message', Runs exec (process_payload_recip_key loads_three 1 0 (packed protected_comma)
          (INBOUND_MSG_TOPIC "acapy")) (registered .empty uid_a) log (.ok (list, message)) (routed protected_comma).1 ∧
        Runs exec (process_payload_recip_key loads_three 1 0 (packed protected_pair) (INBOUND_MSG_TOPIC "acapy"))
          (registered .empty uid_a) log' (.ok (list, message')) (routed protected_pair).1 ∧
        ¬ Apart "acapy" [.str (text "a,b")] [.str (text "a"), .str (text "b")] list list) ∧
    _recipients_from_packed_message loads_three (packed protected_direct) = .ok [.str (text "direct_response")] ∧
    ∃ list log message, Runs exec (process_payload_recip_key loads_three 1 0 (packed protected_direct)
        (INBOUND_MSG_TOPIC "acapy")) (registered .empty uid_a) log (.ok (list, message)) (routed protected_direct).1 ∧
      list = INBOUND_MSG_DIRECT_RESP "acapy" ∧ (routed protected_direct).1.recip_keys uid_a = ["direct_response"] ∧
      ∀ self : RedisInboundTransport, self.inbound_topic = INBOUND_MSG_TOPIC "acapy" →
        Polls (INBOUND_MSG_DIRECT_RESP "acapy") (self.poll_key "direct_response") := by
  have comma : (routed protected_comma).2 = some (.ok ("acapy_inbound_a,b", .inbound (packed protected_comma) none)) := rfl
  have pair : (routed protected_pair).2 = some (.ok ("acapy_inbound_a,b", .inbound (packed protected_pair) none)) := rfl
  have direct : (routed protected_direct).2 =
      some (.ok ("acapy_inbound_direct_response", .inbound (packed protected_direct) none)) := rfl
  refine ⟨⟨rfl, rfl, _, _, _, _, _, leaves_log comma, leaves_log pair, fun apart => ?_⟩, rfl, _, _, _, leaves_log direct,
    rfl, rfl, fun self under => ?_⟩
  · exact absurd (congrArg List.length (apart.same.mp rfl)) (by decide)
  · rw [direct_resp_list,← under]
    exact poll_key_polls self "direct_response"

end AcapyRedis.Collisions
