import AcapyRedis.Relays
import Mathlib.Data.List.Basic

/-!
The loop over the direct responses, `process_direct_responses` of `redis_relay/relay/relay.py`,
on what `BLPOP` answers it. It skips what is no object with both fields, but it decodes before
it looks, and it stores under every key that a `dict` can have: the responses are taken
exactly as they are meant to if every message is read and names its transaction by a
string (`accepts_exactly_iff`).
-/
namespace AcapyRedis.Listening
open AcapyRedis.Python AcapyRedis.Relays

/-! ### Maps that entries are written to -/

section
variable {K V : Type} [DecidableEq K]

/-- The map after the entries were written to it one after the other. -/
def written (map : K → Option V) (entries : List (K × V)) : K → Option V :=
  entries.foldl (fun map entry => Function.update map entry.1 (some entry.2)) map

theorem written_kept {key : K} (entries : List (K × V)) (map : K → Option V) (absent : ∀ entry ∈ entries, entry.1 ≠ key) :
    written map entries key = map key := by
  induction entries generalizing map with
  | nil => rfl
  | cons entry later ih =>
    have first : Function.update map entry.1 (some entry.2) key = map key :=
      Function.update_of_ne (absent entry (.head _)).symm _ _
    exact (ih _ (fun other member => absent other (.tail _ member))).trans first

/-- The last entry of a key is its value. -/
theorem written_last {key : K} (value : V) (before after : List (K × V)) (map : K → Option V)
    (absent : ∀ entry ∈ after, entry.1 ≠ key) : written map (before ++ (key, value) :: after) key = some value := by
  rw [written,List.foldl_append,List.foldl_cons]
  exact (written_kept after _ absent).trans (Function.update_self ..)

end

/-! ### The loop -/

/-- `direct_response_txn_request_map`: what it has for strings, and what was stored under other
    keys, newest first. -/
structure ResponseMap where
  strings : Text → Option Entry
  others : List (Json × Entry)

/-- `map[key] = entry`: a list or a `dict` cannot be a key. -/
def ResponseMap.setItem (map : ResponseMap) (entry : Entry) : Json → Except PyError ResponseMap
  | .str txn_id => .ok { map with strings := Function.update map.strings txn_id (some entry) }
  | .arr _ => .error .TypeError
  | .obj _ => .error .TypeError
  | key => .ok { map with others := (key, entry) :: map.others }

/-- `key in value` of a `dict`. -/
def has (key : String) (fields : List (Text × Json)) : Bool := fields.any (fun field => field.1 = text key)

/-- What `BLPOP` answers, a Redis error included. -/
inductive Answer
  | raises
  | nothing
  | popped (msg : Bytes)

section
variable (json_loads : Bytes ⊕ Text → Except PyError Json)

/-- What the loop does with a message. -/
def process_direct_response (map : ResponseMap) (msg : Bytes) : Except PyError ResponseMap := do
  match ← json_loads (.inr (← msg.decode)) with
  | .obj fields =>
    if !has "response_data" fields then return map
    else if !has "txn_id" fields then return map
    else do
      let txn_id ← (Json.obj fields).getItem "txn_id"
      let response_data ← (Json.obj fields).getItem "response_data"
      map.setItem (.response_data response_data) txn_id
  | _ => return map

/-- The loop until it is no longer running: the map, and the error that has ended it. -/
def process_direct_responses : List Answer → ResponseMap → ResponseMap × Option PyError
  | [], map => (map, none)
  | .raises :: later, map => process_direct_responses later map
  | .nothing :: later, map => process_direct_responses later map
  | .popped msg :: later, map =>
    match process_direct_response json_loads map msg with
    | .ok map => process_direct_responses later map
    | .error error => (map, some error)

/-- What was popped. -/
def messages : List Answer → List Bytes
  | [] => []
  | .popped msg :: later => msg :: messages later
  | _ :: later => messages later

/-- A message is UTF-8 and JSON of an object with both fields, the transaction being a string. -/
def Response (msg : Bytes) (txn_id : Text) (response_data : Json) : Prop :=
  ∃ content fields, msg.decode = .ok content ∧ json_loads (.inr content) = .ok (.obj fields) ∧
    (Json.obj fields).getItem "txn_id" = .ok (.str txn_id) ∧ (Json.obj fields).getItem "response_data" = .ok response_data

/-- The loop takes exactly the responses. -/
structure AcceptsExactly (initial : Text → Option Entry) (answers : List Answer) : Prop where
  goes_on : (process_direct_responses json_loads answers ⟨initial, []⟩).2 = none
  only_strings : (process_direct_responses json_loads answers ⟨initial, []⟩).1.others = []
  stored : ∀ before msg after txn_id response_data, messages answers = before ++ msg :: after →
    Response json_loads msg txn_id response_data →
    (∀ later ∈ after, ∀ other, ¬ Response json_loads later txn_id other) →
    (process_direct_responses json_loads answers ⟨initial, []⟩).1.strings txn_id = some (.response_data response_data)
  kept : ∀ txn_id, (∀ msg ∈ messages answers, ∀ response_data, ¬ Response json_loads msg txn_id response_data) →
    (process_direct_responses json_loads answers ⟨initial, []⟩).1.strings txn_id = initial txn_id

/-- A message is UTF-8 and JSON, and if it has both fields then the transaction is a string. -/
def Readable (msg : Bytes) : Prop :=
  ∃ content value, msg.decode = .ok content ∧ json_loads (.inr content) = .ok value ∧
    ∀ txn_id response_data, value.getItem "txn_id" = .ok txn_id → value.getItem "response_data" = .ok response_data →
      ∃ name, txn_id = .str name

/-! ### One message -/

/-- What `json.loads` makes of a message. -/
def element (msg : Bytes) : Except PyError Json := msg.decode >>= fun content => json_loads (.inr content)

end

theorem has_iff {key : String} {fields : List (Text × Json)} :
    has key fields = true ↔ ∃ value, (Json.obj fields).getItem key = .ok value := by
  rw [has,Json.getItem]
  cases found : fields.find? (fun field => field.1 = text key) with
  | none =>
    refine iff_of_false (fun any => ?_) (fun ⟨_,got⟩ => nomatch got)
    obtain ⟨field,member,same⟩ := List.any_eq_true.mp any
    exact List.find?_eq_none.mp found field member same
  | some field =>
    have same : field.1 = text key := by simpa using List.find?_some found
    exact iff_of_true (List.any_eq_true.mpr ⟨field, List.mem_of_find?_eq_some found, decide_eq_true same⟩) ⟨field.2, rfl⟩

section
variable {json_loads : Bytes ⊕ Text → Except PyError Json} {map : ResponseMap} {msg : Bytes}

theorem element_iff {value : Json} :
    element json_loads msg = .ok value ↔ ∃ content, msg.decode = .ok content ∧ json_loads (.inr content) = .ok value :=
  bind_ok_iff

theorem process_response {txn_id : Text} {response_data : Json} (response : Response json_loads msg txn_id response_data) :
    process_direct_response json_loads map msg =
      .ok { map with strings := Function.update map.strings txn_id (some (.response_data response_data)) } := by
  obtain ⟨content,fields,decoded,loaded,named,data⟩ := response
  rw [process_direct_response,decoded,ok_bind,loaded,ok_bind]
  simp only [has_iff.mpr ⟨_,named⟩,has_iff.mpr ⟨_,data⟩,named,data]
  rfl

/-- A message without a response that the loop reads is skipped. -/
theorem process_readable (readable : Readable json_loads msg)
    (none : ∀ txn_id response_data, ¬ Response json_loads msg txn_id response_data) :
    process_direct_response json_loads map msg = .ok map := by
  obtain ⟨content,value,decoded,loaded,named⟩ := readable
  rw [process_direct_response,decoded,ok_bind,loaded,ok_bind]
  cases value with
  | obj fields =>
    by_cases data : has "response_data" fields = true
    · by_cases txn : has "txn_id" fields = true
      · obtain ⟨txn_id,txn⟩ := has_iff.mp txn
        obtain ⟨response_data,data⟩ := has_iff.mp data
        obtain ⟨name,rfl⟩ := named txn_id response_data txn data
        exact absurd ⟨content, fields, decoded, loaded, txn, data⟩ (none name response_data)
      · simp [data,txn,pure_ok]
    · simp [data,pure_ok]
  | _ => rfl

/-- A message that the loop does not read ends it or leaves an entry that no call looks for. -/
theorem process_unreadable (unreadable : ¬ Readable json_loads msg) (map : ResponseMap) :
    (∃ error, process_direct_response json_loads map msg = .error error) ∨
      ∃ entry, process_direct_response json_loads map msg = .ok { map with others := entry :: map.others } := by
  rw [process_direct_response]
  cases decoded : msg.decode with
  | error error => exact .inl ⟨error,rfl⟩
  | ok content =>
    rw [ok_bind]
    cases loaded : json_loads (.inr content) with
    | error error => exact .inl ⟨error,rfl⟩
    | ok value =>
      -- A value is not readable only if it is an object whose transaction is no string.
      by_cases key : ∃ txn_id response_data, value.getItem "txn_id" = .ok txn_id ∧
          value.getItem "response_data" = .ok response_data ∧ ∀ name, txn_id ≠ .str name
      · obtain ⟨txn_id,response_data,txn,data,other⟩ := key
        cases value with
        | obj fields =>
          simp only [ok_bind,has_iff.mpr ⟨_,txn⟩,has_iff.mpr ⟨_,data⟩,txn,data]
          cases txn_id with
          | str name => exact absurd rfl (other name)
          | arr items => exact .inl ⟨_,rfl⟩
          | obj items => exact .inl ⟨_,rfl⟩
          | _ => exact .inr ⟨_,rfl⟩
        | _ => cases txn
      · refine absurd ⟨content, value, decoded, loaded, fun txn_id response_data txn data => ?_⟩ unreadable
        by_contra none
        exact key ⟨txn_id, response_data, txn, data, fun name same => none ⟨name,same⟩⟩

/-! ### Whole runs -/

section
variable (json_loads : Bytes ⊕ Text → Except PyError Json)

/-- The response of a message, as the loop of the relays takes it. -/
def response_of (msg : Bytes) : Option (Text × Entry) :=
  match direct_response (element json_loads msg) with
  | .ok (some (.str txn_id, response_data)) => some (txn_id, .response_data response_data)
  | _ => none

/-- The entries of the responses among the messages. -/
def entries (answers : List Answer) : List (Text × Entry) := (messages answers).filterMap (response_of json_loads)

end

theorem direct_response_iff {element : Except PyError Json} {txn_id : Text} {response_data : Json} :
    direct_response element = .ok (some (.str txn_id, response_data)) ↔
      ∃ fields, element = .ok (.obj fields) ∧ (Json.obj fields).getItem "txn_id" = .ok (.str txn_id) ∧
        (Json.obj fields).getItem "response_data" = .ok response_data := by
  constructor
  · intro taken
    unfold direct_response at taken
    split at taken
    · cases taken
    · next fields =>
      split at taken
      · cases taken
      · cases taken
      · next data txn =>
        cases taken
        exact ⟨fields, rfl, txn, data⟩
      · cases taken
    · cases taken
  · rintro ⟨fields,rfl,txn,data⟩
    simp only [direct_response,txn,data]

theorem response_of_iff {txn_id : Text} {entry : Entry} : response_of json_loads msg = some (txn_id, entry) ↔
    ∃ response_data, entry = .response_data response_data ∧ Response json_loads msg txn_id response_data := by
  have taken : ∀ response_data, Response json_loads msg txn_id response_data ↔
      direct_response (element json_loads msg) = .ok (some (.str txn_id, response_data)) := by
    intro response_data
    rw [direct_response_iff]
    constructor
    · rintro ⟨content,fields,decoded,loaded,both⟩
      exact ⟨fields, element_iff.mpr ⟨content,decoded,loaded⟩, both⟩
    · rintro ⟨fields,read,both⟩
      obtain ⟨content,decoded,loaded⟩ := element_iff.mp read
      exact ⟨content, fields, decoded, loaded, both⟩
  simp only [taken,response_of]
  split
  · next txn data same =>
    rw [same]
    simp [and_comm,eq_comm]
  · next other =>
    refine iff_of_false (fun found => nomatch found) ?_
    rintro ⟨response_data,_,same⟩
    exact other txn_id response_data same

theorem entry_response {entry : Text × Entry} {msgs : List Bytes} (member : entry ∈ msgs.filterMap (response_of json_loads)) :
    ∃ msg ∈ msgs, ∃ response_data, Response json_loads msg entry.1 response_data := by
  obtain ⟨msg,place,found⟩ := List.mem_filterMap.mp member
  obtain ⟨response_data,_,holds⟩ := response_of_iff.mp found
  exact ⟨msg,place,response_data,holds⟩

/-- What the loop has stored under keys that are no strings stays, and a message that is not
    readable adds to it. -/
theorem others_step {map' : ResponseMap} (taken : process_direct_response json_loads map msg = .ok map') :
    map.others.length ≤ map'.others.length ∧
      (¬ Readable json_loads msg → map.others.length < map'.others.length) := by
  by_cases readable : Readable json_loads msg
  · by_cases response : ∃ txn_id response_data, Response json_loads msg txn_id response_data
    · obtain ⟨txn_id,response_data,response⟩ := response
      rw [process_response response] at taken
      cases taken
      exact ⟨Nat.le_refl _, absurd readable⟩
    · rw [process_readable readable (fun txn_id response_data here => response ⟨txn_id,response_data,here⟩)] at taken
      cases taken
      exact ⟨Nat.le_refl _, absurd readable⟩
  · rcases process_unreadable readable map with ⟨error,raised⟩ | ⟨entry,left⟩
    · rw [raised] at taken
      cases taken
    · rw [left] at taken
      cases taken
      exact ⟨Nat.le_succ _, fun _ => Nat.lt_succ_self _⟩

theorem others_kept (answers : List Answer) (map : ResponseMap) :
    map.others.length ≤ (process_direct_responses json_loads answers map).1.others.length := by
  induction answers generalizing map with
  | nil => exact Nat.le_refl _
  | cons answer later ih =>
    cases answer with
    | raises => exact ih map
    | nothing => exact ih map
    | popped msg =>
      rw [process_direct_responses]
      cases taken : process_direct_response json_loads map msg with
      | error error => exact Nat.le_refl _
      | ok map' => exact (others_step taken).1.trans (ih map')

/-- A run over readable messages writes the entries of the responses. -/
theorem run_readable {answers : List Answer} (readable : ∀ msg ∈ messages answers, Readable json_loads msg)
    (map : ResponseMap) : process_direct_responses json_loads answers map =
      ({ map with strings := written map.strings (entries json_loads answers) }, none) := by
  induction answers generalizing map with
  | nil => rfl
  | cons answer later ih =>
    cases answer with
    | raises => exact ih readable map
    | nothing => exact ih readable map
    | popped msg =>
      have rest := ih (fun other member => readable other (.tail _ member))
      rw [process_direct_responses,entries,messages]
      cases response : response_of json_loads msg with
      | some found =>
        obtain ⟨response_data,entry,holds⟩ := response_of_iff.mp response
        rw [process_response holds,List.filterMap_cons_some response,written,List.foldl_cons,entry]
        exact rest _
      | none =>
        have none : ∀ txn_id response_data, ¬ Response json_loads msg txn_id response_data := by
          intro txn_id response_data holds
          rw [response_of_iff.mpr ⟨response_data,rfl,holds⟩] at response
          cases response
        rw [process_readable (readable msg (.head _)) none,List.filterMap_cons_none response]
        exact rest map

/-- A run over a message that is not readable raises, or leaves an entry under another key. -/
theorem run_unreadable {answers : List Answer} (member : msg ∈ messages answers) (unreadable : ¬ Readable json_loads msg)
    (map : ResponseMap) : (process_direct_responses json_loads answers map).2 ≠ none ∨
      map.others.length < (process_direct_responses json_loads answers map).1.others.length := by
  induction answers generalizing map with
  | nil => cases member
  | cons answer later ih =>
    cases answer with
    | raises => exact ih member map
    | nothing => exact ih member map
    | popped first =>
      rw [process_direct_responses]
      cases taken : process_direct_response json_loads map first with
      | error error => exact .inl (Option.some_ne_none error)
      | ok map' =>
        rcases List.mem_cons.mp member with rfl | member
        · exact .inr (((others_step taken).2 unreadable).trans_le (others_kept later map'))
        · rcases ih member map' with raised | left
          · exact .inl raised
          · exact .inr ((others_step taken).1.trans_lt left)

/-- The loop takes exactly the responses if and only if every message is readable. -/
theorem accepts_exactly_iff (json_loads : Bytes ⊕ Text → Except PyError Json) (initial : Text → Option Entry)
    (answers : List Answer) :
    AcceptsExactly json_loads initial answers ↔ ∀ msg ∈ messages answers, Readable json_loads msg := by
  constructor
  · intro accepts msg member
    by_contra unreadable
    rcases run_unreadable member unreadable ⟨initial, []⟩ with raised | left
    · exact raised accepts.goes_on
    · rw [accepts.only_strings] at left
      exact absurd left (Nat.lt_irrefl _)
  · intro readable
    have run := run_readable readable ⟨initial, []⟩
    refine ⟨congrArg Prod.snd run, congrArg (fun ended => ended.1.others) run, ?_, ?_⟩
    · intro before msg after txn_id response_data popped response last
      have here : response_of json_loads msg = some (txn_id, .response_data response_data) :=
        response_of_iff.mpr ⟨response_data,rfl,response⟩
      rw [run,entries,popped,List.filterMap_append,List.filterMap_cons_some here]
      refine written_last _ _ _ _ (fun entry member same => ?_)
      obtain ⟨later,place,other,holds⟩ := entry_response member
      exact last later place other (same ▸ holds)
    · intro txn_id none
      rw [run]
      refine written_kept _ _ (fun entry member same => ?_)
      obtain ⟨msg,place,other,holds⟩ := entry_response member
      exact none msg place other (same ▸ holds)

/-- A byte string that is no UTF-8 ends the loop. -/
theorem undecodable_ends :
    (process_direct_responses (fun _ => .error .JSONDecodeError) [.popped [255]] ⟨fun _ => none, []⟩).2 =
        some .UnicodeDecodeError ∧
      ¬ AcceptsExactly (fun _ => .error .JSONDecodeError) (fun _ => none) [.popped [255]] := by
  have raised : (process_direct_responses (fun _ => .error .JSONDecodeError) [.popped [255]] ⟨fun _ => none, []⟩).2 =
      some .UnicodeDecodeError := rfl
  refine ⟨raised, fun accepts => ?_⟩
  have goes_on := accepts.goes_on
  rw [raised] at goes_on
  cases goes_on

/-! ### The loops of the relays -/

/-- A relay with what its loop has made of the map, or has ended with. -/
def taking (relay : Relay) : Except PyError ResponseMap → Relay
  | .ok map => { relay with direct_response_txn_request_map := map.strings, others := map.others }
  | .error _ => { relay with listening := false }

/-- A relay takes an element as its loop takes the message. -/
theorem receive_process (relay : Relay) (msg : Bytes) :
    relay.receive (element json_loads msg) =
      taking relay (process_direct_response json_loads ⟨relay.direct_response_txn_request_map, relay.others⟩ msg) := by
  rw [Relay.receive,process_direct_response,element]
  cases msg.decode with
  | error error => rfl
  | ok content =>
    rw [ok_bind,ok_bind]
    cases json_loads (.inr content) with
    | error error => rfl
    | ok value =>
      cases value with
      | obj fields =>
        simp only [direct_response,ok_bind]
        by_cases data : has "response_data" fields = true
        · by_cases txn : has "txn_id" fields = true
          · obtain ⟨txn_id,txn'⟩ := has_iff.mp txn
            obtain ⟨response_data,data'⟩ := has_iff.mp data
            rw [data',txn',data,txn]
            cases txn_id <;> rfl
          · cases missing : (Json.obj fields).getItem "txn_id" with
            | ok txn_id => exact absurd (has_iff.mpr ⟨txn_id,missing⟩) txn
            | error error => cases (Json.obj fields).getItem "response_data" <;> simp [taking,data,txn,pure_ok]
        · cases missing : (Json.obj fields).getItem "response_data" with
          | ok response_data => exact absurd (has_iff.mpr ⟨response_data,missing⟩) data
          | error error => simp [taking,data,pure_ok]
      | _ => rfl

end
end AcapyRedis.Listening
