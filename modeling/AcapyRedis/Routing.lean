import AcapyRedis.Answers

/-!
Which relay gets a response. All handlers of one `main` pop from the same topic, so the
loop of any of them can take a response that another one waits for. Only a single handler,
or handlers that never ask for a direct response, always get their own.
-/
namespace AcapyRedis.Routing
open AcapyRedis.Python AcapyRedis.Relays AcapyRedis.Answers

/-- The response popped last is in the map of the relay whose call has created its transaction. -/
def Stored (s : Service) : Prop :=
  ∀ r txn_id data rest, s.log = .popped r txn_id data :: rest → ∀ creator, .began creator txn_id ∈ rest →
    ∃ relay, s.relays[creator]? = some relay ∧
      relay.direct_response_txn_request_map txn_id = some (.response_data data)

/-- Only http handlers begin transactions, and what is popped is popped by a handler. -/
structure Placed (types : List TransportType) (s : Service) : Prop where
  kinds : s.relays.map (·.transport_type) = types
  began : ∀ r txn_id, .began r txn_id ∈ s.log → types[r]? = some .http
  popped : ∀ r txn_id data, .popped r txn_id data ∈ s.log → r < types.length

variable {types : List TransportType} {s s' : Service} {a : Action} {trace : List (Service × Action)}

theorem started_placed : Placed types (started types) := by
  refine ⟨?_, fun _ _ member => absurd member List.not_mem_nil, fun _ _ _ member => absurd member List.not_mem_nil⟩
  rw [started,List.map_map]
  exact List.map_id types

theorem set_kinds (kinds : s.relays.map (·.transport_type) = types) {r : Nat} {relay relay' : Relay}
    (here : s.relays[r]? = some relay) (same : relay'.transport_type = relay.transport_type) :
    (s.relays.set r relay').map (·.transport_type) = types := by
  rw [List.map_set,same,← kinds]
  apply List.ext_getElem?
  intro i
  by_cases at_r : r = i
  · subst at_r
    obtain ⟨inside,rfl⟩ := List.getElem?_eq_some_iff.mp here
    simp [inside]
  · rw [List.getElem?_set_ne at_r]

theorem receive_kind (relay : Relay) (element : Except PyError Json) :
    (relay.receive element).transport_type = relay.transport_type := by
  unfold Relay.receive
  split
  · next key _ _ => cases key <;> rfl
  · rfl
  · rfl

theorem received_popped {r : Nat} {element : Except PyError Json} {event : Event} (member : event ∈ received r element) :
    ∃ txn_id data, event = .popped r txn_id data := by
  unfold received at member
  split at member
  · exact ⟨_, _, List.mem_singleton.mp member⟩
  · cases member

theorem step_placed (placed : Placed types s) (step : Step s a s') : Placed types s' := by
  cases step with
  | respond element => exact ⟨placed.kinds,placed.began,placed.popped⟩
  | message_ws txn_id here kind => exact ⟨set_kinds placed.kinds here rfl, placed.began, placed.popped⟩
  | message_http txn_id here kind fresh =>
    rename_i r relay
    have http : types[r]? = some .http := by
      rw [← placed.kinds,List.getElem?_map,here,← kind]
      rfl
    refine ⟨set_kinds placed.kinds here rfl, ?_, ?_⟩
    · intro other txn member
      obtain now | old := List.mem_cons.mp member
      · cases now
        exact http
      · exact placed.began other txn old
    · intro other txn data member
      obtain now | old := List.mem_cons.mp member
      · cases now
      · exact placed.popped other txn data old
  | push here call => exact ⟨set_kinds placed.kinds here rfl, placed.began, placed.popped⟩
  | push_raises error here call => exact ⟨set_kinds placed.kinds here rfl, placed.began, placed.popped⟩
  | look_none here call running none => exact placed
  | look here call running found => exact ⟨set_kinds placed.kinds here rfl, placed.began, placed.popped⟩
  | look_stopped here call stopped => exact ⟨set_kinds placed.kinds here rfl, placed.began, placed.popped⟩
  | timeout here call => exact ⟨set_kinds placed.kinds here rfl, placed.began, placed.popped⟩
  | blpop_none here empty => exact placed
  | blpop here listening queue =>
    rename_i r relay element rest
    have inside : r < types.length := by
      rw [← placed.kinds,List.length_map]
      exact (List.getElem?_eq_some_iff.mp here).1
    refine ⟨set_kinds placed.kinds here (receive_kind relay element), ?_,
      ?_⟩
    · intro other txn member
      obtain now | old := List.mem_append.mp member
      · obtain ⟨_,_,same⟩ := received_popped now
        cases same
      · exact placed.began other txn old
    · intro other txn data member
      obtain now | old := List.mem_append.mp member
      · obtain ⟨_,_,same⟩ := received_popped now
        cases same
        exact inside
      · exact placed.popped other txn data old
  | stop here => exact ⟨set_kinds placed.kinds here rfl, placed.began, placed.popped⟩

theorem run_placed (run : Run (started types) trace s) : Placed types s := by
  induction run with
  | start => exact started_placed
  | step _ step ih => exact step_placed ih step

/-- The relay that pops a response of its own call has stored it. -/
theorem own_stored (run : Run (started types) trace s) {r : Nat} {txn_id : Text} {data : Json} {rest : List Event}
    (log : s.log = .popped r txn_id data :: rest) (inside : r < types.length) :
    ∃ relay, s.relays[r]? = some relay ∧
      relay.direct_response_txn_request_map txn_id = some (.response_data data) := by
  have placed := run_placed run
  have bound : r < s.relays.length := by
    rwa [← List.length_map (fun relay => relay.transport_type),placed.kinds]
  refine ⟨s.relays[r], List.getElem?_eq_getElem bound, ?_⟩
  rw [(run_mirrored run r _ (List.getElem?_eq_getElem bound)).map txn_id,log]
  rw [List.find?_cons_of_pos (by simp [concerns])]
  rfl

/-- A response to a call of the relay `r` that the loop of the relay `other` pops. -/
theorem popped_elsewhere {r other : Nat} (http : types[r]? = some .http) (inside : other < types.length)
    (apart : other ≠ r) : ∃ trace s, Run (started types) trace s ∧ ¬ Stored s := by
  have here : (started types).relays[r]? = some (idle .http) := by
    rw [started,List.getElem?_map,http]
    rfl
  have there : (started types).relays[other]? = some (idle types[other]) := by
    rw [started,List.getElem?_map,List.getElem?_eq_getElem inside]
    rfl
  have bound : r < (started types).relays.length := (List.getElem?_eq_some_iff.mp here).1
  let begun := (started types).relays.set r ((idle .http).begin (text "t"))
  let waiting := begun.set r (((idle .http).begin (text "t")).goes_on 0 (.waiting (text "t")))
  have bound' : r < begun.length := by rwa [List.length_set]
  have elsewhere : waiting[other]? = some (idle types[other]) := by
    rw [List.getElem?_set_ne (Ne.symm apart),List.getElem?_set_ne (Ne.symm apart),there]
  have pushed : Run (started types) _ ⟨[], waiting, [.began r (text "t")]⟩ :=
    .step (.step .start (.message_http (text "t") here rfl (fun _ => List.not_mem_nil)))
      (.push (i := 0) (List.getElem?_set_self bound) rfl)
  have popped : Run (started types) _ _ := .step (.step pushed (.respond (response (text "t") .null)))
    (.blpop elsewhere rfl rfl)
  refine ⟨_, _, popped, ?_⟩
  intro stored
  obtain ⟨relay,found,entry⟩ := stored other (text "t") .null [.began r (text "t")] rfl r List.mem_cons_self
  have still : (waiting.set other ((idle types[other]).receive (response (text "t") .null)))[r]? = some relay := found
  rw [List.getElem?_set_ne apart,List.getElem?_set_self bound'] at still
  obtain rfl := Option.some.inj still
  cases entry

/-- In every run every popped response is stored by the relay that waits for it exactly when
    there is at most one handler or none that begins transactions. -/
theorem stored_iff : (∀ trace s, Run (started types) trace s → Stored s) ↔ types.length ≤ 1 ∨ .http ∉ types := by
  constructor
  · intro stored
    by_contra others
    obtain ⟨more,there⟩ := not_or.mp others
    obtain ⟨r,http⟩ := List.mem_iff_getElem?.mp (not_not.mp there)
    obtain ⟨other,inside,apart⟩ : ∃ other, other < types.length ∧ other ≠ r := by
      by_cases first : r = 0
      · exact ⟨1, by omega, by omega⟩
      · exact ⟨0, by omega, by omega⟩
    obtain ⟨trace,s,run,misses⟩ := popped_elsewhere http inside apart
    exact misses (stored trace s run)
  · rintro few trace s run r txn_id data rest log creator begun
    have placed := run_placed run
    have http := placed.began creator txn_id (log ▸ List.mem_cons_of_mem _ begun)
    have inside := placed.popped r txn_id data (log ▸ List.mem_cons_self)
    obtain single | none := few
    · have bound := (List.getElem?_eq_some_iff.mp http).1
      obtain rfl : r = creator := by omega
      exact own_stored run log inside
    · exact absurd (List.mem_of_getElem? http) none

/-- The loop of the web socket handler pops the response for a call of the http handler. -/
theorem response_popped_by_ws : ∃ trace s, Run (started [.http, .ws]) trace s ∧ ¬ Stored s := by
  have http : [TransportType.http, .ws][0]? = some .http := rfl
  exact popped_elsewhere http (show 1 < 2 by decide) (by decide)

end AcapyRedis.Routing
