import AcapyRedis.Answers
import AcapyRedis.Handlers

/-!
What `direct_response_txn_request_map` keeps. A call stores its request and the loop stores
responses, under whatever transaction they name; nothing takes an entry out again. So the map has
exactly what was ever stored (`kept_iff`), also after the call that stored it has ended with an
error (`request_stays`).
-/
namespace AcapyRedis.Residue
open AcapyRedis.Python AcapyRedis.Relays AcapyRedis.Answers AcapyRedis.Handlers

/-- The map has an entry that was stored under the key. Python keeps one entry for keys that it
    takes as equal, as `1` and `True`. -/
def Has (relay : Relay) : Json → Prop
  | .str txn_id => (relay.direct_response_txn_request_map txn_id).isSome
  | key => ∃ entry, (key, entry) ∈ relay.others

/-- The step makes an entry for the key: a request of `HttpRelay` that asks for a direct
    response, or a popped response. -/
def Stores (r : Nat) (key : Json) (s : Service) : Action → Prop
  | .message relay txn_id => relay = r ∧ key = .str txn_id ∧
    ∃ relay, s.relays[r]? = some relay ∧ relay.transport_type = .http
  | .blpop relay => relay = r ∧
    ∃ element rest data, s.direct_resp_topic = element :: rest ∧ direct_response element = .ok (some (key, data))
  | _ => False

/-- No `message_handler` call is in progress. -/
def Finished (relay : Relay) : Prop := ∀ call ∈ relay.calls, open_txn call = none

/-! ### One step -/

section
variable {relay relay' : Relay} {key : Json}

theorem has_same (map : relay'.direct_response_txn_request_map = relay.direct_response_txn_request_map)
    (others : relay'.others = relay.others) : Has relay' key ↔ Has relay key := by
  cases key <;> simp only [Has,map,others]

theorem has_store (txn_id : Text) (entry : Entry) : Has (relay.store txn_id entry) key ↔
    key = .str txn_id ∨ Has relay key := by
  cases key with
  | str other =>
    by_cases same : other = txn_id
    · subst same
      simp [Has,Relay.store]
    · simp [Has,Relay.store,same]
  | _ => exact (or_iff_right (fun same => by cases same)).symm

theorem has_store_under (entry : Entry) (other : Json) :
    Has (relay.store_under entry other) key ↔ key = other ∨ Has relay key := by
  cases other with
  | str txn_id => exact has_store txn_id entry
  | _ => cases key <;> simp [Has,Relay.store_under,exists_or]

/-- The loop of a relay adds the key that the element names. -/
theorem has_receive (element : Except PyError Json) : Has (relay.receive element) key ↔
    (∃ data, direct_response element = .ok (some (key, data))) ∨ Has relay key := by
  cases parsed : direct_response element with
  | error error =>
    simp only [Relay.receive,parsed,reduceCtorEq,exists_false,false_or]
    exact has_same rfl rfl
  | ok response =>
    rcases response with _ | ⟨other,data⟩
    · simp only [Relay.receive,parsed,Except.ok.injEq,reduceCtorEq,exists_false,false_or]
    · simp only [Relay.receive,parsed,Except.ok.injEq,Option.some.injEq,Prod.mk.injEq,exists_and_left,exists_eq',
        and_true]
      rw [has_store_under,eq_comm]

end

variable {s s' : Service} {a : Action} {trace : List (Service × Action)} {types : List TransportType}

/-- The relay with a number has an entry for a key. -/
def Kept (r : Nat) (key : Json) (s : Service) : Prop := ∃ relay, s.relays[r]? = some relay ∧ Has relay key

/-- What changing one relay does to what is kept. -/
theorem kept_set {r number : Nat} {relay relay' : Relay} {key : Json} {new : Prop}
    (here : s.relays[number]? = some relay)
    (has : number = r → (Has relay' key ↔ new ∨ Has relay key)) (elsewhere : number ≠ r → ¬ new)
    (topic : List (Except PyError Json)) (log : List Event) :
    Kept r key ⟨topic, s.relays.set number relay', log⟩ ↔ new ∨ Kept r key s := by
  have inside := (List.getElem?_eq_some_iff.mp here).1
  by_cases same : number = r
  · subst same
    have changed : (s.relays.set number relay')[number]? = some relay' := by
      rw [List.getElem?_set_self inside]
    simp only [Kept,changed,here,Option.some.injEq,exists_eq_left']
    exact has rfl
  · have unchanged : (s.relays.set number relay')[r]? = s.relays[r]? := List.getElem?_set_ne same
    simp only [Kept,unchanged,elsewhere same,false_or]

/-- A step adds exactly the entry that it makes. -/
theorem step_kept (step : Step s a s') (r : Nat) (key : Json) : Kept r key s' ↔ Stores r key s a ∨ Kept r key s := by
  have silent {number : Nat} {relay : Relay} (here : s.relays[number]? = some relay) (relay' : Relay)
      (map : relay'.direct_response_txn_request_map = relay.direct_response_txn_request_map)
      (others : relay'.others = relay.others) :
      Kept r key { s with relays := s.relays.set number relay' } ↔ False ∨ Kept r key s :=
    kept_set here (fun _ => (has_same map others).trans (or_iff_right id).symm) (fun _ => id) _ _
  cases step with
  | respond element => exact (or_iff_right id).symm
  | message_ws txn_id here kind =>
    rename_i relay number
    have none : ¬ Stores r key s (.message relay txn_id) := by
      rintro ⟨rfl,_,other,there,http⟩
      rw [Option.some.inj (here.symm.trans there),http] at kind
      cases kind
    exact (silent here (number.refuse .TypeError) rfl rfl).trans (or_congr_left (iff_of_false id none))
  | message_http txn_id here kind fresh =>
    rename_i number relay
    have began : Has (relay.begin txn_id) key ↔ Has (relay.store txn_id .request) key := has_same rfl rfl
    refine kept_set here (fun same => ?_) (fun apart stores => apart stores.1) _ _
    subst same
    rw [began,has_store]
    exact or_congr_left ⟨fun named => ⟨rfl, named, relay, here, kind⟩, fun stores => stores.2.1⟩
  | push here call => exact silent here _ rfl rfl
  | push_raises error here call => exact silent here _ rfl rfl
  | look_none here call running none => exact (or_iff_right id).symm
  | look here call running found => exact silent here _ rfl rfl
  | look_stopped here call stopped => exact silent here _ rfl rfl
  | timeout here call running none => exact silent here _ rfl rfl
  | blpop_none here empty =>
    refine (or_iff_right ?_).symm
    rintro ⟨_,element,rest,data,queue,_⟩
    rw [empty] at queue
    cases queue
  | blpop here listening queue =>
    refine kept_set here (fun same => ?_) (fun apart stores => apart stores.1) _ _
    subst same
    rw [has_receive]
    refine or_congr_left ⟨fun ⟨data,parsed⟩ => ⟨rfl, _, _, data, queue, parsed⟩, ?_⟩
    rintro ⟨_,element,rest,data,there,parsed⟩
    rw [queue] at there
    cases there
    exact ⟨data,parsed⟩
  | stop here => exact silent here _ rfl rfl

/-! ### Whole runs -/

theorem run_kept (run : Run (started types) trace s) (r : Nat) (key : Json) :
    Kept r key s ↔ ∃ step ∈ trace, Stores r key step.1 step.2 := by
  induction run with
  | start =>
    simp only [List.not_mem_nil,false_and,exists_false,iff_false]
    rintro ⟨relay,here,has⟩
    obtain ⟨transport_type,_,rfl⟩ := List.mem_map.mp (List.mem_of_getElem? here)
    cases key <;> simp [Has,idle] at has
  | step _ step ih => rw [step_kept step,ih,List.exists_mem_cons_iff]

/-- In a run the map of a relay has the keys that were ever stored; so without calls in
    progress and with an empty topic it is empty exactly when none was. -/
theorem kept_iff (run : Run (started types) trace s) {r : Nat} {relay : Relay} (here : s.relays[r]? = some relay) :
    (∀ key, Has relay key ↔ ∃ step ∈ trace, Stores r key step.1 step.2) ∧
    (Finished relay → s.direct_resp_topic = [] →
      ((∀ key, ¬ Has relay key) ↔ ∀ key, ∀ step ∈ trace, ¬ Stores r key step.1 step.2)) := by
  have kept : ∀ key, Has relay key ↔ ∃ step ∈ trace, Stores r key step.1 step.2 := by
    intro key
    rw [← run_kept run r key,Kept]
    simp only [here,Option.some.injEq,exists_eq_left']
  refine ⟨kept, fun _ _ => forall_congr' (fun key => ?_)⟩
  rw [kept key]
  simp only [not_exists,not_and]

/-- A relay that has popped an element without response data keeps nothing. -/
theorem kept_iff_refused : ∃ trace s relay, Run (started [.http]) trace s ∧ s.relays[0]? = some relay ∧ Finished relay ∧
    s.direct_resp_topic = [] ∧ trace.length = 2 ∧ ∀ key, ¬ Has relay key := by
  have refused : Run (started [.http]) _ _ :=
    .step (.step .start (.respond (.ok (.obj [])))) (.blpop (r := 0) rfl rfl rfl)
  have finished : Finished (idle .http) := fun _ member => absurd member List.not_mem_nil
  refine ⟨_, _, idle .http, refused, rfl, finished, rfl, rfl, ?_⟩
  refine ((kept_iff refused (r := 0) rfl).2 finished rfl).mpr (fun key step member stores => ?_)
  obtain rfl | member := List.mem_cons.mp member
  · obtain ⟨_,element,rest,data,queue,parsed⟩ := stores
    cases queue
    cases parsed
  · obtain rfl := List.mem_singleton.mp member
    exact stores

/-- The first look of a call answers the request that it has stored itself, on which the
    handler raises, and the entry stays. -/
theorem request_stays : ∃ trace s relay, Run (started [.http]) trace s ∧ s.relays[0]? = some relay ∧
    relay.calls = [.answered (some .request)] ∧ HttpRelay.answer (.found .request) = .error .KeyError ∧
    Finished relay ∧ s.direct_resp_topic = [] ∧ ¬ ∀ key, ¬ Has relay key := by
  have looked : Run (started [.http]) _ _ :=
    .step (.step (.step .start (.message_http (r := 0) (text "t") rfl rfl (fun _ => List.not_mem_nil)))
      (.push (r := 0) (i := 0) rfl rfl)) (.look (r := 0) (i := 0) rfl rfl rfl rfl)
  refine ⟨_, _, _, looked, rfl, rfl, rfl, ?_, rfl, fun empty => empty (.str (text "t")) rfl⟩
  intro call member
  obtain rfl := List.mem_singleton.mp member
  rfl

end AcapyRedis.Residue
