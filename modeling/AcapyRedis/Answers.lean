import AcapyRedis.Relays

/-!
What `get_direct_responses` answers. The map of a relay says for each transaction what
happened to it last (`Mirrors`): that a call has stored its request, or that the loop has
popped a response. So a call gets a response exactly when one was popped since, and its first
look finds its own request otherwise: no wait times out (`never_times_out`).
-/
namespace AcapyRedis.Answers
open AcapyRedis.Python AcapyRedis.Relays

/-- The event is about the transaction in the relay. -/
def concerns (r : Nat) (txn_id : Text) : Event → Bool
  | .began relay txn => relay == r && txn == txn_id
  | .popped relay txn _ => relay == r && txn == txn_id

/-- What an event leaves in the map. -/
def leaves : Event → Entry
  | .began _ _ => .request
  | .popped _ _ data => .response_data data

/-- A response was popped since the request of the transaction was stored. -/
def responded (r : Nat) (txn_id : Text) (log : List Event) : Bool :=
  match log.find? (concerns r txn_id) with
  | some (.popped _ _ _) => true
  | _ => false

/-- The action is not a look for a transaction without a response, in a running relay. -/
def late (s : Service) : Action → Bool
  | .look r i =>
    match s.relays[r]? with
    | some relay =>
      match relay.calls[i]? with
      | some (.waiting txn_id) => !relay.running || responded r txn_id s.log
      | _ => true
    | none => true
  | _ => true

/-- What a look answers in a running relay is the data of a response that the relay has popped. -/
def Real (s : Service) (a : Action) : Prop :=
  ∀ r i relay txn_id entry, a = .look r i → s.relays[r]? = some relay → relay.calls[i]? = some (.waiting txn_id) →
    relay.running = true → relay.direct_response_txn_request_map txn_id = some entry →
    ∃ data, entry = .response_data data ∧ .popped r txn_id data ∈ s.log

/-- The transaction that a call still works on. -/
def open_txn : Handling → Option Text
  | .pushing txn_id => some txn_id
  | .waiting txn_id => some txn_id
  | _ => none

/-- The map of a relay shows the newest events, and open calls have begun. -/
structure Mirrors (log : List Event) (r : Nat) (relay : Relay) : Prop where
  map : ∀ txn_id, relay.direct_response_txn_request_map txn_id = (log.find? (concerns r txn_id)).map leaves
  calls : ∀ call ∈ relay.calls, ∀ txn_id, open_txn call = some txn_id → .began r txn_id ∈ log

def Mirrored (s : Service) : Prop := ∀ r relay, s.relays[r]? = some relay → Mirrors s.log r relay

section
variable {log : List Event} {r : Nat} {relay : Relay}

theorem goes_on_mirrors (mirrors : Mirrors log r relay) (i : Nat) {handling : Handling}
    (begun : ∀ txn_id, open_txn handling = some txn_id → .began r txn_id ∈ log) :
    Mirrors log r (relay.goes_on i handling) := by
  refine ⟨mirrors.map, ?_⟩
  intro call member txn_id works
  obtain old | rfl := List.mem_or_eq_of_mem_set member
  · exact mirrors.calls call old txn_id works
  · exact begun txn_id works

theorem closed_mirrors (mirrors : Mirrors log r relay) (i : Nat) {handling : Handling}
    (closed : open_txn handling = none) : Mirrors log r (relay.goes_on i handling) := by
  refine goes_on_mirrors mirrors i (fun txn_id works => ?_)
  rw [closed] at works
  cases works

theorem refuse_mirrors (mirrors : Mirrors log r relay) (error : PyError) : Mirrors log r (relay.refuse error) := by
  refine ⟨mirrors.map, ?_⟩
  intro call member txn_id works
  obtain old | new := List.mem_append.mp member
  · exact mirrors.calls call old txn_id works
  · rw [List.mem_singleton.mp new] at works
    cases works

/-- Storing an entry is what the event of it leaves. -/
theorem store_map (mirrors : Mirrors log r relay) {event : Event} {txn_id : Text} (about : concerns r txn_id event)
    (apart : ∀ other, other ≠ txn_id → concerns r other event = false) (other : Text) :
    (relay.store txn_id (leaves event)).direct_response_txn_request_map other =
      ((event :: log).find? (concerns r other)).map leaves := by
  by_cases same : other = txn_id
  · subst same
    rw [List.find?_cons_of_pos about]
    exact Function.update_self _ _ _
  · rw [List.find?_cons_of_neg (Bool.eq_false_iff.mp (apart other same)),← mirrors.map other]
    exact Function.update_of_ne same _ _

theorem begin_mirrors (mirrors : Mirrors log r relay) (txn_id : Text) :
    Mirrors (.began r txn_id :: log) r (relay.begin txn_id) := by
  have about : concerns r txn_id (.began r txn_id) := by simp [concerns]
  refine ⟨store_map mirrors about (fun other apart => by simp [concerns,apart.symm]), ?_⟩
  intro call member other works
  obtain old | new := List.mem_append.mp member
  · exact List.mem_cons_of_mem _ (mirrors.calls call old other works)
  · rw [List.mem_singleton.mp new] at works
    cases works
    exact List.mem_cons_self

theorem receive_mirrors (mirrors : Mirrors log r relay) (element : Except PyError Json) :
    Mirrors (received r element ++ log) r (relay.receive element) := by
  cases parsed : direct_response element with
  | error error =>
    simp only [received,Relay.receive,parsed]
    exact ⟨mirrors.map,mirrors.calls⟩
  | ok response =>
    rcases response with _ | ⟨key,data⟩
    · simp only [received,Relay.receive,parsed]
      exact mirrors
    · cases key with
      | str txn_id =>
        simp only [received,Relay.receive,parsed]
        have about : concerns r txn_id (.popped r txn_id data) := by simp [concerns]
        exact ⟨store_map mirrors about (fun other apart => by simp [concerns,apart.symm]),
          fun call member other works => List.mem_cons_of_mem _ (mirrors.calls call member other works)⟩
      | _ =>
        simp only [received,Relay.receive,parsed]
        exact ⟨mirrors.map,mirrors.calls⟩

end

variable {s s' : Service} {a : Action} {trace : List (Service × Action)} {types : List TransportType}

/-- Changing one relay, with events about it only, concerns no other relay. -/
theorem set_mirrored (mirrored : Mirrored s) {r : Nat} {relay : Relay} {new : List Event}
    (own : ∀ event ∈ new, ∀ other txn_id, other ≠ r → concerns other txn_id event = false)
    (mine : Mirrors (new ++ s.log) r relay) (topic : List (Except PyError Json)) :
    Mirrored ⟨topic, s.relays.set r relay, new ++ s.log⟩ := by
  intro other relay' there
  by_cases same : other = r
  · subst same
    obtain ⟨inside,rfl⟩ := List.getElem?_eq_some_iff.mp there
    simpa using mine
  · have before := mirrored other relay' (by rwa [List.getElem?_set_ne (Ne.symm same)] at there)
    constructor
    · intro txn_id
      have silent : new.find? (concerns other txn_id) = none :=
        List.find?_eq_none.mpr (fun event member => by simp [own event member other txn_id same])
      rw [before.map txn_id,List.find?_append,silent,Option.none_or]
    · intro call member txn_id works
      exact List.mem_append_right _ (before.calls call member txn_id works)

theorem started_mirrored : Mirrored (started types) := by
  intro r relay here
  obtain ⟨transport_type,_,rfl⟩ := List.mem_map.mp (List.mem_of_getElem? here)
  exact ⟨fun _ => rfl, fun call member => absurd member List.not_mem_nil⟩

theorem step_mirrored (mirrored : Mirrored s) (step : Step s a s') : Mirrored s' := by
  have silent {r : Nat} : ∀ event ∈ ([] : List Event), ∀ other txn_id, other ≠ r → concerns other txn_id event = false :=
    fun event member => absurd member List.not_mem_nil
  cases step with
  | respond element => exact mirrored
  | message_ws txn_id here kind => exact set_mirrored mirrored silent (refuse_mirrors (mirrored _ _ here) _) _
  | message_http txn_id here kind fresh =>
    rename_i r relay
    have own : ∀ event ∈ [Event.began r txn_id], ∀ other txn, other ≠ r → concerns other txn event = false := by
      intro event member other txn apart
      rw [List.mem_singleton.mp member]
      simp [concerns,apart.symm]
    exact set_mirrored mirrored own (begin_mirrors (mirrored _ _ here) txn_id) _
  | push here call =>
    refine set_mirrored mirrored silent (goes_on_mirrors (mirrored _ _ here) _ (fun txn_id works => ?_)) _
    exact (mirrored _ _ here).calls _ (List.mem_of_getElem? call) txn_id works
  | push_raises error here call => exact set_mirrored mirrored silent (closed_mirrors (mirrored _ _ here) _ rfl) _
  | look_none here call running none => exact mirrored
  | look here call running found => exact set_mirrored mirrored silent (closed_mirrors (mirrored _ _ here) _ rfl) _
  | look_stopped here call stopped => exact set_mirrored mirrored silent (closed_mirrors (mirrored _ _ here) _ rfl) _
  | timeout here call _ _ => exact set_mirrored mirrored silent (closed_mirrors (mirrored _ _ here) _ rfl) _
  | blpop_none here empty => exact mirrored
  | blpop here listening queue =>
    rename_i r relay element rest
    refine set_mirrored mirrored (fun event member other txn_id apart => ?_)
      (receive_mirrors (mirrored _ _ here) element) _
    unfold received at member
    split at member
    · rw [List.mem_singleton.mp member]
      simp [concerns,apart.symm]
    · cases member
  | stop here =>
    rename_i r relay
    have mine : Mirrors s.log r { relay with running := false } := ⟨(mirrored _ _ here).map,(mirrored _ _ here).calls⟩
    exact set_mirrored mirrored silent mine _

theorem run_mirrored (run : Run (started types) trace s) : Mirrored s := by
  induction run with
  | start => exact started_mirrored
  | step _ step ih => exact step_mirrored ih step

/-- The entry that a waiting call finds is what the newest event of its transaction left. -/
theorem waiting_entry (mirrored : Mirrored s) {r i : Nat} {relay : Relay} {txn_id : Text}
    (here : s.relays[r]? = some relay) (call : relay.calls[i]? = some (.waiting txn_id)) :
    ∃ event ∈ s.log, s.log.find? (concerns r txn_id) = some event ∧ concerns r txn_id event ∧
      relay.direct_response_txn_request_map txn_id = some (leaves event) := by
  have mirrors := mirrored r relay here
  have begun := mirrors.calls _ (List.mem_of_getElem? call) txn_id rfl
  have found : (s.log.find? (concerns r txn_id)).isSome := List.find?_isSome.mpr ⟨_, begun, by simp [concerns]⟩
  obtain ⟨event,newest⟩ := Option.isSome_iff_exists.mp found
  refine ⟨event, List.mem_of_find?_eq_some newest, newest, List.find?_some newest, ?_⟩
  rw [mirrors.map txn_id,newest]
  rfl

/-- The first look of a call finds an entry, so no wait ever times out. -/
theorem never_times_out (run : Run (started types) trace s) : ∀ relay ∈ s.relays, .timed_out ∉ relay.calls := by
  induction run with
  | start =>
    intro relay member
    obtain ⟨transport_type,_,rfl⟩ := List.mem_map.mp member
    exact List.not_mem_nil
  | @step trace s a s' before step ih =>
    have untouched : ∀ {r : Nat} {relay' : Relay}, .timed_out ∉ relay'.calls →
        ∀ relay ∈ s.relays.set r relay', .timed_out ∉ relay.calls := by
      intro r relay' without relay member
      obtain old | rfl := List.mem_or_eq_of_mem_set member
      · exact ih relay old
      · exact without
    have goes_on : ∀ {r : Nat} {relay : Relay} (i : Nat) {handling : Handling}, s.relays[r]? = some relay →
        handling ≠ .timed_out → .timed_out ∉ (relay.goes_on i handling).calls := by
      intro r relay i handling here other member
      obtain old | new := List.mem_or_eq_of_mem_set member
      · exact ih relay (List.mem_of_getElem? here) old
      · exact other new.symm
    have appended : ∀ {r : Nat} {relay : Relay} {handling : Handling}, s.relays[r]? = some relay →
        handling ≠ .timed_out → .timed_out ∉ relay.calls ++ [handling] := by
      intro r relay handling here other member
      obtain old | new := List.mem_append.mp member
      · exact ih relay (List.mem_of_getElem? here) old
      · exact other (List.mem_singleton.mp new).symm
    cases step with
    | respond element => exact ih
    | message_ws txn_id here kind => exact untouched (appended here (fun same => by cases same))
    | message_http txn_id here kind fresh => exact untouched (appended here (fun same => by cases same))
    | push here call => exact untouched (goes_on _ here (fun same => by cases same))
    | push_raises error here call => exact untouched (goes_on _ here (fun same => by cases same))
    | look_none here call running none => exact ih
    | look here call running found => exact untouched (goes_on _ here (fun same => by cases same))
    | look_stopped here call stopped => exact untouched (goes_on _ here (fun same => by cases same))
    | timeout here call running nothing =>
      obtain ⟨_,_,_,_,entry⟩ := waiting_entry (run_mirrored before) here call
      rw [nothing] at entry
      cases entry
    | blpop_none here empty => exact ih
    | blpop here listening queue =>
      refine untouched ?_
      rw [receive_calls]
      exact ih _ (List.mem_of_getElem? here)
    | stop here => exact untouched (fun member => ih _ (List.mem_of_getElem? here) member)

/-- A look answers a real response exactly when it is late. -/
theorem real_iff_late (mirrored : Mirrored s) (a : Action) : Real s a ↔ late s a := by
  cases a with
  | look r i =>
    constructor
    · intro real
      cases here : s.relays[r]? with
      | none => simp only [late,here]
      | some relay =>
        cases call : relay.calls[i]? with
        | none => simp only [late,here,call]
        | some handling =>
          cases handling with
          | waiting txn_id =>
            cases running : relay.running with
            | false => simp [late,here,call,running]
            | true =>
              obtain ⟨event,_,newest,_,entry⟩ := waiting_entry mirrored here call
              obtain ⟨data,same,_⟩ := real r i relay txn_id _ rfl here call running entry
              simp only [late,here,call,running,responded,newest]
              cases event with
              | began => cases same
              | popped => rfl
          | _ => simp only [late,here,call]
    · rintro in_time _ _ relay txn_id entry ⟨rfl,rfl⟩ here call running found
      obtain ⟨event,logged,newest,about,left⟩ := waiting_entry mirrored here call
      simp only [late,here,call,running,responded,newest] at in_time
      cases event with
      | began => cases in_time
      | popped relay' txn data =>
        obtain ⟨rfl,rfl⟩ : relay' = r ∧ txn = txn_id := by simpa [concerns] using about
        rw [left] at found
        exact ⟨data, (Option.some.inj found).symm, logged⟩
  | _ => exact ⟨fun _ => rfl, fun _ _ _ _ _ _ look => by cases look⟩

/-- In a run every answer is the data of a popped response exactly when no call looks for
    its transaction before a response has been popped since the call has begun. -/
theorem answers_real (run : Run (started types) trace s) :
    (∀ step ∈ trace, Real step.1 step.2) ↔ ∀ step ∈ trace, late step.1 step.2 := by
  have each : ∀ step ∈ trace, Real step.1 step.2 ↔ late step.1 step.2 := by
    rintro ⟨g,a⟩ member
    obtain ⟨earlier,before⟩ := run_reaches run member
    exact real_iff_late (run_mirrored before) a
  exact forall₂_congr each

/-- A call that waits until its response was popped. -/
theorem answers_real_late : ∃ trace s, Run (started [.http]) trace s ∧ (∀ step ∈ trace, Real step.1 step.2) ∧
    s.relays.map (·.calls) = [[.answered (some (.response_data .null))]] := by
  have pushed : Run (started [.http]) _ _ :=
    .step (.step .start (.message_http (r := 0) (text "t") rfl rfl (fun _ => List.not_mem_nil)))
      (.push (r := 0) (i := 0) rfl rfl)
  have popped : Run (started [.http]) _ _ :=
    .step (.step pushed (.respond (response (text "t") .null))) (.blpop (r := 0) rfl rfl rfl)
  have answered : Run (started [.http]) _ _ := .step popped (.look (r := 0) (i := 0) rfl rfl rfl rfl)
  exact ⟨_, _, answered, (answers_real answered).mpr (by decide), rfl⟩

/-- A call that looks for its response finds the request that it has stored itself. -/
theorem request_answered : ∃ trace s, Run (started [.http]) trace s ∧ (¬ ∀ step ∈ trace, Real step.1 step.2) ∧
    s.relays.map (·.calls) = [[.answered (some .request)]] := by
  have pushed : Run (started [.http]) _ _ :=
    .step (.step .start (.message_http (r := 0) (text "t") rfl rfl (fun _ => List.not_mem_nil)))
      (.push (r := 0) (i := 0) rfl rfl)
  have answered : Run (started [.http]) _ _ := .step pushed (.look (r := 0) (i := 0) rfl rfl rfl rfl)
  refine ⟨_, _, answered, ?_, rfl⟩
  intro real
  obtain ⟨data,same,_⟩ := real _ List.mem_cons_self 0 0 _ (text "t") _ rfl rfl rfl rfl rfl
  cases same

end AcapyRedis.Answers
