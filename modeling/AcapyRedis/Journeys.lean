import AcapyRedis.Scales

/-!
Valid messages on their way through the deliverer. When only http and https messages are
pushed, nothing else is ever in a topic, in a loop or in the log (`run_valid`). A message
has one weight while it waits or is handed over, one while its POST is out and one in
`add_retry`; the log makes up for the difference (`journey`).
-/
namespace AcapyRedis.Journeys
open AcapyRedis.Python AcapyRedis.SortedSets AcapyRedis.Sums AcapyRedis.Deliverer AcapyRedis.Scales

variable {Raw Headers : Type}

/-! ### Journeys -/

/-- The weights of a message while it waits, while its POST is out and while it is added
    for another try. -/
structure Weights (Headers : Type) where
  waiting : OutboundPayload Headers → Int
  posted : OutboundPayload Headers → Int
  adding : OutboundPayload Headers → Int
  again : ∀ msg, msg.retries < 5 → adding msg.retried = posted msg
  posted_nonneg : ∀ msg, 0 ≤ posted msg
  posted_le : ∀ msg, posted msg ≤ waiting msg
  waiting_le : ∀ msg, waiting msg ≤ adding msg

/-- The weight of a message, when it is valid. -/
def valued (lib : Library Raw Headers) (weight : OutboundPayload Headers → Int) (msg : OutboundPayload Headers) : Int :=
  if web lib msg then weight msg else 0

def lifted (lib : Library Raw Headers) (weight : OutboundPayload Headers → Int) (row : Raw) : Int :=
  match lib.from_bytes row with
  | .ok msg => valued lib weight msg
  | .error _ => 0

/-- What the log adds. -/
def brought (lib : Library Raw Headers) (w : Weights Headers) : Event Raw Headers → Int
  | .pushed row => lifted lib w.waiting row
  | _ => 0

/-- What the log takes away. -/
def spent (lib : Library Raw Headers) (w : Weights Headers) : Event Raw Headers → Int
  | .posted msg => valued lib w.waiting msg - valued lib w.posted msg
  | .delivered msg => valued lib w.posted msg
  | .dropped msg => valued lib w.posted msg
  | .added msg new => valued lib w.adding msg - if new then valued lib w.waiting msg else 0
  | .raised msg => valued lib w.adding msg
  | .aborted msg => valued lib w.posted msg
  | _ => 0

/-- The scale of the weights. -/
def journey (lib : Library Raw Headers) (w : Weights Headers) : Scale lib where
  outbound := lifted lib w.waiting
  retry := lifted lib w.waiting
  delivering
    | .received msg => valued lib w.waiting msg
    | .posted msg => valued lib w.posted msg
    | .adding msg => valued lib w.adding msg
    | _ => 0
  retrying
    | .moving row _ => lifted lib w.waiting row
    | .batch _ => 0
  event e := spent lib w e - brought lib w e
  polling := rfl
  crashed := rfl
  batch _ := rfl
  push row := by simp [spent,brought]
  blpop row := by
    unfold handle lifted
    cases lib.from_bytes row with
    | error error => rfl
    | ok msg =>
      cases kind : web lib msg <;> by_cases socket : lib.scheme msg.url = "ws" <;> simp [valued,kind,socket]
  post msg := by simp [spent,brought]
  respond msg response := by
    unfold conclude conclusion
    split_ifs with uncaught failed few
    · simp [spent,brought]
    · have same := w.again msg few
      have kind : web lib msg.retried = web lib msg := rfl
      simp [valued,same,kind]
    · simp [spent,brought]
    · simp [spent,brought]
  dispatch _ := rfl
  added msg := by
    rw [lifted,lib.round_trip]
    simp [spent,brought]
  merged msg := by simp [spent,brought]
  raised _ := by simp [spent,brought]
  removed _ _ := by simp [spent,brought]
  repushed _ _ := by simp [spent,brought]

/-- The messages that were pushed. -/
def originals (lib : Library Raw Headers) (log : List (Event Raw Headers)) : List (OutboundPayload Headers) :=
  log.filterMap (fun event =>
    match event with
    | .pushed row => (lib.from_bytes row).toOption
    | _ => none)

theorem brought_originals (lib : Library Raw Headers) (w : Weights Headers) (log : List (Event Raw Headers)) :
    (log.map (brought lib w)).sum = ((originals lib log).map (valued lib w.waiting)).sum := by
  induction log with
  | nil => rfl
  | cons event rest ih =>
    rw [List.map_cons,List.sum_cons,ih]
    cases event with
    | pushed row =>
      cases decoded : lib.from_bytes row with
      | error error => simp [brought,lifted,originals,decoded,Except.toOption]
      | ok msg => simp [brought,lifted,originals,decoded,Except.toOption]
    | _ => simp [brought,originals]

theorem Weights.waiting_nonneg (w : Weights Headers) (msg : OutboundPayload Headers) : 0 ≤ w.waiting msg :=
  Int.le_trans (w.posted_nonneg msg) (w.posted_le msg)

theorem Weights.adding_nonneg (w : Weights Headers) (msg : OutboundPayload Headers) : 0 ≤ w.adding msg :=
  Int.le_trans (w.waiting_nonneg msg) (w.waiting_le msg)

theorem valued_nonneg (lib : Library Raw Headers) {weight : OutboundPayload Headers → Int}
    (nonneg : ∀ msg, 0 ≤ weight msg) (msg : OutboundPayload Headers) : 0 ≤ valued lib weight msg := by
  unfold valued
  split
  · exact nonneg msg
  · exact Int.le_refl 0

theorem valued_le (lib : Library Raw Headers) {weight other : OutboundPayload Headers → Int}
    (le : ∀ msg, weight msg ≤ other msg) (msg : OutboundPayload Headers) :
    valued lib weight msg ≤ valued lib other msg := by
  unfold valued
  split
  · exact le msg
  · exact Int.le_refl 0

theorem lifted_nonneg (lib : Library Raw Headers) (w : Weights Headers) (row : Raw) : 0 ≤ lifted lib w.waiting row := by
  unfold lifted
  split
  · exact valued_nonneg lib w.waiting_nonneg _
  · exact Int.le_refl 0

theorem spent_nonneg (lib : Library Raw Headers) (w : Weights Headers) (event : Event Raw Headers) :
    0 ≤ spent lib w event := by
  cases event with
  | posted msg => exact Int.sub_nonneg_of_le (valued_le lib w.posted_le msg)
  | delivered msg => exact valued_nonneg lib w.posted_nonneg msg
  | dropped msg => exact valued_nonneg lib w.posted_nonneg msg
  | added msg new =>
    have more := valued_le lib w.waiting_le msg
    have some := valued_nonneg lib w.adding_nonneg msg
    cases new <;> simp only [spent,Bool.false_eq_true,↓reduceIte] <;> omega
  | raised msg => exact valued_nonneg lib w.adding_nonneg msg
  | aborted msg => exact valued_nonneg lib w.posted_nonneg msg
  | _ => exact Int.le_refl 0

theorem delivering_nonneg (lib : Library Raw Headers) (w : Weights Headers) (loop : Delivering Headers) :
    0 ≤ (journey lib w).delivering loop := by
  cases loop with
  | received msg => exact valued_nonneg lib w.waiting_nonneg msg
  | posted msg => exact valued_nonneg lib w.posted_nonneg msg
  | adding msg => exact valued_nonneg lib w.adding_nonneg msg
  | _ => exact Int.le_refl 0

theorem retrying_nonneg (lib : Library Raw Headers) (w : Weights Headers) (loop : Retrying Raw) :
    0 ≤ (journey lib w).retrying loop := by
  cases loop with
  | moving row rest => exact lifted_nonneg lib w row
  | batch rows => exact Int.le_refl 0

section
variable (lib : Library Raw Headers) (w : Weights Headers)

theorem outbound_nonneg (f : Fleet Raw Headers) : 0 ≤ (f.outbound.map (journey lib w).outbound).sum :=
  sum_map_nonneg _ (fun row _ => lifted_nonneg lib w row)

theorem retry_nonneg (z : SortedSet Raw) : 0 ≤ weigh (lifted lib w.waiting) z :=
  sum_map_nonneg _ (fun row _ => lifted_nonneg lib w row)

theorem retriers_nonneg (f : Fleet Raw Headers) : 0 ≤ (f.retriers.map (journey lib w).retrying).sum :=
  sum_map_nonneg _ (fun loop _ => retrying_nonneg lib w loop)

/-- What a loop and the retry set hold is pending. -/
theorem held_le_pending {f : Fleet Raw Headers} {loop : Delivering Headers} (member : loop ∈ f.deliveries) :
    (journey lib w).delivering loop + weigh (journey lib w).retry f.retry ≤ (journey lib w).pending f := by
  have held : (journey lib w).delivering loop ≤ (f.deliveries.map (journey lib w).delivering).sum :=
    le_sum_map _ (fun loop _ => delivering_nonneg lib w loop) member
  have waiting := outbound_nonneg lib w f
  have carried := retriers_nonneg lib w f
  rw [Scale.pending]
  omega

theorem pending_nonneg (f : Fleet Raw Headers) : 0 ≤ (journey lib w).pending f := by
  have waiting := outbound_nonneg lib w f
  have held : 0 ≤ (f.deliveries.map (journey lib w).delivering).sum :=
    sum_map_nonneg _ (fun loop _ => delivering_nonneg lib w loop)
  have carried := retriers_nonneg lib w f
  have retry : 0 ≤ weigh (journey lib w).retry f.retry := retry_nonneg lib w f.retry
  rw [Scale.pending]
  omega

end

/-! ### Valid messages -/

/-- An element that decodes to an http or https message. -/
def deliverable (lib : Library Raw Headers) (row : Raw) : Bool :=
  match lib.from_bytes row with
  | .ok msg => web lib msg
  | .error _ => false

/-- The loop has a valid message in hand, if any, and adds it for one of five tries. -/
def serves (lib : Library Raw Headers) : Delivering Headers → Bool
  | .received msg => web lib msg
  | .posted msg => web lib msg
  | .adding msg => web lib msg && decide (msg.retries ≤ 5)
  | .dispatching _ => false
  | _ => true

def carries (lib : Library Raw Headers) : Retrying Raw → Bool
  | .moving row _ => deliverable lib row
  | .batch _ => true

/-- What happened is about a valid message, and only late failures are dropped. -/
def sound (lib : Library Raw Headers) : Event Raw Headers → Bool
  | .pushed row => deliverable lib row
  | .dropped msg => web lib msg && decide (5 ≤ msg.retries)
  | .posted msg => web lib msg
  | .delivered msg => web lib msg
  | .added msg _ => web lib msg
  | .raised msg => web lib msg
  | .aborted msg => web lib msg
  | .removed row => deliverable lib row
  | .repushed row => deliverable lib row

/-- Everything is about valid messages. -/
structure Valid (lib : Library Raw Headers) (f : Fleet Raw Headers) : Prop where
  outbound : ∀ row ∈ f.outbound, deliverable lib row
  retry : ∀ row ∈ f.retry.keys, deliverable lib row
  deliveries : ∀ loop ∈ f.deliveries, serves lib loop
  retriers : ∀ loop ∈ f.retriers, carries lib loop
  log : ∀ event ∈ f.log, sound lib event

/-- Only valid messages are pushed. -/
def Pushes (lib : Library Raw Headers) (trace : List (Fleet Raw Headers × Action Raw)) : Prop :=
  ∀ state row, (state, Action.push row) ∈ trace → deliverable lib row

variable {lib : Library Raw Headers}

theorem handle_serves {row : Raw} (valid : deliverable lib row) : serves lib (handle lib row) := by
  unfold deliverable at valid
  unfold handle
  split at valid
  · next msg decoded =>
    rw [decoded]
    simp only [valid,↓reduceIte]
    exact valid
  · exact absurd valid Bool.false_ne_true

theorem retry_deliverable {msg : OutboundPayload Headers} (valid : web lib msg) :
    deliverable lib (lib.retry_msg msg) := by
  rw [deliverable,lib.round_trip]
  exact valid

theorem conclude_serves {msg : OutboundPayload Headers} (valid : web lib msg) (response : Response) :
    serves lib (conclude msg response) := by
  unfold conclude
  split_ifs with uncaught failed few
  · rfl
  · have next : msg.retries + 1 ≤ 5 := by omega
    exact Bool.and_eq_true_iff.mpr ⟨valid, decide_eq_true next⟩
  · rfl
  · rfl

theorem conclusion_sound {msg : OutboundPayload Headers} (valid : web lib msg) (response : Response) :
    ∀ event ∈ (conclusion msg response : List (Event Raw Headers)), sound lib event := by
  intro event member
  unfold conclusion at member
  split_ifs at member with uncaught failed few
  · obtain rfl := List.mem_singleton.mp member
    exact valid
  · cases member
  · obtain rfl := List.mem_singleton.mp member
    have late : 5 ≤ msg.retries := by omega
    simp [sound,valid,late]
  · obtain rfl := List.mem_singleton.mp member
    exact valid

section
variable {α : Type} {p : α → Prop} {entries : List α}

theorem forall_set (all : ∀ entry ∈ entries, p entry) (i : Nat) {entry : α} (new : p entry) :
    ∀ other ∈ entries.set i entry, p other := by
  intro other member
  obtain old | rfl := List.mem_or_eq_of_mem_set member
  · exact all other old
  · exact new

theorem forall_snoc (all : ∀ entry ∈ entries, p entry) {entry : α} (new : p entry) :
    ∀ other ∈ entries ++ [entry], p other := by
  intro other member
  obtain old | last := List.mem_append.mp member
  · exact all other old
  · exact List.mem_singleton.mp last ▸ new

end

theorem originals_valid {log : List (Event Raw Headers)} (valid : ∀ event ∈ log, sound lib event) :
    ∀ msg ∈ originals lib log, web lib msg := by
  intro msg member
  obtain ⟨event,logged,found⟩ := List.mem_filterMap.mp member
  cases event with
  | pushed row =>
    have here : deliverable lib row := valid _ logged
    unfold deliverable at here
    cases decoded : lib.from_bytes row with
    | error error => rw [decoded] at here; exact absurd here Bool.false_ne_true
    | ok other =>
      rw [decoded] at here
      simp only [decoded,Except.toOption,Option.some.injEq] at found
      exact found ▸ here
  | _ => cases found

/-- The topics are empty and the loops idle. -/
structure Empty (start : Fleet Raw Headers) : Prop extends Starts start where
  outbound : start.outbound = []
  retry : start.retry = ∅

theorem empty_valid {start : Fleet Raw Headers} (empty : Empty start) : Valid lib start where
  outbound := by simp [empty.outbound]
  retry := by simp [empty.retry]
  deliveries loop member := by rw [empty.deliveries loop member]; rfl
  retriers loop member := by rw [empty.retriers loop member]; rfl
  log := by simp [empty.log]

variable [DecidableEq Raw] {f f' start : Fleet Raw Headers} {a : Action Raw}
  {trace : List (Fleet Raw Headers × Action Raw)}

theorem step_valid (valid : Valid lib f) (step : Step lib f a f') (pushed : ∀ row, a = .push row → deliverable lib row) :
    Valid lib f' := by
  have at_loop {i : Nat} {loop : Delivering Headers} (here : f.deliveries[i]? = some loop) : serves lib loop :=
    valid.deliveries loop (List.mem_of_getElem? here)
  cases step with
  | push row =>
    have new : deliverable lib row := pushed row rfl
    exact { valid with outbound := forall_snoc valid.outbound new, log := List.forall_mem_cons.mpr ⟨new,valid.log⟩ }
  | redis_error => exact valid
  | blpop_none here empty => exact valid
  | blpop here queue =>
    obtain ⟨first,later⟩ := List.forall_mem_cons.mp (queue ▸ valid.outbound)
    exact { valid with outbound := later, deliveries := forall_set valid.deliveries _ (handle_serves first) }
  | post here =>
    have new : web lib _ := at_loop here
    exact { valid with
      deliveries := forall_set valid.deliveries _ new, log := List.forall_mem_cons.mpr ⟨new,valid.log⟩ }
  | respond response here =>
    have log : ∀ event ∈ conclusion _ response ++ f.log, sound lib event :=
      List.forall_mem_append.mpr ⟨conclusion_sound (at_loop here) response, valid.log⟩
    exact { valid with deliveries := forall_set valid.deliveries _ (conclude_serves (at_loop here) response), log := log }
  | dispatch sent here => exact absurd (at_loop here) Bool.false_ne_true
  | add_retry now here scored =>
    rename_i i msg score
    have new : web lib msg := (Bool.and_eq_true_iff.mp (at_loop here)).1
    have retry : ∀ row ∈ (zadd f.retry (lib.retry_msg msg) score).keys, deliverable lib row := by
      intro row member
      obtain rfl | old := mem_zadd.mp (AList.mem_keys.mpr member)
      · exact retry_deliverable new
      · exact valid.retry row (AList.mem_keys.mp old)
    have idle : serves lib .polling := rfl
    exact { valid with
      retry := retry
      deliveries := forall_set valid.deliveries _ idle
      log := List.forall_mem_cons.mpr ⟨new,valid.log⟩ }
  | add_retry_raises now here scored =>
    have new : web lib _ := (Bool.and_eq_true_iff.mp (at_loop here)).1
    have ended : serves lib .crashed := rfl
    exact { valid with
      deliveries := forall_set valid.deliveries _ ended, log := List.forall_mem_cons.mpr ⟨new,valid.log⟩ }
  | zrangebyscore now here =>
    have read : carries lib (.batch (SortedSets.zrangebyscore lib.before f.retry 0 now 10)) := rfl
    exact { valid with retriers := forall_set valid.retriers _ read }
  | zrem here answer =>
    rename_i j row rest left
    obtain ⟨there,rfl⟩ := zrem_one answer
    have new : deliverable lib row := valid.retry row (AList.mem_keys.mp there)
    have retry : ∀ row' ∈ (f.retry.erase row).keys, deliverable lib row' := by
      intro row' member
      rw [AList.keys_erase] at member
      exact valid.retry row' (List.mem_of_mem_erase member)
    exact { valid with
      retry := retry, retriers := forall_set valid.retriers _ new, log := List.forall_mem_cons.mpr ⟨new,valid.log⟩ }
  | zrem_none here answer =>
    rename_i j row rest left
    obtain ⟨-,rfl⟩ := zrem_zero answer
    have on : carries lib (.batch rest) := rfl
    exact { valid with retriers := forall_set valid.retriers _ on }
  | rpush here =>
    rename_i j row rest
    have new : deliverable lib row := valid.retriers _ (List.mem_of_getElem? here)
    have on : carries lib (.batch rest) := rfl
    exact { valid with
      outbound := forall_snoc valid.outbound new
      retriers := forall_set valid.retriers _ on
      log := List.forall_mem_cons.mpr ⟨new,valid.log⟩ }

theorem run_valid (empty : Empty start) (run : Run lib start trace f) (pushes : Pushes lib trace) : Valid lib f := by
  induction run with
  | start => exact empty_valid empty
  | @step trace f a f' _ step ih =>
    have before : Pushes lib trace := fun state row member => pushes state row (List.mem_cons_of_mem _ member)
    have pushed : ∀ row, a = .push row → deliverable lib row := fun row same => pushes f row (same ▸ List.mem_cons_self)
    exact step_valid (ih before) step pushed

/-- What was pushed is where it was put, or it was taken away. -/
theorem journey_account (w : Weights Headers) (empty : Empty start) (run : Run lib start trace f) :
    ((originals lib f.log).map (valued lib w.waiting)).sum =
      (journey lib w).pending f + (f.log.map (spent lib w)).sum := by
  have even := (run_balance (journey lib w) run).trans (starts_balance _ empty.toStarts)
  have logged : (f.log.map (journey lib w).event).sum =
      (f.log.map (spent lib w)).sum - (f.log.map (brought lib w)).sum := sum_map_sub _ _ _
  rw [empty.outbound,empty.retry] at even
  rw [Scale.balance,logged,brought_originals] at even
  have nothing : weigh (journey lib w).retry ∅ = 0 := rfl
  simp only [List.map_nil,List.sum_nil,nothing] at even
  omega

theorem valid_account (w : Weights Headers) (empty : Empty start) (run : Run lib start trace f)
    (pushes : Pushes lib trace) :
    ((originals lib f.log).map w.waiting).sum = (journey lib w).pending f + (f.log.map (spent lib w)).sum := by
  have valid := run_valid empty run pushes
  rw [← journey_account w empty run]
  exact congrArg List.sum (List.map_congr_left (fun msg member => (if_pos (originals_valid valid.log msg member)).symm))

/-- No more is pending than was pushed. -/
theorem pending_le (w : Weights Headers) (empty : Empty start) (run : Run lib start trace f)
    (pushes : Pushes lib trace) : (journey lib w).pending f ≤ ((originals lib f.log).map w.waiting).sum := by
  have account := valid_account w empty run pushes
  have gone : 0 ≤ (f.log.map (spent lib w)).sum := sum_map_nonneg _ (fun event _ => spent_nonneg lib w event)
  omega

end AcapyRedis.Journeys
