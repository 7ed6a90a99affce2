import AcapyRedis.Journeys

/-!
Where a pushed message can be. Each message weighs 1 on its whole way, so a message is
only lost by an event that takes it out of a loop and puts it nowhere: a `ZADD` of a member
that is already in the retry set, or an error of `add_retry` or of a POST that the loop does
not catch.
-/
namespace AcapyRedis.Conservation
open AcapyRedis.Python AcapyRedis.SortedSets AcapyRedis.Sums AcapyRedis.Deliverer AcapyRedis.Scales
open AcapyRedis.Journeys

variable {Raw Headers : Type}

/-- The loop holds a message between two commands. -/
def holds : Delivering Headers → Bool
  | .received _ => true
  | .posted _ => true
  | .adding _ => true
  | _ => false

def carrying : Retrying Raw → Bool
  | .moving _ _ => true
  | .batch _ => false

def pushed : Event Raw Headers → Bool
  | .pushed _ => true
  | _ => false

/-- A POST was answered with a 2xx status. -/
def delivered : Event Raw Headers → Bool
  | .delivered _ => true
  | _ => false

/-- A message was given up after its last try. -/
def dropped : Event Raw Headers → Bool
  | .dropped msg => decide (5 ≤ msg.retries)
  | _ => false

def lost : Event Raw Headers → Bool
  | .added _ new => !new
  | .raised _ => true
  | .aborted _ => true
  | _ => false

/-- Every pushed message is in a topic, held by a loop, delivered or given up. -/
def Conserved (f : Fleet Raw Headers) : Prop :=
  f.log.countP pushed =
    f.outbound.length + f.retry.keys.length + (f.deliveries.countP holds + f.retriers.countP carrying) +
      f.log.countP delivered + f.log.countP dropped

theorem valued_one {lib : Library Raw Headers} {msg : OutboundPayload Headers} (valid : web lib msg) :
    valued lib (fun _ => 1) msg = 1 := if_pos valid

theorem lifted_one {lib : Library Raw Headers} {row : Raw} (valid : deliverable lib row) :
    lifted lib (fun _ => 1) row = 1 := by
  unfold deliverable at valid
  unfold lifted
  split at valid
  · next msg decoded => simp only [valued,valid,↓reduceIte]
  · exact absurd valid Bool.false_ne_true

/-- Every message weighs 1. -/
def each : Weights Headers where
  waiting _ := 1
  posted _ := 1
  adding _ := 1
  again _ _ := rfl
  posted_nonneg _ := Int.one_nonneg
  posted_le _ := Int.le_refl 1
  waiting_le _ := Int.le_refl 1

theorem delivering_counted {lib : Library Raw Headers} {loop : Delivering Headers} (valid : serves lib loop) :
    (journey lib each).delivering loop = one (holds loop) := by
  cases loop with
  | received msg => exact valued_one valid
  | posted msg => exact valued_one valid
  | adding msg => exact valued_one (Bool.and_eq_true_iff.mp valid).1
  | _ => rfl

theorem retrying_counted {lib : Library Raw Headers} {loop : Retrying Raw} (valid : carries lib loop) :
    (journey lib each).retrying loop = one (carrying loop) := by
  cases loop with
  | moving row rest => exact lifted_one valid
  | batch rows => rfl

theorem spent_counted {lib : Library Raw Headers} {event : Event Raw Headers} (valid : sound lib event) :
    spent lib each event = one (delivered event) + one (dropped event) + one (lost event) := by
  cases event with
  | delivered msg => exact valued_one valid
  | dropped msg =>
    obtain ⟨kind,late⟩ := Bool.and_eq_true_iff.mp valid
    have gone : spent lib each (.dropped msg : Event Raw Headers) = 1 := valued_one kind
    simp only [gone,delivered,dropped,lost,late,one_true,one_false]
    rfl
  | added msg new =>
    have kind : web lib msg := valid
    cases new <;> simp [spent,each,valued,kind,delivered,dropped,lost]
  | raised msg => exact valued_one valid
  | aborted msg => exact valued_one valid
  | posted msg => exact Int.sub_self _
  | _ => rfl

theorem brought_counted {lib : Library Raw Headers} {event : Event Raw Headers} (valid : sound lib event) :
    brought lib each event = one (pushed event) := by
  cases event with
  | pushed row => exact lifted_one valid
  | _ => rfl

theorem conclusion_loses (msg : OutboundPayload Headers) (response : Response) :
    (conclusion msg response : List (Event Raw Headers)).countP lost = if response.raises then 1 else 0 := by
  unfold conclusion
  split_ifs <;> rfl

variable [DecidableEq Raw]

/-- The command is not a `ZADD` of a member that is already there, no retry count of
    `add_retry` is too large for a float, and no POST ends with an exception other than
    `ClientError` and `TimeoutError`. -/
def spares (lib : Library Raw Headers) (f : Fleet Raw Headers) : Action Raw → Bool
  | .respond _ response => !response.raises
  | .add_retry i _ =>
    match f.deliveries[i]? with
    | some (.adding msg) => decide (lib.retry_msg msg ∉ f.retry) && fits_float (msg.retries - 1)
    | _ => true
  | _ => true

variable {lib : Library Raw Headers} {f f' start : Fleet Raw Headers} {a : Action Raw}
  {trace : List (Fleet Raw Headers × Action Raw)}

/-- The whole account: what is pushed is somewhere or lost. -/
theorem pushed_somewhere (empty : Empty start) (run : Run lib start trace f) (pushes : Pushes lib trace) :
    f.log.countP pushed =
      f.outbound.length + f.retry.keys.length + (f.deliveries.countP holds + f.retriers.countP carrying) +
        f.log.countP delivered + f.log.countP dropped + f.log.countP lost := by
  have valid := run_valid empty run pushes
  have account := journey_account each empty run
  rw [← brought_originals,List.map_congr_left (fun event member => brought_counted (valid.log event member)),sum_map_one,
    List.map_congr_left (fun event member => spent_counted (valid.log event member)),List.sum_map_add,
    List.sum_map_add] at account
  have waiting : (f.outbound.map (journey lib each).outbound).sum = f.outbound.length :=
    sum_map_length _ (fun row member => lifted_one (valid.outbound row member))
  have retry : weigh (journey lib each).retry f.retry = f.retry.keys.length :=
    sum_map_length _ (fun row member => lifted_one (valid.retry row member))
  have held : (f.deliveries.map (journey lib each).delivering).sum = f.deliveries.countP holds :=
    sum_map_countP _ _ (fun loop member => delivering_counted (valid.deliveries loop member))
  have carried : (f.retriers.map (journey lib each).retrying).sum = f.retriers.countP carrying :=
    sum_map_countP _ _ (fun loop member => retrying_counted (valid.retriers loop member))
  rw [Scale.pending,waiting,retry,held,carried,sum_map_one,sum_map_one,sum_map_one] at account
  omega

/-- A step loses a message when it does not spare it. -/
theorem step_loses (step : Step lib f a f') :
    f'.log.countP lost = f.log.countP lost + if !spares lib f a then 1 else 0 := by
  cases step with
  | respond response here =>
    rw [List.countP_append,conclusion_loses,Nat.add_comm]
    simp [spares]
  | add_retry now here scored =>
    have fits := retry_score_ok scored
    simp only [spares,here,fits,Bool.and_true,List.countP_cons,lost]
    split <;> simp_all
  | add_retry_raises now here scored =>
    have large := retry_score_error scored
    simp only [spares,here,large,Bool.and_false,List.countP_cons,lost]
    rfl
  | _ => simp [spares,lost]

theorem run_loses (run : Run lib start trace f) (starts : Starts start) :
    f.log.countP lost = trace.countP (fun step => !spares lib step.1 step.2) := by
  induction run with
  | start => rw [starts.log]; rfl
  | step _ step ih =>
    rw [step_loses step,ih,List.countP_cons]

theorem none_lost (run : Run lib start trace f) (starts : Starts start) :
    f.log.countP lost = 0 ↔ ∀ step ∈ trace, spares lib step.1 step.2 := by
  rw [run_loses run starts]
  simp [List.countP_eq_zero]

/-- At the end of a run all messages are accounted for exactly when every step has spared them. -/
theorem conserved_end (empty : Empty start) (run : Run lib start trace f) (pushes : Pushes lib trace) :
    Conserved f ↔ ∀ step ∈ trace, spares lib step.1 step.2 := by
  have account := pushed_somewhere empty run pushes
  rw [← none_lost run empty.toStarts,Conserved]
  omega

/-- In every state of a run all messages are accounted for exactly when no step adds a retry
    that is already in the set, none fails on the size of a retry count and no POST raises an
    error that the loop does not catch. -/
theorem conserved_iff_spared (empty : Empty start) (run : Run lib start trace f) (pushes : Pushes lib trace) :
    (Conserved f ∧ ∀ step ∈ trace, Conserved step.1) ↔ ∀ step ∈ trace, spares lib step.1 step.2 := by
  constructor
  · rintro ⟨now,-⟩
    exact (conserved_end empty run pushes).mp now
  · intro spared
    refine ⟨(conserved_end empty run pushes).mpr spared, ?_⟩
    rintro ⟨g,a⟩ member
    obtain ⟨earlier,before,inside⟩ := run_reaches run member
    have fewer : Pushes lib earlier := fun state row pushed => pushes state row (inside pushed)
    exact (conserved_end empty before fewer).mpr (fun step past => spared step (inside past))

/-- One loop of each kind and nothing in the topics. -/
def one_each : Fleet (OutboundPayload Unit) Unit where
  outbound := []
  retry := ∅
  deliveries := [.polling]
  retriers := [.batch []]
  log := []

theorem one_each_empty : Empty one_each where
  deliveries := by simp [one_each]
  retriers := by simp [one_each]
  log := rfl
  outbound := rfl
  retry := rfl

/-- A POST fails and its message is added for another try. -/
theorem conserved_one_failure : ∃ trace f, Run plain one_each trace f ∧ f.retry.keys = [sample 1 1] ∧
    (Conserved f ∧ ∀ step ∈ trace, Conserved step.1) := by
  have fits : fits_float ((sample 1 1).retries - 1) := by decide +kernel
  have popped : Run plain one_each _ _ :=
    .step (.step .start (.push (sample 1 0))) (.blpop (i := 0) rfl rfl)
  have failed : Run plain one_each _ _ :=
    .step (.step popped (.post (i := 0) rfl)) (.respond (i := 0) (.status 500) rfl)
  have added : Run plain one_each _ _ := .step failed (.add_retry (i := 0) 100 rfl (plain_score fits))
  exact ⟨_, _, added, rfl, (conserved_iff_spared one_each_empty added (fun _ _ _ => rfl)).mpr (by decide +kernel)⟩

/-- Two equal messages fail one after the other, and the retry set keeps one of them. -/
theorem equal_retries_merge :
    ∃ trace f, Empty one_each ∧ Run plain one_each trace f ∧ Pushes plain trace ∧ ¬ Conserved f := by
  have fits : fits_float ((sample 1 1).retries - 1) := by decide +kernel
  have first : Run plain one_each _ _ :=
    .step (.step (.step .start (.push (sample 1 0))) (.push (sample 1 0))) (.blpop (i := 0) rfl rfl)
  have first_failed : Run plain one_each _ _ :=
    .step (.step first (.post (i := 0) rfl)) (.respond (i := 0) .TimeoutError rfl)
  have second : Run plain one_each _ _ :=
    .step (.step first_failed (.add_retry (i := 0) 100 rfl (plain_score fits)))
      (.blpop (i := 0) rfl rfl)
  have second_failed : Run plain one_each _ _ :=
    .step (.step second (.post (i := 0) rfl)) (.respond (i := 0) .TimeoutError rfl)
  have merged : Run plain one_each _ _ :=
    .step second_failed (.add_retry (i := 0) 101 rfl (plain_score fits))
  exact ⟨_, _, one_each_empty, merged, fun state row _ => rfl, by unfold Conserved; decide +kernel⟩

end AcapyRedis.Conservation
