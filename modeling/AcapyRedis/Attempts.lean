import AcapyRedis.Conservation

/-!
How often a message is posted. A message weighs the tries that it has left, so each POST
takes one away (`attempts`); what the weights forbid bounds the POSTs of all messages or of
those with one content. That no weight is lost while all POSTs fail and the contents differ
needs two more weights: how many messages have a content (`single`), and whether one has a
smaller retry count than the pushed one (`younger`).
-/
namespace AcapyRedis.Attempts
open AcapyRedis.Python AcapyRedis.SortedSets AcapyRedis.Sums AcapyRedis.Deliverer AcapyRedis.Scales
open AcapyRedis.Journeys AcapyRedis.Conservation

variable {Raw Headers : Type}

/-- What a POST sends. -/
structure Content (Headers : Type) where
  url : Text
  headers : Headers
  payload : Bytes
  deriving DecidableEq

def content (msg : OutboundPayload Headers) : Content Headers := ⟨msg.url, msg.headers, msg.payload⟩

/-- The tries that a message has left. -/
def tries (msg : OutboundPayload Headers) : Int := max 1 (6 - msg.retries)

/-- The message has a selected content. -/
def posts (selects : Content Headers → Bool) : Event Raw Headers → Bool
  | .posted msg => selects (content msg)
  | _ => false

/-- The tries left of the messages with a selected content. -/
def attempts (selects : Content Headers → Bool) : Weights Headers where
  waiting msg := if selects (content msg) then tries msg else 0
  posted msg := if selects (content msg) then tries msg - 1 else 0
  adding msg := if selects (content msg) then tries msg else 0
  again msg few := by
    have same : content msg.retried = content msg := rfl
    have one_less : tries msg.retried = tries msg - 1 := by
      simp only [tries,OutboundPayload.retried]
      omega
    simp only [same,one_less]
  posted_nonneg msg := by
    simp only [tries]
    split <;> omega
  posted_le msg := by
    split <;> omega
  waiting_le msg := Int.le_refl _

/-- The messages with a content. -/
def single [DecidableEq Headers] (c : Content Headers) : Weights Headers where
  waiting msg := one (decide (content msg = c))
  posted msg := one (decide (content msg = c))
  adding msg := one (decide (content msg = c))
  again _ _ := rfl
  posted_nonneg _ := one_nonneg _
  posted_le _ := Int.le_refl _
  waiting_le _ := Int.le_refl _

/-- The messages with a content that have been tried less often than `r` times, counted
    before they are added. -/
def younger [DecidableEq Headers] (c : Content Headers) (r : Int) : Weights Headers where
  waiting msg := one (decide (content msg = c ∧ msg.retries < r))
  posted msg := one (decide (content msg = c ∧ msg.retries < r))
  adding msg := one (decide (content msg = c ∧ msg.retries - 1 < r))
  again msg _ := by
    have same : content msg.retried = content msg := rfl
    have before : msg.retried.retries - 1 = msg.retries := Int.add_sub_cancel _ _
    rw [same,before]
  posted_nonneg _ := one_nonneg _
  posted_le _ := Int.le_refl _
  waiting_le msg := by
    by_cases same : content msg = c
    · by_cases older : msg.retries < r
      · have before : msg.retries - 1 < r := by omega
        simp [same,older,before]
      · simp [older,one_nonneg]
    · simp [same]

variable {lib : Library Raw Headers}

theorem posts_spent {selects : Content Headers → Bool} {event : Event Raw Headers} (valid : sound lib event) :
    one (posts selects event) ≤ spent lib (attempts selects) event := by
  cases event with
  | posted msg =>
    have kind : web lib msg := valid
    cases chosen : selects (content msg) <;> simp [posts,spent,valued,attempts,kind,chosen]
  | _ => exact spent_nonneg lib _ _

/-! ### When every POST fails -/

/-- A message with a selected content is lost. -/
def loses (selects : Content Headers → Bool) : Event Raw Headers → Bool
  | .added msg new => !new && selects (content msg)
  | .raised msg => selects (content msg)
  | .aborted msg => selects (content msg)
  | _ => false

/-- The topics are empty and no loop holds a message. -/
structure Drained (f : Fleet Raw Headers) : Prop where
  outbound : f.outbound = []
  retry : f.retry.keys = []
  deliveries : ∀ loop ∈ f.deliveries, holds loop = false
  retriers : ∀ loop ∈ f.retriers, carrying loop = false

/-- The action is not the success of a POST. -/
def fails : Action Raw → Bool
  | .respond _ response => response.failed
  | _ => true

section
variable [DecidableEq Headers] {log : List (Event Raw Headers)} {original : OutboundPayload Headers}

theorem single_once (different : ((originals lib log).map content).Nodup) (member : original ∈ originals lib log) :
    ((originals lib log).map (single (content original)).waiting).sum = 1 := by
  have unique := sum_map_unique content (fun _ => 1) different member
  simpa only [single,one,decide_eq_true_eq] using unique

theorem younger_none (different : ((originals lib log).map content).Nodup) (member : original ∈ originals lib log) :
    ((originals lib log).map (younger (content original) original.retries).waiting).sum = 0 := by
  refine sum_map_zero _ (fun other inside => ?_)
  by_cases same : content other = content original
  · have itself : other = original := List.inj_on_of_nodup_map different inside member same
    simp [younger,itself]
  · simp [younger,same]

end

theorem drained_pending {f : Fleet Raw Headers} (w : Weights Headers) (drained : Drained f) :
    (journey lib w).pending f = 0 := by
  have held : (f.deliveries.map (journey lib w).delivering).sum = 0 := by
    refine sum_map_zero _ (fun loop member => ?_)
    have free := drained.deliveries loop member
    cases loop with
    | received | posted | adding => cases free
    | _ => rfl
  have carried : (f.retriers.map (journey lib w).retrying).sum = 0 := by
    refine sum_map_zero _ (fun loop member => ?_)
    have free := drained.retriers loop member
    cases loop with
    | moving => cases free
    | batch => rfl
  rw [Scale.pending,held,carried,weigh,drained.outbound,drained.retry]
  rfl

/-- An event that neither delivers nor loses takes the tries away that it makes. -/
theorem spent_posts {selects : Content Headers → Bool} {event : Event Raw Headers} (valid : sound lib event)
    (undelivered : delivered event = false) (kept : loses selects event = false) :
    spent lib (attempts selects) event = one (posts selects event) := by
  cases event with
  | posted msg =>
    have kind : web lib msg := valid
    cases chosen : selects (content msg) <;> simp [posts,spent,valued,attempts,kind,chosen]
  | dropped msg =>
    have late : 5 ≤ msg.retries := of_decide_eq_true (Bool.and_eq_true_iff.mp valid).2
    have last : tries msg - 1 = 0 := by
      rw [tries]
      omega
    simp [posts,spent,valued,attempts,last]
  | added msg new =>
    cases new with
    | false =>
      have other : selects (content msg) = false := kept
      simp [posts,spent,valued,attempts,other]
    | true => exact Int.sub_self _
  | delivered => cases undelivered
  | raised msg | aborted msg =>
    have other : selects (content msg) = false := kept
    simp [posts,spent,valued,attempts,other]
  | _ => rfl

variable [DecidableEq Raw] {f start : Fleet Raw Headers} {trace : List (Fleet Raw Headers × Action Raw)}

/-- The POSTs of the messages with a selected content. -/
theorem posts_le (selects : Content Headers → Bool) (empty : Empty start) (run : Run lib start trace f)
    (pushes : Pushes lib trace) :
    f.log.countP (posts selects) ≤
      ((originals lib f.log).map (fun msg => if selects (content msg) then tries msg else 0)).sum := by
  have valid := run_valid empty run pushes
  have account := valid_account (attempts selects) empty run pushes
  have kept := pending_nonneg lib (attempts selects) f
  have made : (f.log.map (fun event => one (posts selects event))).sum ≤
      (f.log.map (spent lib (attempts selects))).sum :=
    List.sum_le_sum (fun event member => posts_spent (valid.log event member))
  rw [sum_map_one] at made
  simp only [attempts] at account kept made
  omega

/-- A message in `add_retry` weighs no more than what was pushed, beside the retry set. -/
theorem adding_le (w : Weights Headers) (empty : Empty start) (run : Run lib start trace f) (pushes : Pushes lib trace)
    {msg : OutboundPayload Headers} (held : Delivering.adding msg ∈ f.deliveries) :
    w.adding msg + weigh (lifted lib w.waiting) f.retry ≤ ((originals lib f.log).map w.waiting).sum := by
  have kind : web lib msg := (Bool.and_eq_true_iff.mp ((run_valid empty run pushes).deliveries _ held)).1
  have itself : (journey lib w).delivering (.adding msg) = w.adding msg := if_pos kind
  have counted := (held_le_pending lib w held).trans (pending_le w empty run pushes)
  rwa [itself] at counted

section
variable [DecidableEq Headers]

theorem adding_original (empty : Empty start) (run : Run lib start trace f) (pushes : Pushes lib trace)
    {msg : OutboundPayload Headers} (held : Delivering.adding msg ∈ f.deliveries) :
    ∃ original ∈ originals lib f.log, content original = content msg := by
  by_contra none
  have counted := adding_le (single (content msg)) empty run pushes held
  have itself : (single (content msg)).adding msg = 1 := by simp [single]
  have others := retry_nonneg lib (single (content msg)) f.retry
  have zero : ((originals lib f.log).map (single (content msg)).waiting).sum = 0 := by
    refine sum_map_zero _ (fun other member => ?_)
    have differs : content other ≠ content msg := fun same => none ⟨other,member,same⟩
    simp [single,differs]
  omega

/-- A message in `add_retry` is not in the retry set, and its retry count converts to a
    float when the one that was pushed does. -/
theorem adding_spared (empty : Empty start) (run : Run lib start trace f) (pushes : Pushes lib trace)
    (different : ((originals lib f.log).map content).Nodup) {msg : OutboundPayload Headers}
    (held : Delivering.adding msg ∈ f.deliveries)
    (fits : ∀ original ∈ originals lib f.log, content original = content msg →
      -(float_limit : Int) < original.retries) :
    lib.retry_msg msg ∉ f.retry ∧ fits_float (msg.retries - 1) := by
  obtain ⟨kind,few⟩ := Bool.and_eq_true_iff.mp ((run_valid empty run pushes).deliveries _ held)
  have kind : web lib msg = true := kind
  obtain ⟨original,member,same⟩ := adding_original empty run pushes held
  constructor
  · intro there
    have counted := adding_le (single (content original)) empty run pushes held
    have itself : (single (content original)).adding msg = 1 := by simp [single,same]
    have found : lifted lib (single (content original)).waiting (lib.retry_msg msg) = 1 := by
      simp [lifted,lib.round_trip,valued,kind,single,same]
    have second : lifted lib (single (content original)).waiting (lib.retry_msg msg) ≤
        weigh (lifted lib (single (content original)).waiting) f.retry :=
      le_sum_map _ (fun row _ => lifted_nonneg lib _ row) (AList.mem_keys.mp there)
    rw [single_once different member] at counted
    omega
  · have counted := adding_le (younger (content original) original.retries) empty run pushes held
    rw [younger_none different member] at counted
    have others := retry_nonneg lib (younger (content original) original.retries) f.retry
    have older : ¬ msg.retries - 1 < original.retries := by
      intro less
      have itself : (younger (content original) original.retries).adding msg = 1 :=
        congrArg one (decide_eq_true ⟨same.symm,less⟩)
      omega
    have first := fits original member same
    have last : msg.retries ≤ 5 := of_decide_eq_true few
    have room : 5 < float_limit := by decide +kernel
    have small : (msg.retries - 1).natAbs < float_limit := by omega
    exact decide_eq_true small

/-- While all POSTs fail and the contents differ, a message is not lost when its retry count
    converts to a float. -/
theorem run_keeps (c : Content Headers) (empty : Empty start) (run : Run lib start trace f) (pushes : Pushes lib trace)
    (failed : ∀ step ∈ trace, fails step.2) (different : ((originals lib f.log).map content).Nodup)
    (fits : ∀ original ∈ originals lib f.log, content original = c → -(float_limit : Int) < original.retries) :
    ∀ event ∈ f.log, loses (fun other => decide (other = c)) event = false := by
  induction run with
  | start => simp [empty.log]
  | @step trace f a f' run step ih =>
    have fewer : Pushes lib trace := fun state row pushed => pushes state row (List.mem_cons_of_mem _ pushed)
    have sublist : (originals lib f.log).Sublist (originals lib f'.log) := (step_log step).sublist.filterMap _
    have different' := different.sublist (sublist.map content)
    have fits' := fun original there same => fits original (sublist.subset there) same
    obtain ⟨here_fails,past⟩ := List.forall_mem_cons.mp failed
    have before := ih fewer past different' fits'
    have spared {msg : OutboundPayload Headers} (held : .adding msg ∈ f.deliveries) (same : content msg = c) :=
      adding_spared empty run fewer different' held (fun original there alike => fits' original there (alike.trans same))
    cases step with
    | respond response here =>
      have unsuccessful : response.failed := here_fails
      refine List.forall_mem_append.mpr ⟨fun event member => ?_, before⟩
      rw [conclusion,if_neg (Bool.eq_false_iff.mp (failed_caught unsuccessful)),if_pos unsuccessful] at member
      split at member
      · cases member
      · rw [List.mem_singleton.mp member]
        rfl
    | add_retry now here scored =>
      rename_i i msg score
      refine List.forall_mem_cons.mpr ⟨?_, before⟩
      by_cases same : content msg = c
      · simp [loses,(spared (List.mem_of_getElem? here) same).1]
      · simp [loses,same]
    | add_retry_raises now here scored =>
      rename_i i msg error
      refine List.forall_mem_cons.mpr ⟨?_, before⟩
      by_cases same : content msg = c
      · exact absurd (spared (List.mem_of_getElem? here) same).2 (Bool.eq_false_iff.mp (retry_score_error scored))
      · simp [loses,same]
    | push | post | zrem | rpush => exact List.forall_mem_cons.mpr ⟨rfl,before⟩
    | _ => exact before

end

theorem fails_delivers_none (starts : Starts start) (run : Run lib start trace f)
    (failed : ∀ step ∈ trace, fails step.2) :
    ∀ event ∈ f.log, delivered event = false := by
  induction run with
  | start => simp [starts.log]
  | @step trace f a f' _ step ih =>
    obtain ⟨now,past⟩ := List.forall_mem_cons.mp failed
    have before := ih past
    cases step with
    | respond response here =>
      have unsuccessful : response.failed := now
      refine List.forall_mem_append.mpr ⟨fun event member => ?_, before⟩
      rw [conclusion,if_neg (Bool.eq_false_iff.mp (failed_caught unsuccessful)),if_pos unsuccessful] at member
      split at member
      · cases member
      · rw [List.mem_singleton.mp member]
        rfl
    | push | post | add_retry | add_retry_raises | zrem | rpush => exact List.forall_mem_cons.mpr ⟨rfl,before⟩
    | _ => exact before

/-- The number of POSTs of a message when all fail. -/
theorem posts_exact [DecidableEq Headers] (empty : Empty start) (run : Run lib start trace f)
    (pushes : Pushes lib trace) (failed : ∀ step ∈ trace, fails step.2)
    (different : ((originals lib f.log).map content).Nodup) (drained : Drained f)
    {original : OutboundPayload Headers} (member : original ∈ originals lib f.log)
    (fits : -(float_limit : Int) < original.retries) :
    f.log.countP (posts fun c => decide (c = content original)) = tries original := by
  have valid := run_valid empty run pushes
  have account := valid_account (attempts fun c => decide (c = content original)) empty run pushes
  have undelivered := fails_delivers_none empty.toStarts run failed
  have kept := run_keeps (content original) empty run pushes failed different (fun other inside same =>
    List.inj_on_of_nodup_map different inside member same ▸ fits)
  have unique := sum_map_unique content tries different member
  rw [drained_pending _ drained,List.map_congr_left (fun event inside =>
    spent_posts (valid.log event inside) (undelivered event inside) (kept event inside)),sum_map_one] at account
  simp only [attempts,decide_eq_true_eq,unique] at account
  omega

/-- Every POST sends the content of a pushed message. -/
theorem posts_original [DecidableEq Headers] (empty : Empty start) (run : Run lib start trace f)
    (pushes : Pushes lib trace) {msg : OutboundPayload Headers} (logged : .posted msg ∈ f.log) :
    ∃ original ∈ originals lib f.log, content original = content msg := by
  by_contra none
  have bound := posts_le (fun c => decide (c = content msg)) empty run pushes
  have zero : ((originals lib f.log).map
      (fun other => if decide (content other = content msg) then tries other else 0)).sum = 0 := by
    refine sum_map_zero _ (fun other member => ?_)
    have differs : content other ≠ content msg := fun same => none ⟨other,member,same⟩
    simp [differs]
  have made : 0 < f.log.countP (posts fun c => decide (c = content msg)) :=
    List.countP_pos_iff.mpr ⟨_, logged, by simp [posts]⟩
  omega

/-- All messages together are posted no more often than their retry counts allow, every POST
    sends the content of a pushed message, and when all POSTs fail and the contents differ, a
    message with a retry count that converts to a float is posted as often as allowed. -/
theorem bounded_attempts [DecidableEq Headers] (empty : Empty start) (run : Run lib start trace f)
    (pushes : Pushes lib trace) :
    f.log.countP (posts fun _ => true) ≤ ((originals lib f.log).map tries).sum ∧
    (∀ msg, .posted msg ∈ f.log → ∃ original ∈ originals lib f.log, content original = content msg) ∧
    ((∀ step ∈ trace, fails step.2) → ((originals lib f.log).map content).Nodup → Drained f →
      ∀ original ∈ originals lib f.log, -(float_limit : Int) < original.retries →
        f.log.countP (posts fun c => decide (c = content original)) = tries original) :=
  ⟨posts_le (fun _ => true) empty run pushes, fun _ logged => posts_original empty run pushes logged,
    fun failed different drained _ member fits => posts_exact empty run pushes failed different drained member fits⟩

/-- A message with two tries left is posted twice. -/
theorem bounded_attempts_two : ∃ trace f, Run plain one_each trace f ∧ originals plain f.log = [sample 1 4] ∧
    f.log.countP (posts fun c => decide (c = content (sample 1 4))) = tries (sample 1 4) ∧ tries (sample 1 4) = 2 := by
  have fits : fits_float ((sample 1 5).retries - 1) := by decide +kernel
  have popped : Run plain one_each _ _ := .step (.step .start (.push (sample 1 4))) (.blpop (i := 0) rfl rfl)
  have failed : Run plain one_each _ _ := .step (.step popped (.post (i := 0) rfl)) (.respond (i := 0) .ClientError rfl)
  have added : Run plain one_each _ _ := .step failed (.add_retry (i := 0) 100 rfl (plain_score fits))
  have moving : Run plain one_each _ _ := .step (.step added (.zrangebyscore (j := 0) 200 rfl)) (.zrem (j := 0) rfl rfl)
  have popped_again : Run plain one_each _ _ := .step (.step moving (.rpush (j := 0) rfl)) (.blpop (i := 0) rfl rfl)
  have dropped : Run plain one_each _ _ :=
    .step (.step popped_again (.post (i := 0) rfl)) (.respond (i := 0) .ClientError rfl)
  have exact_count := (bounded_attempts one_each_empty dropped (fun _ _ _ => rfl)).2.2
    (by decide +kernel) (by decide +kernel) ⟨rfl, rfl, by decide +kernel, by decide +kernel⟩ (sample 1 4)
    (by decide +kernel) (by decide +kernel)
  exact ⟨_, _, dropped, rfl, exact_count, rfl⟩

/-- A message with a retry count that does not convert to a float. -/
def huge : OutboundPayload Unit := sample 1 (- 2 ^ 1024)

/-- The retry count ends the loop after one POST. -/
theorem huge_count_posted_once : ∃ trace f, Empty one_each ∧ Run plain one_each trace f ∧ Pushes plain trace ∧
    (∀ step ∈ trace, fails step.2) ∧ ((originals plain f.log).map content).Nodup ∧ Drained f ∧
    originals plain f.log = [huge] ∧
    f.log.countP (posts fun c => decide (c = content huge)) ≠ tries huge := by
  have large : fits_float (huge.retried.retries - 1) = false := by decide +kernel
  have few : huge.retries < 5 := by decide +kernel
  have again : conclude huge .ClientError = .adding huge.retried := by
    simp only [conclude,Response.raises,Response.failed,few,Bool.false_eq_true,↓reduceIte]
  have popped : Run plain one_each _ _ := .step (.step .start (.push huge)) (.blpop (i := 0) rfl rfl)
  have failed : Run plain one_each _ _ := .step (.step popped (.post (i := 0) rfl)) (.respond (i := 0) .ClientError rfl)
  have raised : Run plain one_each _ _ :=
    .step failed (.add_retry_raises (i := 0) 100 (congrArg some again) (plain_raises large))
  exact ⟨_, _, one_each_empty, raised, fun _ _ _ => rfl, by decide +kernel, by decide +kernel,
    ⟨rfl, rfl, by decide +kernel, by decide +kernel⟩, by decide +kernel, by decide +kernel⟩

end AcapyRedis.Attempts
