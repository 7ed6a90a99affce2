import AcapyRedis.Deliverer

/-!
One `process_retries` loop whose commands may raise before or after Redis executed them,
as a timeout or a dropped connection does, while other clients change the retry set and
the outbound topic at any time (`Step`). The loop tries a command that raised again and
takes the answer 0 of a `ZREM` to mean that another process removed the row; that is
wrong when an earlier try of its own removed it (`lost_reply_loses_row`).
-/
namespace AcapyRedis.Losses
open AcapyRedis.SortedSets AcapyRedis.Deliverer

variable {Raw : Type}

/-- What a command of the loop did to Redis. -/
inductive Effect (Raw : Type)
  | removed (row : Raw)
  | pushed (row : Raw)
  deriving DecidableEq

/-- The two topics, the loop, and the effects of its commands, newest first. -/
structure Retrier (Raw : Type) where
  outbound : List Raw
  retry : SortedSet Raw
  loop : Retrying Raw
  log : List (Effect Raw)

/-- What happens next. A command is `answered`, or it raises after it was executed. -/
inductive Action (Raw : Type)
  | others (outbound : List Raw) (retry : SortedSet Raw)
  | redis_error
  | zrangebyscore (now : Int)
  | zrem (answered : Bool)
  | rpush (answered : Bool)

namespace Retrier

/-- The answer of the `ZREM` of a row, and Redis after it. -/
def zrem [DecidableEq Raw] (r : Retrier Raw) (row : Raw) : Nat × Retrier Raw :=
  ((SortedSets.zrem r.retry row).1, { r with
    retry := (SortedSets.zrem r.retry row).2
    log := if (SortedSets.zrem r.retry row).1 = 0 then r.log else .removed row :: r.log })

/-- Redis after the `RPUSH` of a row. -/
def rpush (r : Retrier Raw) (row : Raw) : Retrier Raw :=
  { r with outbound := r.outbound ++ [row], log := .pushed row :: r.log }

/-- The loop after the answer of a `ZREM`. -/
def after_zrem (count : Nat) (row : Raw) (rest : List Raw) : Retrying Raw :=
  if count = 0 then .batch rest else .moving row rest

end Retrier

/-- Every row that the loop removed was pushed or is the one that it is about to push. -/
def Kept (r : Retrier Raw) : Prop :=
  ∀ row, .removed row ∈ r.log → .pushed row ∈ r.log ∨ ∃ rest, r.loop = .moving row rest

theorem rpush_kept {r : Retrier Raw} (kept : Kept r) {row : Raw} {rest : List Raw} (here : r.loop = .moving row rest)
    (loop : Retrying Raw) : Kept { r.rpush row with loop := loop } := by
  intro other removed
  left
  obtain same | earlier := List.mem_cons.mp removed
  · cases same
  obtain pushed | ⟨left,moving⟩ := kept other earlier
  · exact List.mem_cons_of_mem _ pushed
  · rw [here] at moving
    obtain ⟨rfl,_⟩ := Retrying.moving.inj moving
    exact List.mem_cons_self

variable [DecidableEq Raw]

/-- One command of the loop, or anything that other clients do to the topics. -/
inductive Step (before : Raw → Raw → Bool) : Retrier Raw → Action Raw → Retrier Raw → Prop
  | others {r : Retrier Raw} (outbound : List Raw) (retry : SortedSet Raw) :
      Step before r (.others outbound retry) { r with outbound := outbound, retry := retry }
  /-- A command raises that was not executed, or that only reads. -/
  | redis_error {r : Retrier Raw} : Step before r .redis_error r
  | zrangebyscore {r : Retrier Raw} (now : Int) : r.loop = .batch [] →
      Step before r (.zrangebyscore now)
        { r with loop := .batch (SortedSets.zrangebyscore before r.retry 0 now 10) }
  | zrem {r : Retrier Raw} (row : Raw) (rest : List Raw) : r.loop = .batch (row :: rest) →
      Step before r (.zrem true) { (r.zrem row).2 with loop := Retrier.after_zrem (r.zrem row).1 row rest }
  | zrem_unanswered {r : Retrier Raw} (row : Raw) (rest : List Raw) : r.loop = .batch (row :: rest) →
      Step before r (.zrem false) (r.zrem row).2
  | rpush {r : Retrier Raw} (row : Raw) (rest : List Raw) : r.loop = .moving row rest →
      Step before r (.rpush true) { r.rpush row with loop := .batch rest }
  | rpush_unanswered {r : Retrier Raw} (row : Raw) (rest : List Raw) : r.loop = .moving row rest →
      Step before r (.rpush false) (r.rpush row)

/-- A run: the states it went through with the action in each, newest first. -/
inductive Run (before : Raw → Raw → Bool) (start : Retrier Raw) :
    List (Retrier Raw × Action Raw) → Retrier Raw → Prop
  | start : Run before start [] start
  | step {trace r a r'} : Run before start trace r → Step before r a r' → Run before start ((r, a) :: trace) r'

/-- The topics as they are found, and a loop that has not done anything. -/
def Starts (r : Retrier Raw) : Prop := r.loop = .batch [] ∧ r.log = []

/-- A `ZREM` whose answer is lost does not find its row in the retry set. -/
def Accounted (r : Retrier Raw) : Action Raw → Prop
  | .zrem false => ∀ row rest, r.loop = .batch (row :: rest) → row ∉ r.retry
  | _ => True

/-! ### What is removed is pushed -/

section
variable {before : Raw → Raw → Bool} {r r' : Retrier Raw}

/-- A `ZREM` logs its row if it answers that it removed it. -/
theorem zrem_log (r : Retrier Raw) (row : Raw) :
    (row ∉ r.retry ∧ (r.zrem row).1 = 0 ∧ (r.zrem row).2.log = r.log) ∨
    (row ∈ r.retry ∧ (r.zrem row).1 = 1 ∧ (r.zrem row).2.log = .removed row :: r.log) := by
  by_cases there : row ∈ r.retry
  · right
    simp [Retrier.zrem,SortedSets.zrem,there]
  · left
    simp [Retrier.zrem,SortedSets.zrem,there]

theorem step_kept {a : Action Raw} (kept : Kept r) (accounted : Accounted r a) (step : Step before r a r') :
    Kept r' := by
  cases step with
  | others outbound retry => exact kept
  | redis_error => exact kept
  | zrangebyscore now idle =>
    intro row removed
    obtain pushed | ⟨rest,moving⟩ := kept row removed
    · exact .inl pushed
    · rw [idle] at moving
      cases moving
  | zrem row rest here =>
    have unmoved : ∀ other, .removed other ∈ r.log → .pushed other ∈ r.log := by
      intro other removed
      obtain pushed | ⟨left,moving⟩ := kept other removed
      · exact pushed
      · rw [here] at moving
        cases moving
    intro other removed
    obtain ⟨_,count,log⟩ | ⟨_,count,log⟩ := zrem_log r row
    · simp only [log] at removed ⊢
      exact .inl (unmoved other removed)
    · simp only [log,count] at removed ⊢
      obtain same | earlier := List.mem_cons.mp removed
      · cases same
        exact .inr ⟨rest, rfl⟩
      · exact .inl (List.mem_cons_of_mem _ (unmoved other earlier))
  | zrem_unanswered row rest here =>
    obtain ⟨_,_,log⟩ | ⟨there,_,_⟩ := zrem_log r row
    · intro other removed
      rw [log] at removed ⊢
      exact kept other removed
    · exact absurd there (accounted row rest here)
  | rpush row rest here => exact rpush_kept kept here (.batch rest)
  | rpush_unanswered row rest here => exact rpush_kept kept here r.loop

theorem run_kept {start : Retrier Raw} {trace : List (Retrier Raw × Action Raw)} (idle : Starts start)
    (run : Run before start trace r) (accounted : ∀ state ∈ trace, Accounted state.1 state.2) : Kept r := by
  induction run with
  | start =>
    intro row removed
    rw [idle.2] at removed
    cases removed
  | @step trace r a r' _ step ih =>
    have earlier := ih (fun state member => accounted state (List.mem_cons_of_mem _ member))
    exact step_kept earlier (accounted (r, a) List.mem_cons_self) step

/-- Between batches every row that the loop removed has been pushed, in every run in
    which a `ZREM` whose answer is lost removes nothing. -/
theorem removed_is_pushed {start : Retrier Raw} {trace : List (Retrier Raw × Action Raw)} (idle : Starts start)
    (run : Run before start trace r) (accounted : ∀ state ∈ trace, Accounted state.1 state.2)
    (between : r.loop = .batch []) (row : Raw) (removed : .removed row ∈ r.log) : .pushed row ∈ r.log := by
  obtain pushed | ⟨rest,moving⟩ := run_kept idle run accounted row removed
  · exact pushed
  · rw [between] at moving
    cases moving

end

/-! ### One row -/

/-- The order of rows that are numbers. -/
def least_first (a b : Nat) : Bool := decide (a ≤ b)

/-- The row 7 is due since the time 1. -/
def one_due : Retrier Nat := ⟨[], zadd ∅ 7 1, .batch [], []⟩

def batch_read : Retrier Nat := { one_due with loop := .batch [7] }

theorem one_due_starts : Starts one_due := ⟨rfl,rfl⟩

theorem reads_batch : Run least_first one_due [(one_due, .zrangebyscore 2)] batch_read :=
  .step .start (.zrangebyscore 2 rfl)

/-- The first `ZREM` removes the row, but its answer is lost; the second one answers 0. -/
theorem lost_reply_loses_row : Starts one_due ∧ ∃ trace r, Run least_first one_due trace r ∧
    r.loop = .batch [] ∧ .removed 7 ∈ r.log ∧ .pushed 7 ∉ r.log := by
  have first : Step least_first batch_read (.zrem false) ⟨[], ∅, .batch [7], [.removed 7]⟩ :=
    .zrem_unanswered 7 [] rfl
  have second : Step least_first ⟨[], ∅, .batch [7], [.removed 7]⟩ (.zrem true) ⟨[], ∅, .batch [], [.removed 7]⟩ :=
    .zrem 7 [] rfl
  exact ⟨one_due_starts, _, _, .step (.step reads_batch first) second, rfl, by decide, by decide⟩

/-- Here it is the answer of the `RPUSH` that is lost: the row is pushed twice. -/
theorem removed_is_pushed_twice : ∃ trace r, Run least_first one_due trace r ∧
    r.outbound = [7, 7] ∧ .pushed 7 ∈ r.log := by
  have first : Step least_first batch_read (.zrem true) ⟨[], ∅, .moving 7 [], [.removed 7]⟩ :=
    .zrem 7 [] rfl
  have second : Step least_first ⟨[], ∅, .moving 7 [], [.removed 7]⟩ (.rpush false)
      ⟨[7], ∅, .moving 7 [], [.pushed 7, .removed 7]⟩ := .rpush_unanswered 7 [] rfl
  have third : Step least_first ⟨[7], ∅, .moving 7 [], [.pushed 7, .removed 7]⟩ (.rpush true)
      ⟨[7, 7], ∅, .batch [], [.pushed 7, .pushed 7, .removed 7]⟩ := .rpush 7 [] rfl
  have run := Run.step (.step (.step reads_batch first) second) third
  refine ⟨_, _, run, rfl, removed_is_pushed one_due_starts run ?_ rfl 7 (by decide)⟩
  simp [Accounted]

end AcapyRedis.Losses
