import AcapyRedis.Scales

/-!
The retry set between concurrent deliverers. Several `process_retries` loops read
overlapping batches; whether a `ZREM` answers 1 decides which of them moves a member to
the outbound topic. `handover` counts the moves of one member, `stay` when it is in the set.
-/
namespace AcapyRedis.Retries
open AcapyRedis.Python AcapyRedis.SortedSets AcapyRedis.Sums AcapyRedis.Deliverer AcapyRedis.Scales

variable {Raw Headers : Type} [DecidableEq Raw]

/-- A loop has removed the member and not pushed it yet. -/
def moves (m : Raw) : Retrying Raw → Bool
  | .moving row _ => decide (row = m)
  | .batch _ => false

def removes (m : Raw) : Event Raw Headers → Bool
  | .removed row => decide (row = m)
  | _ => false

def repushes (m : Raw) : Event Raw Headers → Bool
  | .repushed row => decide (row = m)
  | _ => false

/-- A `ZADD` has put the member in the set. -/
def adds (lib : Library Raw Headers) (m : Raw) : Event Raw Headers → Bool
  | .added msg new => new && decide (lib.retry_msg msg = m)
  | _ => false

variable (lib : Library Raw Headers) (m : Raw)

/-- A removal is a push that is made or still to be made. -/
def handover : Scale lib where
  outbound _ := 0
  retry _ := 0
  delivering _ := 0
  retrying loop := - one (moves m loop)
  event e := one (removes m e) - one (repushes m e)
  polling := rfl
  crashed := rfl
  batch _ := rfl
  push _ := rfl
  blpop _ := rfl
  post _ := rfl
  respond msg response := by
    unfold conclusion
    split_ifs <;> simp [removes,repushes]
  dispatch _ := rfl
  added _ := rfl
  merged _ := rfl
  raised _ := rfl
  removed row rest := by simp [removes,repushes,moves]
  repushed row rest := by simp [removes,repushes,moves]

/-- A member is in the set since it was added and until it is removed. -/
def stay : Scale lib where
  outbound _ := 0
  retry row := one (decide (row = m))
  delivering _ := 0
  retrying _ := 0
  event e := one (removes m e) - one (adds lib m e)
  polling := rfl
  crashed := rfl
  batch _ := rfl
  push _ := rfl
  blpop _ := rfl
  post _ := rfl
  respond msg response := by
    unfold conclusion
    split_ifs <;> simp [removes,adds]
  dispatch _ := rfl
  added msg := by simp [removes,adds]
  merged _ := rfl
  raised _ := rfl
  removed row rest := by simp [removes,adds]
  repushed _ _ := rfl

variable {lib} {start f : Fleet Raw Headers} {trace : List (Fleet Raw Headers × Action Raw)}

/-- Of each member there are as many removals as pushes made or still to be made, and as
    many as the times it was put in the set and is not in it any more. -/
theorem handed_over_once (starts : Starts start) (run : Run lib start trace f) :
    f.log.countP (removes m) = f.log.countP (repushes m) + f.retriers.countP (moves m) ∧
    f.log.countP (removes m) + (if m ∈ f.retry then 1 else 0) =
      (if m ∈ start.retry then 1 else 0) + f.log.countP (adds lib m) ∧
    ((∀ loop ∈ f.retriers, moves m loop = false) → f.log.countP (removes m) = f.log.countP (repushes m)) := by
  have moved : f.log.countP (removes m) = f.log.countP (repushes m) + f.retriers.countP (moves m) := by
    have even := (run_balance (handover lib m) run).trans (starts_balance (handover lib m) starts)
    simp only [Scale.balance,Scale.pending,handover,sum_map_nothing,weigh_nothing,sum_map_neg,sum_map_sub,
      sum_map_one] at even
    omega
  refine ⟨moved, ?_, fun free => ?_⟩
  · have even := (run_balance (stay lib m) run).trans (starts_balance (stay lib m) starts)
    simp only [Scale.balance,Scale.pending,stay,sum_map_nothing,weigh_member,sum_map_sub,sum_map_one] at even
    simp only [one_decide] at even
    omega
  · have none_moves : f.retriers.countP (moves m) = 0 :=
      List.countP_eq_zero.mpr (fun loop member => by simp [free loop member])
    omega

/-- Two loops and a due member. -/
def two_retriers : Fleet (OutboundPayload Unit) Unit where
  outbound := []
  retry := zadd ∅ (sample 1 1) 5
  deliveries := []
  retriers := [.batch [], .batch []]
  log := []

/-- Both loops read the member, and the one that removes it first pushes it. -/
theorem handed_over_once_shared : ∃ trace f, Run plain two_retriers trace f ∧
    f.log.countP (removes (sample 1 1)) = f.log.countP (repushes (sample 1 1)) + f.retriers.countP (moves (sample 1 1)) ∧
    f.outbound = [sample 1 1] := by
  have reads : Run plain two_retriers _ _ :=
    .step (.step .start (.zrangebyscore (j := 0) 9 rfl)) (.zrangebyscore (j := 1) 9 rfl)
  have removed : Run plain two_retriers _ _ :=
    .step (.step reads (.zrem (j := 0) rfl rfl)) (.zrem_none (j := 1) rfl rfl)
  have pushed : Run plain two_retriers _ _ := .step removed (.rpush (j := 0) rfl)
  exact ⟨_, _, pushed, (handed_over_once _ ⟨by simp [two_retriers], by simp [two_retriers], rfl⟩ pushed).1, rfl⟩

end AcapyRedis.Retries
