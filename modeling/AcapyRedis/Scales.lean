import AcapyRedis.Deliverer
import AcapyRedis.Sums

/-!
Counting in the deliverer. A `Scale` measures what is in the two topics, in the loops and
in the log, such that a step gives to one place what it takes from another; then the sum
over all places is the same in every state of a run (`run_balance`). Each counting result
about the deliverer is one scale.
-/
namespace AcapyRedis.Scales
open AcapyRedis.Python AcapyRedis.SortedSets AcapyRedis.Sums AcapyRedis.Deliverer

variable {Raw Headers : Type}

/-- A measure that no step changes in sum. -/
structure Scale (lib : Library Raw Headers) where
  outbound : Raw → Int
  retry : Raw → Int
  delivering : Delivering Headers → Int
  retrying : Retrying Raw → Int
  event : Event Raw Headers → Int
  polling : delivering .polling = 0
  crashed : delivering .crashed = 0
  batch : ∀ rows, retrying (.batch rows) = 0
  push : ∀ row, event (.pushed row) + outbound row = 0
  blpop : ∀ row, delivering (handle lib row) = outbound row
  post : ∀ msg, event (.posted msg) + delivering (.posted msg) = delivering (.received msg)
  respond : ∀ msg response,
    ((conclusion msg response).map event).sum + delivering (conclude msg response) = delivering (.posted msg)
  dispatch : ∀ msg, delivering (.dispatching msg) = 0
  added : ∀ msg, event (.added msg true) + retry (lib.retry_msg msg) = delivering (.adding msg)
  merged : ∀ msg, event (.added msg false) = delivering (.adding msg)
  raised : ∀ msg, event (.raised msg) = delivering (.adding msg)
  removed : ∀ row rest, event (.removed row) + retrying (.moving row rest) = retry row
  repushed : ∀ row rest, event (.repushed row) + outbound row = retrying (.moving row rest)

variable {lib : Library Raw Headers}

/-- The sum over the topics and the loops. -/
def Scale.pending (scale : Scale lib) (f : Fleet Raw Headers) : Int :=
  (f.outbound.map scale.outbound).sum + weigh scale.retry f.retry + (f.deliveries.map scale.delivering).sum +
    (f.retriers.map scale.retrying).sum

/-- The sum over all places. -/
def Scale.balance (scale : Scale lib) (f : Fleet Raw Headers) : Int :=
  scale.pending f + (f.log.map scale.event).sum

/-- At the start only the topics weigh. -/
theorem starts_balance (scale : Scale lib) {start : Fleet Raw Headers} (starts : Starts start) :
    scale.balance start = (start.outbound.map scale.outbound).sum + weigh scale.retry start.retry := by
  have idle : (start.deliveries.map scale.delivering).sum = 0 :=
    sum_map_zero _ (fun loop member => by rw [starts.deliveries loop member,scale.polling])
  have free : (start.retriers.map scale.retrying).sum = 0 :=
    sum_map_zero _ (fun loop member => by rw [starts.retriers loop member,scale.batch])
  simp only [Scale.balance,Scale.pending,idle,free,starts.log,List.map_nil,List.sum_nil]
  omega

variable [DecidableEq Raw] {f f' start : Fleet Raw Headers} {a : Action Raw}
  {trace : List (Fleet Raw Headers × Action Raw)}

theorem step_balance (scale : Scale lib) (step : Step lib f a f') : scale.balance f' = scale.balance f := by
  cases step with
  | push row =>
    have law := scale.push row
    simp only [Scale.balance,Scale.pending,List.map_append,List.sum_append,List.map_cons,List.sum_cons,List.map_nil,
      List.sum_nil]
    omega
  | redis_error => rfl
  | blpop_none here empty => rfl
  | blpop here queue =>
    rename_i i row rest
    have law := scale.blpop row
    have idle := scale.polling
    simp only [Scale.balance,Scale.pending,sum_map_set scale.delivering _ here,queue,List.map_cons,List.sum_cons]
    omega
  | post here =>
    rename_i i msg
    have law := scale.post msg
    simp only [Scale.balance,Scale.pending,sum_map_set scale.delivering _ here,List.map_cons,List.sum_cons]
    omega
  | respond response here =>
    rename_i i msg
    have law := scale.respond msg response
    simp only [Scale.balance,Scale.pending,sum_map_set scale.delivering _ here,List.map_append,List.sum_append]
    omega
  | dispatch sent here =>
    rename_i i msg
    have law := scale.dispatch msg
    have ends : scale.delivering (if sent then .polling else .crashed) = 0 := by
      cases sent
      · exact scale.crashed
      · exact scale.polling
    simp only [Scale.balance,Scale.pending,sum_map_set scale.delivering _ here]
    omega
  | add_retry now here scored =>
    rename_i i msg score
    have idle := scale.polling
    simp only [Scale.balance,Scale.pending,sum_map_set scale.delivering _ here,List.map_cons,List.sum_cons,weigh_zadd]
    by_cases there : lib.retry_msg msg ∈ f.retry
    · have law := scale.merged msg
      simp only [there,not_true_eq_false,decide_false,↓reduceIte]
      omega
    · have law := scale.added msg
      simp only [there,not_false_eq_true,decide_true,↓reduceIte]
      omega
  | add_retry_raises now here scored =>
    rename_i i msg error
    have law := scale.raised msg
    have ended := scale.crashed
    simp only [Scale.balance,Scale.pending,sum_map_set scale.delivering _ here,List.map_cons,List.sum_cons]
    omega
  | zrangebyscore now here =>
    simp only [Scale.balance,Scale.pending,sum_map_set scale.retrying _ here,scale.batch]
    omega
  | zrem here answer =>
    rename_i j row rest left
    have law := scale.removed row rest
    have first := scale.batch (row :: rest)
    obtain ⟨there,rfl⟩ := zrem_one answer
    simp only [Scale.balance,Scale.pending,sum_map_set scale.retrying _ here,List.map_cons,List.sum_cons,
      weigh_erase _ there]
    omega
  | zrem_none here answer =>
    rename_i j row rest left
    obtain ⟨-,rfl⟩ := zrem_zero answer
    simp only [Scale.balance,Scale.pending,sum_map_set scale.retrying _ here,scale.batch]
    omega
  | rpush here =>
    rename_i j row rest
    have law := scale.repushed row rest
    have done := scale.batch rest
    simp only [Scale.balance,Scale.pending,sum_map_set scale.retrying _ here,List.map_append,List.sum_append,List.map_cons,
      List.sum_cons,List.map_nil,List.sum_nil]
    omega

/-- The sum is the same in every state of a run. -/
theorem run_balance (scale : Scale lib) (run : Run lib start trace f) : scale.balance f = scale.balance start := by
  induction run with
  | start => rfl
  | step _ step ih => rw [step_balance scale step,ih]

end AcapyRedis.Scales
