import AcapyRedis.Deliverer
import AcapyRedis.Efforts
import AcapyRedis.Threads

/-!
The deliverers come to rest. Once nothing is pushed from outside, whatever the topics hold and
wherever the loops are, there are only so many commands and POSTs left that change anything
(`work`): a message has at most the tries that its retry count leaves, and a batch of rows that
other processes have taken is read at most once for each row taken. Until nothing that a running
process can take waits, there is always one to make, given time (`processes_settle`).
-/
namespace AcapyRedis.Settlement
open AcapyRedis.Python AcapyRedis.SortedSets AcapyRedis.Sums AcapyRedis.Deliverer AcapyRedis.Efforts
open AcapyRedis.Threads (set_same)

variable {Raw Headers : Type}

/-! ### How much is left -/

section
variable (lib : Library Raw Headers) (retriers : Int)

/-- How often a message is still added for another try. -/
def tries_left (msg : OutboundPayload Headers) : Int := (5 - msg.retries).toNat

/-- What a `ZREM` may have the other loops do in vain: work off a batch, and read another. -/
def removal : Int := 11 * retriers + 11

/-- The work of a popped message. -/
def posted_work (msg : OutboundPayload Headers) : Int := 1 + (removal retriers + 5) * tries_left msg

/-- The work of an element after `BLPOP`. -/
def handled_work (row : Raw) : Int :=
  match handle lib row with
  | .received msg => 1 + posted_work retriers msg
  | .dispatching _ => 1
  | _ => 0

/-- The work of a row of the retry set. -/
def waiting_work (row : Raw) : Int := removal retriers + 2 + handled_work lib retriers row

def delivering_work : Delivering Headers → Int
  | .received msg => 1 + posted_work retriers msg
  | .posted msg => posted_work retriers msg
  | .dispatching _ => 1
  | .adding msg => 1 + waiting_work lib retriers (lib.retry_msg msg)
  | .polling => 0
  | .crashed => 0

variable [DecidableEq Raw]

/-- The work of a `process_retries` loop; a batch of which nothing is left may be in vain. -/
def retrying_work (retry : SortedSet Raw) : Retrying Raw → Int
  | .batch rows => (if rows.any (fun row => decide (row ∈ retry)) then 0 else 11) + rows.length
  | .moving row rest => 13 + rest.length + handled_work lib retriers row

/-- The work with some number of `process_retries` loops. -/
def work_of (f : Fleet Raw Headers) : Int :=
  (f.outbound.map (fun row => 1 + handled_work lib retriers row)).sum + weigh (waiting_work lib retriers) f.retry +
    (f.deliveries.map (delivering_work lib retriers)).sum + (f.retriers.map (retrying_work lib retriers f.retry)).sum

/-- An upper bound for what is left to do. -/
def work (f : Fleet Raw Headers) : Int := work_of lib f.retriers.length f

end

section
variable {lib : Library Raw Headers} {retriers : Int} (some_loops : 0 ≤ retriers)
include some_loops

theorem posted_positive (msg : OutboundPayload Headers) : 1 ≤ posted_work retriers msg := by
  have tries : 0 ≤ tries_left msg := Int.natCast_nonneg _
  have product : 0 ≤ (removal retriers + 5) * tries_left msg :=
    Int.mul_nonneg (by rw [removal]; omega) tries
  rw [posted_work]
  omega

theorem handled_nonneg (row : Raw) : 0 ≤ handled_work lib retriers row := by
  rw [handled_work]
  split
  · next msg _ =>
    have positive := posted_positive some_loops msg
    omega
  · decide
  · decide

theorem waiting_nonneg (row : Raw) : 0 ≤ waiting_work lib retriers row := by
  have handled : 0 ≤ handled_work lib retriers row := handled_nonneg some_loops row
  rw [waiting_work,removal]
  omega

theorem delivering_nonneg (loop : Delivering Headers) : 0 ≤ delivering_work lib retriers loop := by
  cases loop with
  | received msg =>
    have positive := posted_positive some_loops msg
    rw [delivering_work]
    omega
  | posted msg =>
    have positive := posted_positive some_loops msg
    rw [delivering_work]
    omega
  | adding msg =>
    have waiting : 0 ≤ waiting_work lib retriers (lib.retry_msg msg) := waiting_nonneg some_loops _
    rw [delivering_work]
    omega
  | _ => simp [delivering_work]

/-- A failed POST uses up one try. -/
theorem retried_work (msg : OutboundPayload Headers) (few : msg.retries < 5) :
    delivering_work lib retriers (.adding msg.retried) < posted_work retriers msg := by
  have one_less : tries_left msg = tries_left msg.retried + 1 := by
    simp only [tries_left,OutboundPayload.retried]
    omega
  have handled : handled_work lib retriers (lib.retry_msg msg.retried) ≤ 1 + posted_work retriers msg.retried := by
    have positive := posted_positive some_loops msg.retried
    rw [handled_work,handle,lib.round_trip]
    dsimp only
    split_ifs
    · exact Int.le_refl _
    · dsimp only
      omega
    · dsimp only
      omega
  rw [delivering_work,waiting_work]
  rw [posted_work,one_less]
  rw [posted_work] at handled
  have expanded : (removal retriers + 5) * (tries_left msg.retried + 1) =
      (removal retriers + 5) * tries_left msg.retried + (removal retriers + 5) := by ring
  omega

theorem conclude_work (msg : OutboundPayload Headers) (response : Response) :
    delivering_work lib retriers (conclude msg response) < posted_work retriers msg := by
  have positive := posted_positive some_loops msg
  unfold conclude
  split_ifs with uncaught failed few
  · rw [delivering_work]
    omega
  · exact retried_work some_loops msg few
  · rw [delivering_work]
    omega
  · rw [delivering_work]
    omega

end

theorem delivering_handle (lib : Library Raw Headers) (retriers : Int) (row : Raw) :
    delivering_work lib retriers (handle lib row) = handled_work lib retriers row := by
  rw [handled_work,handle]
  split
  · rfl
  · split_ifs <;> rfl

/-! ### One step -/

section
variable [DecidableEq Raw] {lib : Library Raw Headers} {retriers : Int}

theorem retrying_nonneg (some_loops : 0 ≤ retriers) (retry : SortedSet Raw) (loop : Retrying Raw) :
    0 ≤ retrying_work lib retriers retry loop := by
  cases loop with
  | batch rows =>
    rw [retrying_work]
    split <;> omega
  | moving row rest =>
    have handled : 0 ≤ handled_work lib retriers row := handled_nonneg some_loops row
    rw [retrying_work]
    omega

theorem batch_most (lib : Library Raw Headers) (retriers : Int) (retry : SortedSet Raw) (rows : List Raw) :
    rows.length ≤ retrying_work lib retriers retry (.batch rows) ∧
      retrying_work lib retriers retry (.batch rows) ≤ 11 + rows.length := by
  rw [retrying_work]
  split <;> omega

theorem moving_work (lib : Library Raw Headers) (retriers : Int) (retry : SortedSet Raw) (row : Raw) (rest : List Raw) :
    retrying_work lib retriers retry (.moving row rest) = 13 + rest.length + handled_work lib retriers row := rfl

/-- More rows to retry leave no batch in vain. -/
theorem retrying_grows (lib : Library Raw Headers) (retriers : Int) {retry more : SortedSet Raw}
    (grows : ∀ row, row ∈ retry → row ∈ more) (loop : Retrying Raw) :
    retrying_work lib retriers more loop ≤ retrying_work lib retriers retry loop := by
  cases loop with
  | moving row rest => exact Int.le_refl _
  | batch rows =>
    rw [retrying_work,retrying_work]
    by_cases hope : rows.any (fun row => decide (row ∈ retry)) = true
    · obtain ⟨row,member,there⟩ := List.any_eq_true.mp hope
      have still : rows.any (fun row => decide (row ∈ more)) = true :=
        List.any_eq_true.mpr ⟨row,member,decide_eq_true (grows row (of_decide_eq_true there))⟩
      rw [if_pos hope,if_pos still]
    · rw [if_neg hope]
      split <;> omega

/-- A batch of rows that are there. -/
theorem fresh_batch (lib : Library Raw Headers) (retriers : Int) {retry : SortedSet Raw} {row : Raw} {rest : List Raw}
    (there : row ∈ retry) : retrying_work lib retriers retry (.batch (row :: rest)) = rest.length + 1 := by
  have hope : (row :: rest).any (fun other => decide (other ∈ retry)) = true :=
    List.any_eq_true.mpr ⟨row,List.mem_cons_self,decide_eq_true there⟩
  rw [retrying_work,if_pos hope,List.length_cons]
  push_cast
  omega

/-- A row that is not there. -/
theorem stale_row (lib : Library Raw Headers) (retriers : Int) {retry : SortedSet Raw} {row : Raw} {rest : List Raw}
    (gone : row ∉ retry) :
    retrying_work lib retriers retry (.batch (row :: rest)) = retrying_work lib retriers retry (.batch rest) + 1 := by
  rw [retrying_work,retrying_work,List.any_cons,decide_eq_false gone,Bool.false_or,List.length_cons]
  push_cast
  omega

/-- A removal leaves at most one batch of each loop in vain. -/
theorem retrying_shrinks (retry less : SortedSet Raw) (loop : Retrying Raw) :
    retrying_work lib retriers less loop ≤ retrying_work lib retriers retry loop + 11 := by
  cases loop with
  | moving row rest =>
    rw [retrying_work,retrying_work]
    omega
  | batch rows =>
    have most := (batch_most lib retriers less rows).2
    have least := (batch_most lib retriers retry rows).1
    omega

theorem sum_map_le {V : Type} {measure other : V → Int} {bound : Int} (entries : List V)
    (each : ∀ entry ∈ entries, measure entry ≤ other entry + bound) :
    (entries.map measure).sum ≤ (entries.map other).sum + bound * entries.length := by
  induction entries with
  | nil => simp
  | cons entry rest ih =>
    have first := each entry List.mem_cons_self
    have later := ih (fun item member => each item (List.mem_cons_of_mem _ member))
    simp only [List.map_cons,List.sum_cons,List.length_cons]
    push_cast
    have expanded : bound * ((rest.length : Int) + 1) = bound * rest.length + bound := by ring
    omega

theorem sum_retrying_grows (lib : Library Raw Headers) (retriers : Int) {retry more : SortedSet Raw}
    (grows : ∀ row, row ∈ retry → row ∈ more) (loops : List (Retrying Raw)) :
    (loops.map (retrying_work lib retriers more)).sum ≤ (loops.map (retrying_work lib retriers retry)).sum :=
  List.sum_le_sum (fun loop _ => retrying_grows lib retriers grows loop)

end

/-- Nothing is pushed from outside. -/
def Quiet : Action Raw → Prop
  | .push _ => False
  | _ => True

section
variable [DecidableEq Raw] {lib : Library Raw Headers} {f f' : Fleet Raw Headers} {a : Action Raw}

/-- The number of loops stays. -/
theorem step_retriers (step : Step lib f a f') : f'.retriers.length = f.retriers.length := by
  cases step with
  | zrangebyscore | zrem | zrem_none | rpush => simp
  | _ => rfl

theorem step_deliveries (step : Step lib f a f') : f'.deliveries.length = f.deliveries.length := by
  cases step with
  | blpop | post | respond | dispatch | add_retry | add_retry_raises => simp
  | _ => rfl

/-- Every step but a push is idle or does some work. -/
theorem step_works (step : Step lib f a f') (quiet : Quiet a) : f' = f ∨ work lib f' < work lib f := by
  have same := step_retriers step
  have some_loops : (0 : Int) ≤ f.retriers.length := Int.natCast_nonneg _
  rw [work,work,same]
  generalize loops : (f.retriers.length : Int) = retriers at some_loops
  cases step with
  | push row => exact quiet.elim
  | redis_error => exact .inl rfl
  | blpop_none _ _ => exact .inl rfl
  | @blpop i row rest here topic =>
    have handled := delivering_handle lib retriers row
    refine .inr ?_
    simp only [work_of,sum_map_set (delivering_work lib retriers) _ here,topic,List.map_cons,List.sum_cons]
    rw [handled,delivering_work]
    omega
  | @post i msg here =>
    refine .inr ?_
    simp only [work_of,sum_map_set (delivering_work lib retriers) _ here]
    rw [delivering_work,delivering_work]
    omega
  | @respond i msg response here =>
    have less : delivering_work lib retriers (conclude msg response) < posted_work retriers msg :=
      conclude_work some_loops msg response
    refine .inr ?_
    simp only [work_of,sum_map_set (delivering_work lib retriers) _ here]
    rw [delivering_work] at *
    omega
  | @dispatch i msg sent here =>
    refine .inr ?_
    simp only [work_of,sum_map_set (delivering_work lib retriers) _ here]
    cases sent <;> simp [delivering_work]
  | @add_retry i msg score now here _ =>
    have waiting : 0 ≤ waiting_work lib retriers (lib.retry_msg msg) := waiting_nonneg some_loops _
    have grows : ∀ row, row ∈ f.retry → row ∈ zadd f.retry (lib.retry_msg msg) score :=
      fun row there => mem_zadd.mpr (.inr there)
    have batches := sum_retrying_grows lib retriers grows f.retriers
    refine .inr ?_
    simp only [work_of,sum_map_set (delivering_work lib retriers) _ here,weigh_zadd]
    rw [delivering_work,delivering_work]
    split <;> omega
  | @add_retry_raises i msg error now here _ =>
    have waiting : 0 ≤ waiting_work lib retriers (lib.retry_msg msg) := waiting_nonneg some_loops _
    refine .inr ?_
    simp only [work_of,sum_map_set (delivering_work lib retriers) _ here]
    rw [delivering_work,delivering_work]
    omega
  | @zrangebyscore j now here =>
    cases rows : SortedSets.zrangebyscore lib.before f.retry 0 now 10 with
    | nil => exact .inl (by rw [set_same here])
    | cons row rest =>
      have few : (row :: rest).length ≤ 10 := rows ▸ zrangebyscore_length lib.before f.retry 0 now 10
      have there : row ∈ f.retry := zrangebyscore_mem lib.before f.retry 0 now 10 (rows ▸ List.mem_cons_self)
      have fresh : retrying_work lib retriers f.retry (.batch (row :: rest)) = rest.length + 1 :=
        fresh_batch lib retriers there
      have idle : retrying_work lib retriers f.retry (.batch []) = 11 := rfl
      refine .inr ?_
      simp only [work_of,sum_map_set (retrying_work lib retriers f.retry) _ here]
      rw [List.length_cons] at few
      omega
  | @zrem j row rest left here removed =>
    obtain ⟨there,rfl⟩ := zrem_one removed
    have shrunk : (f.retriers.map (retrying_work lib retriers (f.retry.erase row))).sum ≤
        (f.retriers.map (retrying_work lib retriers f.retry)).sum + 11 * f.retriers.length :=
      sum_map_le f.retriers (fun loop _ => retrying_shrinks f.retry (f.retry.erase row) loop)
    have least := (batch_most lib retriers (f.retry.erase row) (row :: rest)).1
    have carried := moving_work lib retriers (f.retry.erase row) row rest
    have waiting : waiting_work lib retriers row = removal retriers + 2 + handled_work lib retriers row := rfl
    refine .inr ?_
    simp only [work_of,sum_map_set (retrying_work lib retriers (f.retry.erase row)) _ here,weigh_erase _ there]
    rw [List.length_cons] at least
    rw [removal] at waiting
    push_cast at least
    omega
  | @zrem_none j row rest left here removed =>
    obtain ⟨gone,rfl⟩ := zrem_zero removed
    have stale : retrying_work lib retriers f.retry (.batch (row :: rest)) =
        retrying_work lib retriers f.retry (.batch rest) + 1 := stale_row lib retriers gone
    refine .inr ?_
    simp only [work_of,sum_map_set (retrying_work lib retriers f.retry) _ here]
    omega
  | @rpush j row rest here =>
    have most := (batch_most lib retriers f.retry rest).2
    have carried := moving_work lib retriers f.retry row rest
    refine .inr ?_
    simp only [work_of,sum_map_set (retrying_work lib retriers f.retry) _ here,List.map_append,List.sum_append,List.map_cons,
      List.map_nil,List.sum_cons,List.sum_nil]
    omega

end

/-! ### Processes -/

/-- Deliverers, the `j`-th with the `j`-th loop of each kind, and those of them that have ended. -/
structure Processes (Raw Headers : Type) where
  fleet : Fleet Raw Headers
  ended : Finset Nat

/-- The `process_retries` loop that an action is of. -/
def retrier : Action Raw → Option Nat
  | .zrangebyscore loop _ => some loop
  | .zrem loop => some loop
  | .rpush loop => some loop
  | _ => none

theorem others_ended {ended : Finset Nat} {j : Nat} (running : j ∉ ended) : ∀ k ∈ ended, some j ≠ some k := by
  rintro k member same
  exact running (Option.some.inj same ▸ member)

section
variable [DecidableEq Raw]

/-- A command of a loop, the end of a POST, or the end of a process. Both loops of a process are
    gathered, so what its `process_delivery` loop raises ends the process, if not at once; a status
    endpoint may keep it up. Nothing is pushed from outside. -/
inductive ProcessStep (lib : Library Raw Headers) : Processes Raw Headers → Processes Raw Headers → Prop
  | loop {p : Processes Raw Headers} {a : Action Raw} {f' : Fleet Raw Headers} : Quiet a →
      (∀ j ∈ p.ended, retrier a ≠ some j) → Step lib p.fleet a f' → ProcessStep lib p { p with fleet := f' }
  | ends {p : Processes Raw Headers} {j : Nat} : p.fleet.deliveries[j]? = some .crashed →
      ProcessStep lib p { p with ended := insert j p.ended }

/-- An upper bound for what is left to do, with the processes that may still end. -/
def processes_work (lib : Library Raw Headers) (p : Processes Raw Headers) : Int :=
  work lib p.fleet + (Finset.range p.fleet.deliveries.length \ p.ended).card

/-- Nothing is left for the loops that run: no message is in a loop, an element is left on the
    outbound topic only if every loop that pops it has ended, and a row of the retry set only if it
    never gets due or every loop that fetches it has ended. -/
structure Settled (p : Processes Raw Headers) : Prop where
  deliveries : ∀ loop ∈ p.fleet.deliveries, loop = .polling ∨ loop = .crashed
  retriers : ∀ j loop, p.fleet.retriers[j]? = some loop → j ∉ p.ended → loop = .batch []
  outbound : p.fleet.outbound = [] ∨ ∀ loop ∈ p.fleet.deliveries, loop = .crashed
  retry : (∀ row score, p.fleet.retry.lookup row = some score → score < 0) ∨
    ∀ j, j < p.fleet.retriers.length → j ∈ p.ended

variable {lib : Library Raw Headers} {p p' : Processes Raw Headers}

theorem work_nonneg (lib : Library Raw Headers) (f : Fleet Raw Headers) : 0 ≤ work lib f := by
  have some_loops : (0 : Int) ≤ f.retriers.length := Int.natCast_nonneg _
  have outbound : 0 ≤ (f.outbound.map (fun row => 1 + handled_work lib f.retriers.length row)).sum := by
    refine sum_map_nonneg _ (fun row _ => ?_)
    have handled : 0 ≤ handled_work lib f.retriers.length row := handled_nonneg some_loops row
    omega
  have retry : 0 ≤ weigh (waiting_work lib f.retriers.length) f.retry :=
    sum_map_nonneg _ (fun row _ => waiting_nonneg some_loops row)
  have deliveries : 0 ≤ (f.deliveries.map (delivering_work lib f.retriers.length)).sum :=
    sum_map_nonneg _ (fun loop _ => delivering_nonneg some_loops loop)
  have retriers : 0 ≤ (f.retriers.map (retrying_work lib f.retriers.length f.retry)).sum :=
    sum_map_nonneg _ (fun loop _ => retrying_nonneg some_loops f.retry loop)
  rw [work,work_of]
  omega

/-- Every step is idle or does some work, also the end of a process. -/
theorem process_works (step : ProcessStep lib p p') : p' = p ∨ processes_work lib p' < processes_work lib p := by
  cases step with
  | @loop a f' quiet running step =>
    rcases step_works step quiet with same | less
    · exact .inl (by rw [same])
    · refine .inr ?_
      rw [processes_work,processes_work,step_deliveries step]
      exact Int.add_lt_add_right less _
  | @ends j crashed =>
    by_cases before : j ∈ p.ended
    · exact .inl (by rw [Finset.insert_eq_of_mem before])
    · refine .inr ?_
      have inside : j ∈ Finset.range p.fleet.deliveries.length \ p.ended :=
        Finset.mem_sdiff.mpr ⟨Finset.mem_range.mpr (List.getElem?_eq_some_iff.mp crashed).1,before⟩
      have fewer := Finset.card_erase_lt_of_mem inside
      rw [← Finset.sdiff_insert] at fewer
      rw [processes_work,processes_work]
      dsimp only
      omega

/-! ### Always something to do -/

theorem set_changes {V : Type} {entries : List V} {i : Nat} {old new : V} (here : entries[i]? = some old)
    (other : new ≠ old) :
    entries.set i new ≠ entries := by
  intro same
  obtain ⟨inside,_⟩ := List.getElem?_eq_some_iff.mp here
  have there : (entries.set i new)[i]? = some new := List.getElem?_set_self inside
  rw [same,here] at there
  exact other (Option.some.inj there).symm

/-- A step of a loop that changes the fleet. -/
theorem loop_changes {a : Action Raw} {f' : Fleet Raw Headers} (step : Step lib p.fleet a f') (quiet : Quiet a)
    (running : ∀ j ∈ p.ended, retrier a ≠ some j) (changed : f' ≠ p.fleet) :
    ∃ p', ProcessStep lib p p' ∧ processes_work lib p' < processes_work lib p := by
  have stepped : ProcessStep lib p { p with fleet := f' } := .loop quiet running step
  exact ⟨_,stepped,(process_works stepped).resolve_left (fun same => changed (congrArg Processes.fleet same))⟩

theorem conclude_changes (msg : OutboundPayload Headers) (response : Response) : conclude msg response ≠ .posted msg := by
  unfold conclude
  split_ifs <;> simp

/-- A loop that holds a message. -/
theorem delivering_step {i : Nat} {loop : Delivering Headers} (here : p.fleet.deliveries[i]? = some loop)
    (busy : ¬ (loop = .polling ∨ loop = .crashed)) :
    ∃ p', ProcessStep lib p p' ∧ processes_work lib p' < processes_work lib p := by
  cases loop with
  | polling => exact absurd (.inl rfl) busy
  | crashed => exact absurd (.inr rfl) busy
  | received msg =>
    refine loop_changes (.post here) trivial (fun _ _ same => by cases same) (fun same => ?_)
    exact set_changes here (by simp) (congrArg Fleet.deliveries same)
  | posted msg =>
    refine loop_changes (.respond .TimeoutError here) trivial (fun _ _ same => by cases same) (fun same => ?_)
    exact set_changes here (conclude_changes msg .TimeoutError) (congrArg Fleet.deliveries same)
  | dispatching msg =>
    refine loop_changes (.dispatch true here) trivial (fun _ _ same => by cases same) (fun same => ?_)
    exact set_changes here (by simp) (congrArg Fleet.deliveries same)
  | adding msg =>
    cases scored : retry_score lib 0 msg with
    | error error =>
      refine loop_changes (.add_retry_raises 0 here scored) trivial (fun _ _ same => by cases same) (fun same => ?_)
      exact set_changes here (by simp) (congrArg Fleet.deliveries same)
    | ok score =>
      refine loop_changes (.add_retry 0 here scored) trivial (fun _ _ same => by cases same) (fun same => ?_)
      exact set_changes here (by simp) (congrArg Fleet.deliveries same)

/-- A running loop with a row to remove or to push. -/
theorem retrying_step {j : Nat} {loop : Retrying Raw} (here : p.fleet.retriers[j]? = some loop) (running : j ∉ p.ended)
    (busy : loop ≠ .batch []) : ∃ p', ProcessStep lib p p' ∧ processes_work lib p' < processes_work lib p := by
  cases loop with
  | moving row rest =>
    refine loop_changes (.rpush here) trivial (others_ended running) (fun same => ?_)
    exact set_changes here (by simp) (congrArg Fleet.retriers same)
  | batch rows =>
    cases rows with
    | nil => exact absurd rfl busy
    | cons row rest =>
      by_cases there : row ∈ p.fleet.retry
      · refine loop_changes (.zrem here (if_pos there)) trivial (others_ended running) (fun same => ?_)
        exact set_changes here (by simp) (congrArg Fleet.retriers same)
      · refine loop_changes (.zrem_none here (if_neg there)) trivial (others_ended running) (fun same => ?_)
        exact set_changes here (by simp) (congrArg Fleet.retriers same)

/-- A row that waits is due at its time. -/
theorem due_step {j : Nat} (here : p.fleet.retriers[j]? = some (.batch [])) (running : j ∉ p.ended) {row : Raw}
    {score : Int}
    (scored : p.fleet.retry.lookup row = some score) (after : 0 ≤ score) :
    ∃ p', ProcessStep lib p p' ∧ processes_work lib p' < processes_work lib p := by
  refine loop_changes (.zrangebyscore score here) trivial (others_ended running) (fun same => ?_)
  have listed : SortedSets.zrangebyscore lib.before p.fleet.retry 0 score 10 ≠ [] :=
    zrangebyscore_nonempty lib.before p.fleet.retry 0 score 10 scored ⟨after,Int.le_refl score⟩ (by decide)
  exact set_changes here (by simpa using listed) (congrArg Fleet.retriers same)

/-- An element that a loop can pop. -/
theorem popping_step {loop : Delivering Headers} (member : loop ∈ p.fleet.deliveries) (idle : loop = .polling)
    (left : p.fleet.outbound ≠ []) : ∃ p', ProcessStep lib p p' ∧ processes_work lib p' < processes_work lib p := by
  obtain ⟨i,here⟩ := List.getElem?_of_mem member
  obtain ⟨row,rest,topic⟩ := List.exists_cons_of_ne_nil left
  rw [idle] at here
  refine loop_changes (.blpop here topic) trivial (fun _ _ same => by cases same) (fun same => ?_)
  have shorter := congrArg (fun g => g.outbound.length) same
  simp [topic] at shorter

theorem processes_progress (lib : Library Raw Headers) (p : Processes Raw Headers) :
    Settled p ∨ ∃ p', ProcessStep lib p p' ∧ processes_work lib p' < processes_work lib p := by
  refine or_iff_not_imp_right.mpr (fun stuck => ?_)
  have idle : ∀ loop ∈ p.fleet.deliveries, loop = .polling ∨ loop = .crashed := by
    intro loop member
    obtain ⟨i,here⟩ := List.getElem?_of_mem member
    exact by_contra fun busy => stuck (delivering_step here busy)
  have free : ∀ j loop, p.fleet.retriers[j]? = some loop → j ∉ p.ended → loop = .batch [] :=
    fun j loop here running => by_contra fun busy => stuck (retrying_step here running busy)
  refine ⟨idle,free,?_,?_⟩
  · refine or_iff_not_imp_left.mpr (fun left loop member => ?_)
    exact (idle loop member).resolve_left (fun polling => stuck (popping_step member polling left))
  · refine or_iff_not_imp_right.mpr (fun runs row score scored => ?_)
    simp only [not_forall] at runs
    obtain ⟨j,inside,running⟩ := runs
    have here := List.getElem?_eq_getElem inside
    rw [free j _ here running] at here
    exact Int.not_le.mp (fun after => stuck (due_step here running scored after))

theorem processes_settling (lib : Library Raw Headers) : Settling (ProcessStep lib) Settled (processes_work lib) where
  least p := by
    have fleet := work_nonneg lib p.fleet
    rw [processes_work]
    omega
  works _ _ := process_works
  progress := processes_progress lib

/-- From any state on, and however the loops are interleaved, POSTs answered, commands repeated and
    processes ended, the deliverers make no more than `processes_work` steps that change anything;
    until they have settled there is such a step, and they can always settle. -/
theorem processes_settle {n : Nat} (effort : Effort (ProcessStep lib) p n p') :
    n ≤ processes_work lib p ∧ (Settled p' ∨ ∃ p'', ProcessStep lib p' p'' ∧ p'' ≠ p') ∧
      ∃ m h, Effort (ProcessStep lib) p' m h ∧ Settled h :=
  effort_settles (processes_settling lib) effort

end

/-- A message waits for its last try. -/
def one_waits : Processes (OutboundPayload Unit) Unit :=
  ⟨⟨[], zadd ∅ (sample 1 5) 25, [.polling], [.batch []], []⟩, ∅⟩

/-- The row is fetched, and the message will be done with. -/
theorem processes_settle_one : ∃ p, Effort (ProcessStep plain) one_waits 1 p ∧ 1 ≤ processes_work plain one_waits ∧
    ∃ m h, Effort (ProcessStep plain) p m h ∧ Settled h := by
  have here : one_waits.fleet.retriers[0]? = some (.batch []) := rfl
  have fetched : SortedSets.zrangebyscore plain.before one_waits.fleet.retry 0 25 10 = [sample 1 5] := by decide +kernel
  have step : Step plain one_waits.fleet _ _ := .zrangebyscore 25 here
  rw [fetched] at step
  have quiet : Quiet (.zrangebyscore 0 25 : Action (OutboundPayload Unit)) := trivial
  have stepped : ProcessStep plain one_waits _ := .loop quiet (fun _ none => absurd none (Finset.notMem_empty _)) step
  have effort := Effort.work .start stepped
    (fun same => set_changes here (by simp) (congrArg (fun p => p.fleet.retriers) same))
  have settles := processes_settle effort
  exact ⟨_,effort,settles.1,settles.2.2⟩

end AcapyRedis.Settlement
