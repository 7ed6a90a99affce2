import AcapyRedis.Python
import AcapyRedis.SortedSets

/-!
The deliverer of `redis_deliverer/deliver`: any number of `process_delivery` and
`process_retries` loops on one outbound list and one retry set, single commands and
POSTs being atomic and interleaved in any order (`Step`). A command that raises is not
executed and tried again. What a `process_delivery` loop raises also ends the other loop of its
process, at some time and unless a status endpoint keeps it up: in a run that is a loop that
makes no more steps (`Settlement.ProcessStep`).
-/
namespace AcapyRedis.Deliverer
open AcapyRedis.Python AcapyRedis.SortedSets

variable {Raw Headers : Type}

/-- A decoded outbound message; an absent retry count is 0. -/
structure OutboundPayload (Headers : Type) where
  url : Text
  payload : Bytes
  headers : Headers
  retries : Int
  deriving DecidableEq

/-- What the deliverer gets from libraries: how pydantic and `json` decode an element of a
    topic, the encoding of a retry, the scheme of a url, `int(time() + pow(5, ..))` at a
    clock reading for a retry count, and the order of the elements. -/
structure Library (Raw Headers : Type) where
  from_bytes : Raw → Except PyError (OutboundPayload Headers)
  retry_msg : OutboundPayload Headers → Raw
  /-- `json.loads` and base64 undo `json.dumps` and base64. -/
  round_trip : ∀ msg, from_bytes (retry_msg msg) = .ok msg
  scheme : Text → String
  retry_time : Int → Int → Int
  before : Raw → Raw → Bool

/-- How a POST ends. -/
inductive Response
  | status (code : Nat)
  | ClientError
  | TimeoutError
  /-- Another exception, for instance that of a header that is null: nothing catches it. -/
  | uncaught (error : PyError)

/-- `failed` after the POST. -/
def Response.failed : Response → Bool
  | .status code => decide (code < 200) || decide (300 ≤ code)
  | .ClientError => true
  | .TimeoutError => true
  | .uncaught _ => false

/-- The POST ends with an exception that leaves the loop. -/
def Response.raises : Response → Bool
  | .uncaught _ => true
  | _ => false

/-- What the POST raises, if nothing catches it. -/
def Response.result : Response → Except PyError Unit
  | .uncaught error => .error error
  | _ => .ok ()

theorem result_ok {response : Response} (caught : response.raises = false) : response.result = .ok () := by
  cases response with
  | uncaught => cases caught
  | _ => rfl

theorem result_error {response : Response} (raises : response.raises = true) :
    ∃ error, response.result = .error error := by
  cases response with
  | uncaught error => exact ⟨error,rfl⟩
  | _ => cases raises

theorem failed_caught {response : Response} (failed : response.failed) : response.raises = false := by
  cases response with
  | uncaught => cases failed
  | _ => rfl

/-- Where a `process_delivery` loop is between two commands. -/
inductive Delivering (Headers : Type)
  | polling
  /-- A message was popped and is about to be posted. -/
  | received (msg : OutboundPayload Headers)
  /-- A POST of the message was made and is not answered. -/
  | posted (msg : OutboundPayload Headers)
  /-- A message was popped and is about to be sent over a web socket. -/
  | dispatching (msg : OutboundPayload Headers)
  /-- In `add_retry` with the message to add. -/
  | adding (msg : OutboundPayload Headers)
  /-- An error has ended the loop. -/
  | crashed

/-- Where a `process_retries` loop is: it still has to remove some rows of its batch, or
    has removed a row and not pushed it yet. Without rows it reads the next batch. -/
inductive Retrying (Raw : Type)
  | batch (rows : List Raw)
  | moving (row : Raw) (rest : List Raw)

/-- What happened, for counting. -/
inductive Event (Raw Headers : Type)
  | pushed (row : Raw)
  | posted (msg : OutboundPayload Headers)
  | delivered (msg : OutboundPayload Headers)
  | dropped (msg : OutboundPayload Headers)
  /-- A `ZADD`, with whether the member was new. -/
  | added (msg : OutboundPayload Headers) (new : Bool)
  /-- `add_retry` raised an error that it does not catch. -/
  | raised (msg : OutboundPayload Headers)
  /-- The POST raised an error that the loop does not catch. -/
  | aborted (msg : OutboundPayload Headers)
  | removed (row : Raw)
  | repushed (row : Raw)
  deriving DecidableEq

/-- The two Redis topics, the loops, and what happened, newest first. -/
structure Fleet (Raw Headers : Type) where
  outbound : List Raw
  retry : SortedSet Raw
  deliveries : List (Delivering Headers)
  retriers : List (Retrying Raw)
  log : List (Event Raw Headers)

/-- What the scheduler and the environment choose. -/
inductive Action (Raw : Type)
  | push (row : Raw)
  | redis_error
  | blpop (loop : Nat)
  | post (loop : Nat)
  | respond (loop : Nat) (response : Response)
  | dispatch (loop : Nat) (sent : Bool)
  | add_retry (loop : Nat) (now : Int)
  | zrangebyscore (loop : Nat) (now : Int)
  | zrem (loop : Nat)
  | rpush (loop : Nat)

/-- The first integer that does not convert to a float: it is rounded to `2 ^ 1024`. -/
def float_limit : Nat := 2 ^ 1024 - 2 ^ 970

/-- Whether an integer converts to a float: the others raise `OverflowError`. -/
def fits_float (n : Int) : Bool := decide (n.natAbs < float_limit)

/-- The score that `add_retry` computes: `0.25 * (retries - 1)` converts the count. -/
def retry_score (lib : Library Raw Headers) (now : Int) (msg : OutboundPayload Headers) : Except PyError Int :=
  if fits_float (msg.retries - 1) then .ok (lib.retry_time now msg.retries) else .error .OverflowError

theorem retry_score_ok {lib : Library Raw Headers} {now score : Int} {msg : OutboundPayload Headers}
    (scored : retry_score lib now msg = .ok score) : fits_float (msg.retries - 1) := by
  cases fits : fits_float (msg.retries - 1) with
  | true => rfl
  | false => simp [retry_score,fits] at scored

theorem retry_score_error {lib : Library Raw Headers} {now : Int} {msg : OutboundPayload Headers} {error : PyError}
    (raises : retry_score lib now msg = .error error) : fits_float (msg.retries - 1) = false := by
  cases fits : fits_float (msg.retries - 1) with
  | false => rfl
  | true => simp [retry_score,fits] at raises

/-- A message that is posted. -/
def web (lib : Library Raw Headers) (msg : OutboundPayload Headers) : Bool :=
  lib.scheme msg.url == "http" || lib.scheme msg.url == "https"

/-- What a loop does with a popped element. -/
def handle (lib : Library Raw Headers) (row : Raw) : Delivering Headers :=
  match lib.from_bytes row with
  | .error _ => .crashed
  | .ok msg =>
    if web lib msg then .received msg
    else if lib.scheme msg.url = "ws" then .dispatching msg
    else .polling

/-- The message that is added for another try. -/
def OutboundPayload.retried (msg : OutboundPayload Headers) : OutboundPayload Headers :=
  { msg with retries := msg.retries + 1 }

/-- What a loop does when a POST has ended. -/
def conclude (msg : OutboundPayload Headers) (response : Response) : Delivering Headers :=
  if response.raises then .crashed
  else if response.failed then if msg.retries < 5 then .adding msg.retried else .polling
  else .polling

/-- What the end of a POST adds to the log. -/
def conclusion (msg : OutboundPayload Headers) (response : Response) : List (Event Raw Headers) :=
  if response.raises then [.aborted msg]
  else if response.failed then if msg.retries < 5 then [] else [.dropped msg]
  else [.delivered msg]

variable [DecidableEq Raw]

/-- One command of one loop, or one message pushed to the outbound topic. Each loop is on its own
    here; `Settlement.ProcessStep` ends both loops of a process once one of them has raised. -/
inductive Step (lib : Library Raw Headers) : Fleet Raw Headers → Action Raw → Fleet Raw Headers → Prop
  | push {f : Fleet Raw Headers} (row : Raw) :
      Step lib f (.push row) { f with outbound := f.outbound ++ [row], log := .pushed row :: f.log }
  | redis_error {f : Fleet Raw Headers} : Step lib f .redis_error f
  | blpop_none {f : Fleet Raw Headers} {i : Nat} : f.deliveries[i]? = some .polling → f.outbound = [] →
      Step lib f (.blpop i) f
  | blpop {f : Fleet Raw Headers} {i : Nat} {row : Raw} {rest : List Raw} :
      f.deliveries[i]? = some .polling → f.outbound = row :: rest →
      Step lib f (.blpop i) { f with outbound := rest, deliveries := f.deliveries.set i (handle lib row) }
  | post {f : Fleet Raw Headers} {i : Nat} {msg : OutboundPayload Headers} : f.deliveries[i]? = some (.received msg) →
      Step lib f (.post i) { f with deliveries := f.deliveries.set i (.posted msg), log := .posted msg :: f.log }
  | respond {f : Fleet Raw Headers} {i : Nat} {msg : OutboundPayload Headers} (response : Response) :
      f.deliveries[i]? = some (.posted msg) →
      Step lib f (.respond i response)
        { f with deliveries := f.deliveries.set i (conclude msg response), log := conclusion msg response ++ f.log }
  | dispatch {f : Fleet Raw Headers} {i : Nat} {msg : OutboundPayload Headers} (sent : Bool) :
      f.deliveries[i]? = some (.dispatching msg) →
      Step lib f (.dispatch i sent) { f with deliveries := f.deliveries.set i (if sent then .polling else .crashed) }
  | add_retry {f : Fleet Raw Headers} {i : Nat} {msg : OutboundPayload Headers} {score : Int} (now : Int) :
      f.deliveries[i]? = some (.adding msg) → retry_score lib now msg = .ok score →
      Step lib f (.add_retry i now)
        { f with
          retry := zadd f.retry (lib.retry_msg msg) score
          deliveries := f.deliveries.set i .polling
          log := .added msg (decide (lib.retry_msg msg ∉ f.retry)) :: f.log }
  | add_retry_raises {f : Fleet Raw Headers} {i : Nat} {msg : OutboundPayload Headers} {error : PyError} (now : Int) :
      f.deliveries[i]? = some (.adding msg) → retry_score lib now msg = .error error →
      Step lib f (.add_retry i now)
        { f with deliveries := f.deliveries.set i .crashed, log := .raised msg :: f.log }
  | zrangebyscore {f : Fleet Raw Headers} {j : Nat} (now : Int) : f.retriers[j]? = some (.batch []) →
      Step lib f (.zrangebyscore j now)
        { f with retriers := f.retriers.set j (.batch (SortedSets.zrangebyscore lib.before f.retry 0 now 10)) }
  | zrem {f : Fleet Raw Headers} {j : Nat} {row : Raw} {rest : List Raw}
      {left : SortedSet Raw} : f.retriers[j]? = some (.batch (row :: rest)) →
      SortedSets.zrem f.retry row = (1, left) →
      Step lib f (.zrem j)
        { f with retry := left, retriers := f.retriers.set j (.moving row rest), log := .removed row :: f.log }
  | zrem_none {f : Fleet Raw Headers} {j : Nat} {row : Raw} {rest : List Raw}
      {left : SortedSet Raw} : f.retriers[j]? = some (.batch (row :: rest)) →
      SortedSets.zrem f.retry row = (0, left) →
      Step lib f (.zrem j) { f with retry := left, retriers := f.retriers.set j (.batch rest) }
  | rpush {f : Fleet Raw Headers} {j : Nat} {row : Raw} {rest : List Raw} :
      f.retriers[j]? = some (.moving row rest) →
      Step lib f (.rpush j)
        { f with
          outbound := f.outbound ++ [row]
          retriers := f.retriers.set j (.batch rest)
          log := .repushed row :: f.log }

/-- The topics as they are found and idle loops. -/
structure Starts (f : Fleet Raw Headers) : Prop where
  deliveries : ∀ loop ∈ f.deliveries, loop = .polling
  retriers : ∀ loop ∈ f.retriers, loop = .batch []
  log : f.log = []

/-- A run: the states it went through with the action in each, newest first. -/
inductive Run (lib : Library Raw Headers) (start : Fleet Raw Headers) :
    List (Fleet Raw Headers × Action Raw) → Fleet Raw Headers → Prop
  | start : Run lib start [] start
  | step {trace f a f'} : Run lib start trace f → Step lib f a f' → Run lib start ((f, a) :: trace) f'

/-- The log only grows. -/
theorem step_log {lib : Library Raw Headers} {f f' : Fleet Raw Headers} {a : Action Raw} (step : Step lib f a f') :
    f.log <:+ f'.log := by
  cases step with
  | push | post | add_retry | add_retry_raises | zrem | rpush => exact List.suffix_cons _ _
  | respond => exact List.suffix_append _ _
  | _ => exact List.suffix_rfl

/-- Every state of a run is reached by an earlier run. -/
theorem run_reaches {lib : Library Raw Headers} {start f g : Fleet Raw Headers} {a : Action Raw}
    {trace : List (Fleet Raw Headers × Action Raw)} (run : Run lib start trace f) (member : (g, a) ∈ trace) :
    ∃ earlier, Run lib start earlier g ∧ earlier ⊆ trace := by
  induction run with
  | start => cases member
  | @step trace f _ _ before _ ih =>
    obtain now | past := List.mem_cons.mp member
    · obtain ⟨rfl,rfl⟩ := Prod.mk.inj now
      exact ⟨trace, before, List.subset_cons_self _ _⟩
    · obtain ⟨earlier,run,inside⟩ := ih past
      exact ⟨earlier, run, List.subset_cons_of_subset _ inside⟩

/-- A library for elements that are kept as what they decode to, with http messages only. -/
def plain : Library (OutboundPayload Unit) Unit where
  from_bytes := .ok
  retry_msg msg := msg
  round_trip _ := rfl
  scheme _ := "http"
  retry_time now retries := now + [5, 7, 11, 16, 25].getD (retries - 1).toNat 5
  before a b := decide (a.retries ≤ b.retries)

/-- A message for the sample runs. -/
def sample (name : Nat) (retries : Int) : OutboundPayload Unit := ⟨[name], [], (), retries⟩

theorem plain_score {now : Int} {msg : OutboundPayload Unit} (fits : fits_float (msg.retries - 1)) :
    retry_score plain now msg = .ok (plain.retry_time now msg.retries) := if_pos fits

theorem plain_raises {now : Int} {msg : OutboundPayload Unit} (large : fits_float (msg.retries - 1) = false) :
    retry_score plain now msg = .error .OverflowError := if_neg (Bool.eq_false_iff.mp large)

end AcapyRedis.Deliverer
