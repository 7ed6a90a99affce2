import AcapyRedis.Payloads
import AcapyRedis.Threads

/-!
What ends `process_delivery` of `redis_deliverer/deliver/deliver.py`. Only the POST is
tried; so what decoding, a web socket or the wait of a retry raises ends the loop. An
iteration goes on as it should exactly on the elements that `Survives` names (`goes_on_iff`),
and so does the loop on any number of them (`process_delivery_ok_iff`). The iteration is
what a loop of the fleet of deliverers does with a popped element (`handle_comes`).
-/
namespace AcapyRedis.Survival
open AcapyRedis.Python AcapyRedis.SortedSets AcapyRedis.Deliverer AcapyRedis.Records AcapyRedis.Payloads

/-! ### The loop -/

/-- How a delivery over a web socket ends. -/
inductive Dispatched
  | sent
  | ClientError
  | TimeoutError

def Dispatched.result : Dispatched → Except PyError Unit
  | .sent => .ok ()
  | .ClientError => .error .ClientError
  | .TimeoutError => .error .TimeoutError

/-- An element of the outbound topic, how its delivery ends over HTTP or a web socket, and the
    clock when it is added for another try. -/
structure Popped where
  msg_bytes : Bytes
  response : Response
  dispatched : Dispatched
  now : Int

def add_retry (tools : Toolbox) (now : Int) (message : OutboundPayload Headers) (retry : SortedSet Bytes) :
    Except PyError (SortedSet Bytes) := do
  let retry_time ← if fits_float (message.retries - 1) then pure (tools.retry_time now message.retries)
    else .error .OverflowError
  return zadd retry (← retry_msg tools message) retry_time

/-- The body of the loop on a popped element: the retry set afterwards. -/
def deliver (tools : Toolbox) (popped : Popped) (retry : SortedSet Bytes) : Except PyError (SortedSet Bytes) := do
  let msg ← OutboundPayload.from_bytes tools popped.msg_bytes
  if msg.endpoint_scheme = text "http" ∨ msg.endpoint_scheme = text "https" then do
    popped.response.result
    if popped.response.failed then
      if msg.retries < 5 then add_retry tools popped.now msg.retried retry
      else return retry
    else return retry
  else if msg.endpoint_scheme = text "ws" then do
    popped.dispatched.result
    return retry
  else return retry

/-- The loop over the elements that it pops. -/
def process_delivery (tools : Toolbox) : List Popped → SortedSet Bytes → Except PyError (SortedSet Bytes)
  | [], retry => .ok retry
  | popped :: later, retry => do process_delivery tools later (← deliver tools popped retry)

/-! ### What is asked of it -/

variable {tools : Toolbox} {popped : Popped}

def Web (msg : Message tools) : Prop := msg.endpoint_scheme = text "http" ∨ msg.endpoint_scheme = text "https"

/-- The delivery of the message fails. -/
def Fails (popped : Popped) (msg : Message tools) : Prop :=
  (Web msg ∧ popped.response.failed = true) ∨ (msg.endpoint_scheme = text "ws" ∧ popped.dispatched ≠ .sent)

/-- The loop goes on, an element that is not a message is discarded, and one whose delivery
    fails is in the retry set if it has tries left. -/
def GoesOn (tools : Toolbox) (popped : Popped) (retry : SortedSet Bytes) : Prop :=
  ∃ after, deliver tools popped retry = .ok after ∧
    ((∀ msg : Message tools, ¬ Describes tools popped.msg_bytes msg.toOutboundPayload) → after = retry) ∧
    ∀ msg : Message tools, Describes tools popped.msg_bytes msg.toOutboundPayload → Fails popped msg → msg.retries < 5 →
      ∃ row, retry_msg tools msg.retried = .ok row ∧ row ∈ after

/-- The element is a message, its web socket delivery does not fail, its POST raises only what
    the loop catches, and its retry count converts to a float if it is to be tried again. -/
def Survives (tools : Toolbox) (popped : Popped) : Prop :=
  ∃ msg : Message tools, Describes tools popped.msg_bytes msg.toOutboundPayload ∧
    (msg.endpoint_scheme = text "ws" → popped.dispatched = .sent) ∧
    (Web msg → popped.response.raises = false) ∧
    (Web msg → popped.response.failed = true → msg.retries < 5 → fits_float msg.retries = true)

/-! ### An iteration -/

theorem ws_not_web {msg : Message tools} (ws : msg.endpoint_scheme = text "ws") : ¬ Web msg := by
  rintro (http | https)
  · exact absurd (ws.symm.trans http) (by decide)
  · exact absurd (ws.symm.trans https) (by decide)

theorem add_retry_ok (retry : SortedSet Bytes) {now : Int} {msg : OutboundPayload Headers} {row : Bytes}
    (written : retry_msg tools msg.retried = .ok row) (fits : fits_float msg.retries = true) :
    add_retry tools now msg.retried retry = .ok (zadd retry row (tools.retry_time now (msg.retries + 1))) := by
  have before : msg.retried.retries - 1 = msg.retries := Int.add_sub_cancel _ _
  simp only [add_retry,before,fits,↓reduceIte,written,ok_bind,pure_ok]
  rfl

theorem add_retry_raises (retry : SortedSet Bytes) {now : Int} {msg : OutboundPayload Headers}
    (large : fits_float msg.retries = false) :
    add_retry tools now msg.retried retry = .error .OverflowError := by
  have before : msg.retried.retries - 1 = msg.retries := Int.add_sub_cancel _ _
  simp only [add_retry,before,large,Bool.false_eq_true,↓reduceIte,error_bind]

/-- What an iteration does with a message. -/
theorem deliver_message (retry : SortedSet Bytes) {msg : Message tools}
    (read : OutboundPayload.from_bytes tools popped.msg_bytes = .ok msg) :
    (Web msg → popped.response.failed = true → msg.retries < 5 →
      deliver tools popped retry = add_retry tools popped.now msg.retried retry) ∧
    (Web msg → popped.response.raises = false → ¬ (popped.response.failed = true ∧ msg.retries < 5) →
      deliver tools popped retry = .ok retry) ∧
    (Web msg → ∀ error, popped.response.result = .error error → deliver tools popped retry = .error error) ∧
    (msg.endpoint_scheme = text "ws" →
      deliver tools popped retry = popped.dispatched.result >>= fun _ => pure retry) ∧
    (¬ Web msg → msg.endpoint_scheme ≠ text "ws" → deliver tools popped retry = .ok retry) := by
  refine ⟨fun web failed few => ?_, fun web caught settled => ?_, fun web error raised => ?_, fun ws => ?_,
    fun other others => ?_⟩
  · simp only [deliver,read,ok_bind,if_pos (show _ ∨ _ from web),result_ok (failed_caught failed),failed,few,↓reduceIte]
  · simp only [deliver,read,ok_bind,if_pos (show _ ∨ _ from web),result_ok caught]
    by_cases failed : popped.response.failed = true
    · have spent : ¬ msg.retries < 5 := fun few => settled ⟨failed,few⟩
      simp only [failed,spent,↓reduceIte,pure_ok]
    · simp only [failed,Bool.false_eq_true,↓reduceIte,pure_ok]
  · simp only [deliver,read,ok_bind,if_pos (show _ ∨ _ from web),raised,error_bind]
  · simp only [deliver,read,ok_bind,if_neg (show ¬ (_ ∨ _) from ws_not_web ws),if_pos ws]
  · simp only [deliver,read,ok_bind,if_neg (show ¬ (_ ∨ _) from other),if_neg others,pure_ok]

/-- The elements after which the loop goes on. -/
theorem deliver_ok_iff (retry : SortedSet Bytes) :
    (∃ after, deliver tools popped retry = .ok after) ↔ Survives tools popped := by
  constructor
  · rintro ⟨after,went⟩
    obtain ⟨msg,read,_⟩ := bind_ok_iff.mp went
    obtain ⟨again,_,raised,ws,_⟩ := deliver_message retry read
    refine ⟨msg, from_bytes_iff.mp read, fun scheme => ?_, fun web => ?_, fun web failed few => ?_⟩
    · rw [ws scheme] at went
      cases sent : popped.dispatched with
      | sent => rfl
      | ClientError => rw [sent] at went; cases went
      | TimeoutError => rw [sent] at went; cases went
    · cases raises : popped.response.raises with
      | false => rfl
      | true =>
        obtain ⟨error,thrown⟩ := result_error raises
        rw [raised web error thrown] at went
        cases went
    · rw [again web failed few] at went
      cases fits : fits_float msg.retries with
      | true => rfl
      | false =>
        rw [add_retry_raises retry fits] at went
        cases went
  · rintro ⟨msg,described,sent,caught,fits⟩
    obtain ⟨again,settled,_,ws,others⟩ := deliver_message retry (from_bytes_iff.mpr described)
    by_cases web : Web msg
    · by_cases failed : popped.response.failed = true ∧ msg.retries < 5
      · obtain ⟨row,written⟩ := tools.json.encodes (retry_record msg.retried)
        exact ⟨_, (again web failed.1 failed.2).trans (add_retry_ok retry written (fits web failed.1 failed.2))⟩
      · exact ⟨retry, settled web (caught web) failed⟩
    · by_cases scheme : msg.endpoint_scheme = text "ws"
      · refine ⟨retry, (ws scheme).trans ?_⟩
        rw [sent scheme]
        rfl
      · exact ⟨retry, others web scheme⟩

/-- An iteration does what is asked of it exactly when it survives its element. -/
theorem goes_on_iff (retry : SortedSet Bytes) : GoesOn tools popped retry ↔ Survives tools popped := by
  constructor
  · rintro ⟨after,went,_⟩
    exact (deliver_ok_iff retry).mp ⟨after,went⟩
  · intro survives
    obtain ⟨after,went⟩ := (deliver_ok_iff retry).mpr survives
    obtain ⟨msg,described,sent,_,fits⟩ := survives
    have read := from_bytes_iff.mpr described
    refine ⟨after, went, fun none => absurd described (none msg), fun other described' failed few => ?_⟩
    have same : other = msg := Except.ok.inj ((from_bytes_iff.mpr described').symm.trans read)
    subst same
    obtain ⟨row,written⟩ := tools.json.encodes (retry_record other.retried)
    refine ⟨row, written, ?_⟩
    obtain ⟨web,failed⟩ | ⟨ws,failed⟩ := failed
    · have added := ((deliver_message retry read).1 web failed few).trans (add_retry_ok retry written (fits web failed few))
      obtain rfl := Except.ok.inj (went.symm.trans added)
      exact mem_zadd.mpr (.inl rfl)
    · exact absurd (sent ws) failed

/-- The loop comes to the end of what it pops exactly when it survives every element. -/
theorem process_delivery_ok_iff (rows : List Popped) (retry : SortedSet Bytes) :
    (∃ after, process_delivery tools rows retry = .ok after) ↔ ∀ popped ∈ rows, Survives tools popped := by
  induction rows generalizing retry with
  | nil => simp [process_delivery]
  | cons popped later ih =>
    rw [List.forall_mem_cons]
    simp only [process_delivery,bind_ok_iff]
    constructor
    · rintro ⟨after,middle,went,rest⟩
      exact ⟨(deliver_ok_iff retry).mp ⟨middle,went⟩, (ih middle).mp ⟨after,rest⟩⟩
    · rintro ⟨first,rest⟩
      obtain ⟨middle,went⟩ := (deliver_ok_iff retry).mpr first
      obtain ⟨after,went'⟩ := (ih middle).mpr rest
      exact ⟨after, middle, went, went'⟩

/-! ### The steps of the fleet -/

/-- A library that says of an element what the tools compute. -/
structure Reflects (tools : Toolbox) (lib : Library Bytes Headers) (row : Bytes) : Prop where
  from_bytes : lib.from_bytes row = (OutboundPayload.from_bytes tools row).map (·.toOutboundPayload)
  scheme : ∀ msg, OutboundPayload.from_bytes tools row = .ok msg → text (lib.scheme msg.url) = msg.endpoint_scheme
  retry_msg : ∀ msg, OutboundPayload.from_bytes tools row = .ok msg →
    retry_msg tools msg.retried = .ok (lib.retry_msg msg.retried)
  retry_time : lib.retry_time = tools.retry_time

theorem reflects_web {lib : Library Bytes Headers} {row : Bytes} (reflects : Reflects tools lib row) {msg : Message tools}
    (read : OutboundPayload.from_bytes tools row = .ok msg) :
    (web lib msg.toOutboundPayload = true ↔ Web msg) ∧
    (lib.scheme msg.url = "ws" ↔ msg.endpoint_scheme = text "ws") := by
  have scheme := reflects.scheme msg read
  have each : ∀ name, lib.scheme msg.url = name ↔ msg.endpoint_scheme = text name := by
    intro name
    rw [← scheme]
    exact ⟨congrArg text, text_inj⟩
  refine ⟨?_, each "ws"⟩
  simp only [web,Bool.or_eq_true,beq_iff_eq,each,Web]

/-- The fleet gets from one state to another. -/
abbrev Steps (lib : Library Bytes Headers) : Fleet Bytes Headers → Fleet Bytes Headers → Prop :=
  Relation.ReflTransGen (fun g g' => ∃ a, Step lib g a g')

/-- The fleet gets to a state in which a loop has come to the outcome of its iteration. -/
def Comes (lib : Library Bytes Headers) (f : Fleet Bytes Headers) (i : Nat) (outcome : Except PyError (SortedSet Bytes)) :
    Prop :=
  ∃ f', Steps lib f f' ∧ f'.outbound = f.outbound ∧
    match outcome with
    | .ok after => f'.deliveries = f.deliveries.set i .polling ∧ f'.retry = after
    | .error _ => f'.deliveries = f.deliveries.set i .crashed ∧ f'.retry = f.retry

section
variable {lib : Library Bytes Headers} {f g : Fleet Bytes Headers} {i : Nat} {loop : Delivering Headers}

theorem set_there (there : f.deliveries[i]? = some loop) (next : Delivering Headers) :
    (f.deliveries.set i next)[i]? = some next :=
  List.getElem?_set_self (List.getElem?_eq_some_iff.mp there).1

theorem polling_comes (polling : f.deliveries[i]? = some .polling) : Comes lib f i (.ok f.retry) :=
  ⟨f, .refl, rfl, (Threads.set_same polling).symm, rfl⟩

theorem crashed_comes (crashed : f.deliveries[i]? = some .crashed) (error : PyError) : Comes lib f i (.error error) :=
  ⟨f, .refl, rfl, (Threads.set_same crashed).symm, rfl⟩

/-- A step of the loop comes before the rest of the iteration. -/
theorem Comes.after {a : Action Bytes} {outcome : Except PyError (SortedSet Bytes)} (step : Step lib f a g)
    (outbound : g.outbound = f.outbound) (deliveries : g.deliveries = f.deliveries.set i loop)
    (retry : g.retry = f.retry) (comes : Comes lib g i outcome) : Comes lib f i outcome := by
  obtain ⟨f',steps,rest,settled⟩ := comes
  refine ⟨f', .head ⟨a,step⟩ steps, rest.trans outbound, ?_⟩
  cases outcome with
  | ok after => exact ⟨by rw [settled.1,deliveries,List.set_set], settled.2⟩
  | error error => exact ⟨by rw [settled.1,deliveries,List.set_set], settled.2.trans retry⟩

/-- In `add_retry`. -/
theorem adding_comes (reflects : Reflects tools lib popped.msg_bytes) {msg : Message tools}
    (read : OutboundPayload.from_bytes tools popped.msg_bytes = .ok msg)
    (adding : f.deliveries[i]? = some (.adding msg.retried)) :
    Comes lib f i (add_retry tools popped.now msg.retried f.retry) := by
  have before : msg.retried.retries - 1 = msg.retries := Int.add_sub_cancel _ _
  cases fits : fits_float msg.retries with
  | true =>
    have score : retry_score lib popped.now msg.retried = .ok (tools.retry_time popped.now (msg.retries + 1)) := by
      rw [retry_score,before,fits,if_pos rfl,reflects.retry_time]
      rfl
    rw [add_retry_ok f.retry (reflects.retry_msg msg read) fits]
    exact ⟨_, .single ⟨_, .add_retry popped.now adding score⟩, rfl, rfl, rfl⟩
  | false =>
    have score : retry_score lib popped.now msg.retried = .error .OverflowError := by
      rw [retry_score,before,fits]
      rfl
    rw [add_retry_raises f.retry fits]
    exact ⟨_, .single ⟨_, .add_retry_raises popped.now adding score⟩, rfl, rfl, rfl⟩

/-- When the POST has ended. -/
theorem posted_comes (reflects : Reflects tools lib popped.msg_bytes) {msg : Message tools}
    (read : OutboundPayload.from_bytes tools popped.msg_bytes = .ok msg) (kind : Web msg)
    (posted : f.deliveries[i]? = some (.posted msg.toOutboundPayload)) :
    Comes lib f i (deliver tools popped f.retry) := by
  obtain ⟨again,settled,raised,_⟩ := deliver_message f.retry read
  refine .after (.respond popped.response posted) rfl rfl rfl ?_
  have ended := set_there posted (conclude msg.toOutboundPayload popped.response)
  cases raises : popped.response.raises with
  | true =>
    obtain ⟨error,thrown⟩ := result_error raises
    rw [raised kind error thrown]
    rw [conclude,if_pos raises] at ended ⊢
    exact crashed_comes ended error
  | false =>
    have caught := Bool.eq_false_iff.mp raises
    by_cases failed : popped.response.failed = true ∧ msg.retries < 5
    · rw [again kind failed.1 failed.2]
      rw [conclude,if_neg caught,if_pos failed.1,if_pos failed.2] at ended ⊢
      exact adding_comes reflects read ended
    · have polling : conclude msg.toOutboundPayload popped.response = .polling := by
        rw [conclude,if_neg caught]
        split
        · next answered => exact if_neg (fun few => failed ⟨answered,few⟩)
        · rfl
      rw [settled kind raises failed]
      rw [polling] at ended ⊢
      exact polling_comes ended

/-- With a message that was popped and is to be sent over a web socket. -/
theorem dispatching_comes {msg : Message tools} (read : OutboundPayload.from_bytes tools popped.msg_bytes = .ok msg)
    (kind : msg.endpoint_scheme = text "ws")
    (dispatching : f.deliveries[i]? = some (.dispatching msg.toOutboundPayload)) :
    Comes lib f i (deliver tools popped f.retry) := by
  obtain ⟨_,_,_,ws,_⟩ := deliver_message f.retry read
  have crashes : ∀ error, Comes lib f i (.error error) := fun error =>
    .after (.dispatch false dispatching) rfl rfl rfl (crashed_comes (set_there dispatching .crashed) error)
  rw [ws kind]
  cases popped.dispatched with
  | sent => exact .after (.dispatch true dispatching) rfl rfl rfl (polling_comes (set_there dispatching .polling))
  | ClientError => exact crashes .ClientError
  | TimeoutError => exact crashes .TimeoutError

/-- What a loop of the fleet does with a popped element is the iteration. -/
theorem handle_comes (reflects : Reflects tools lib popped.msg_bytes)
    (handled : f.deliveries[i]? = some (handle lib popped.msg_bytes)) : Comes lib f i (deliver tools popped f.retry) := by
  rw [handle,reflects.from_bytes] at handled
  cases read : OutboundPayload.from_bytes tools popped.msg_bytes with
  | error error =>
    rw [read] at handled
    rw [deliver,read]
    exact crashed_comes handled error
  | ok msg =>
    obtain ⟨is_web,is_ws⟩ := reflects_web reflects read
    rw [read] at handled
    simp only [Except.map] at handled
    by_cases kind : Web msg
    · rw [if_pos (is_web.mpr kind)] at handled
      exact .after (.post handled) rfl rfl rfl (posted_comes reflects read kind (set_there handled _))
    · rw [if_neg (fun such => kind (is_web.mp such))] at handled
      by_cases scheme : msg.endpoint_scheme = text "ws"
      · rw [if_pos (is_ws.mpr scheme)] at handled
        exact dispatching_comes read scheme handled
      · rw [if_neg (fun such => scheme (is_ws.mp such))] at handled
        rw [(deliver_message f.retry read).2.2.2.2 kind scheme]
        exact polling_comes handled

end

/-! ### A message and a byte -/

def message_json : Json :=
  .obj [(text "service", .obj [(text "url", .str (text "http://a"))]), (text "payload", .str (text "YQ=="))]

def message_a : Bytes := (sample_text message_json).map UInt8.ofNat

/-- Tools that take typed values as they are. -/
def tools_a : Toolbox where
  json := sample_json [message_json]
  service value := match value.getItem "url" with
    | .ok (.str url) => some url
    | _ => none
  dict
    | .obj fields => some fields
    | _ => none
  int
    | .int value => some value
    | _ => none
  urlparse_scheme url := .ok (url.takeWhile (· ≠ 58))
  retry_time now _ := now + 5

theorem message_a_described :
    Describes tools_a message_a ⟨text "http://a", [97], [], 0⟩ := by
  have reads : ReadsBack [message_json] 0 message_json := by decide +kernel
  refine ⟨sample_text message_json, _, by decide +kernel, sample_loads_text rfl reads, by rfl, by rfl, ?_⟩
  exact ⟨⟨_, by rfl, by rfl⟩, ⟨text "YQ==", text "YQ==" |>.map UInt8.ofNat, by rfl, by rfl, by rfl⟩, by rfl, by rfl⟩

/-- A message whose POST fails lets the loop go on, a byte that is not UTF-8 ends it. -/
theorem byte_stops_loop : Survives tools_a ⟨message_a, .status 500, .sent, 0⟩ ∧
    ¬ GoesOn tools_a ⟨[255], .status 200, .sent, 0⟩ ∅ := by
  constructor
  · refine ⟨⟨⟨text "http://a", [97], [], 0⟩, text "http", by rfl⟩, message_a_described, fun _ => rfl, fun _ => rfl, fun _ _ _ => ?_⟩
    exact of_decide_eq_true (by decide +kernel)
  · rintro ⟨after,went,_⟩
    have broken : Bytes.decode [255] = .error .UnicodeDecodeError := by decide +kernel
    rw [deliver,OutboundPayload.from_bytes,broken] at went
    cases went

end AcapyRedis.Survival
