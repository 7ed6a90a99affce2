import AcapyRedis.Agreement

/-!
What becomes of a popped record in `start`. Around its decoding only `JSONDecodeError` and
`KeyError` are caught, so any other record that does not decode ends the loop
(`loop_goes_on_iff`). A record that decodes is gone from its list; it is handed to a session
exactly if none of the commands that count it off raises (`handed_on_iff`).
-/
namespace AcapyRedis.Arrivals
open AcapyRedis.Programs AcapyRedis.Programs.Program AcapyRedis.Python AcapyRedis.RedisStore AcapyRedis.Utils
open AcapyRedis.Inbound AcapyRedis.Base64 AcapyRedis.Records AcapyRedis.Agreement

/-! ### Up to the session -/

/-- What `start` writes about a message that it has popped. -/
def bookkeeping (self : RedisInboundTransport) (k : RecipKey) : Redis Unit := do
  redis (.hset_last_access self.plugin_uid (self.clock k))
  match ← redis (.hget_pending (uid_recip_key self.plugin_uid k)) with
  | some count =>
    if 1 ≤ count then
      redis (.hset_pending (uid_recip_key self.plugin_uid k) (count - 1))
  | none => return

/-- The payload and the `txn_id` of a popped record, if it has some. -/
def arrived (self : RedisInboundTransport) (k : RecipKey) : Entry → Redis (Option (Bytes × Option Text))
  | .invalid .JSONDecodeError => return none
  | .invalid .KeyError => return none
  | .invalid error => .raise error
  | .direct_response _ _ _ => return none
  | .inbound payload txn_id => do
    bookkeeping self k
    return some (payload, txn_id)

/-- The turn of a key up to the call of `session.receive`: what it is called for. -/
def arrive (self : RedisInboundTransport) (k : RecipKey) : Redis (Option (Bytes × Option Text)) := do
  match ← pop_message (topic_list self.inbound_topic k) 6 with
  | some entry => arrived self k entry
  | none => return none

def hand_on (self : RedisInboundTransport) : Option (Bytes × Option Text) → Redis Unit
  | some (payload, txn_id) => self.receive payload txn_id
  | none => return

theorem handling_parts (self : RedisInboundTransport) (k : RecipKey) (payload : Bytes) (txn_id : Option Text) :
    handling self k payload txn_id = bookkeeping self k >>= fun _ => self.receive payload txn_id := by
  rw [handling,bookkeeping,bind_bind]
  refine congrArg (_ >>= ·) (funext fun _ => ?_)
  rw [bind_bind]
  refine congrArg (_ >>= ·) (funext fun reply => ?_)
  cases reply with
  | none => rfl
  | some count =>
    dsimp only
    split <;> rfl

/-- The turn of a key is its part up to the session and the rest. -/
theorem poll_key_parts (self : RedisInboundTransport) (k : RecipKey) :
    self.poll_key k = arrive self k >>= hand_on self := by
  rw [RedisInboundTransport.poll_key,arrive,bind_bind]
  refine congrArg (_ >>= ·) (funext fun msg => ?_)
  rcases msg with _ | ⟨payload,txn_id⟩ | ⟨_,_,_⟩ | error
  · rfl
  · have parts := handling_parts self k payload txn_id
    rw [handling] at parts
    exact parts.trans (by simp only [arrived,bind_bind,Program.pure_eq,done_bind,hand_on])
  · rfl
  · cases error <;> rfl

theorem poll_key_raising (raises : Command → Option PyError) (self : RedisInboundTransport) (k : RecipKey) :
    (self.poll_key k).raising raises =
      (arrive self k).raising raises >>= fun handed => (hand_on self handed).raising raises := by
  rw [poll_key_parts,raising_bind]

section
variable {self : RedisInboundTransport} {k : RecipKey} {entry : Entry} {rest : List Entry} {s : Store}
variable {raises : Command → Option PyError}

/-- The store when the first record of the list of a key is popped. -/
def after_pop (self : RedisInboundTransport) (k : RecipKey) (rest : List Entry) (s : Store) : Store :=
  { s with lists := Function.update s.lists (topic_list self.inbound_topic k) rest }

theorem after_pop_lists : (after_pop self k rest s).lists =
    Function.update s.lists (topic_list self.inbound_topic k) rest := rfl

theorem arrive_first (first : s.lists (topic_list self.inbound_topic k) = entry :: rest)
    (pops : raises (.blpop (topic_list self.inbound_topic k)) = none)
    (post : Except PyError (Option (Bytes × Option Text)) → Store → Prop) :
    Ends exec post ((arrive self k).raising raises) s ↔
      Ends exec post ((arrived self k entry).raising raises) (after_pop self k rest s) := by
  simp only [arrive,pop_message,Program.attempt,Program.call,command_bind,raising_none pops,ends_command,exec,first,
    List.head?_cons,List.tail_cons,done_bind,Program.pure_eq]
  constructor
  · exact fun ends => ends default
  · exact fun ends _ => ends

/-! ### Handing on -/

/-- None of the commands that count the message off raises: the `HSET` of the last access, the
    `HGET` of the counter and, if the counter is at least 1, its `HSET`. -/
def Spared (raises : Command → Option PyError) (self : RedisInboundTransport) (k : RecipKey) (s : Store) : Prop :=
  raises (.hset_last_access self.plugin_uid (self.clock k)) = none ∧
  raises (.hget_pending (uid_recip_key self.plugin_uid k)) = none ∧
  ∀ count, s.uid_recip_key_pending_msg_count.lookup (uid_recip_key self.plugin_uid k) = some count → 1 ≤ count →
    raises (.hset_pending (uid_recip_key self.plugin_uid k) (count - 1)) = none

theorem bookkeeping_ends (raises : Command → Option PyError) (self : RedisInboundTransport) (k : RecipKey) (s : Store) :
    Ends exec (fun outcome s' => s'.lists = s.lists ∧ (outcome = .ok () ↔ Spared raises self k s))
      ((bookkeeping self k).raising raises) s := by
  have fails : ∀ {error : PyError} {s' : Store}, s'.lists = s.lists → ¬ Spared raises self k s →
      s'.lists = s.lists ∧ ((.error error : Except PyError Unit) = .ok () ↔ Spared raises self k s) :=
    fun same touched => ⟨same, iff_of_false nofun touched⟩
  rw [bookkeeping]
  cases access : raises (.hset_last_access self.plugin_uid (self.clock k)) with
  | some error =>
    rw [ends_call_fails access]
    exact fails rfl (fun spared => Option.some_ne_none error (access.symm.trans spared.1))
  | none =>
    rw [ends_call_kept access]
    intro _
    cases read : raises (.hget_pending (uid_recip_key self.plugin_uid k)) with
    | some error =>
      rw [ends_call_fails read]
      exact fails rfl (fun spared => Option.some_ne_none error (read.symm.trans spared.2.1))
    | none =>
      rw [ends_call_kept read]
      intro _
      cases counter : s.uid_recip_key_pending_msg_count.lookup (uid_recip_key self.plugin_uid k) with
      | none =>
        simp only [exec,counter]
        exact ⟨rfl, iff_of_true rfl ⟨access, read, fun count there => by rw [counter] at there; cases there⟩⟩
      | some count =>
        simp only [exec,counter]
        by_cases some_message : 1 ≤ count
        · simp only [some_message,↓reduceIte]
          cases write : raises (.hset_pending (uid_recip_key self.plugin_uid k) (count - 1)) with
          | some error =>
            rw [redis,Program.call,raising_some write]
            refine fails rfl (fun spared => Option.some_ne_none error (write.symm.trans ?_))
            exact spared.2.2 count counter some_message
          | none =>
            rw [redis,Program.call,raising_none write]
            refine fun _ => ⟨rfl, iff_of_true rfl ⟨access, read, fun other there _ => ?_⟩⟩
            obtain rfl := Option.some.inj (counter.symm.trans there)
            exact write
        · simp only [some_message,↓reduceIte]
          refine ⟨rfl, iff_of_true rfl ⟨access, read, fun other there positive => ?_⟩⟩
          obtain rfl := Option.some.inj (counter.symm.trans there)
          exact absurd positive some_message

/-- A spared message comes to the session. -/
theorem poll_key_spared {payload : Bytes} {txn_id : Option Text}
    (first : s.lists (topic_list self.inbound_topic k) = .inbound payload txn_id :: rest)
    (pops : raises (.blpop (topic_list self.inbound_topic k)) = none) (spared : Spared raises self k s)
    {post : Except PyError Unit → Store → Prop}
    (ends : ∀ s', s'.lists = (after_pop self k rest s).lists →
      Ends exec post ((self.receive payload txn_id).raising raises) s') :
    Ends exec post ((self.poll_key k).raising raises) s := by
  rw [poll_key_raising,ends_bind,arrive_first first pops,arrived,raising_bind,ends_bind]
  refine (bookkeeping_ends raises self k (after_pop self k rest s)).mono (fun outcome s' counted => ?_)
  obtain rfl := counted.2.mpr spared
  exact ends s' counted.1

/-- The commands that may raise: those that count a message off. -/
def CountsOff (self : RedisInboundTransport) (k : RecipKey) : Command → Prop
  | .hset_last_access uid _ => uid = self.plugin_uid
  | .hget_pending field => field = uid_recip_key self.plugin_uid k
  | .hset_pending field _ => field = uid_recip_key self.plugin_uid k
  | _ => False

/-- The payload of the popped record is handed to a session, or the record is back in its list. -/
def HandedOn (raises : Command → Option PyError) (self : RedisInboundTransport) (k : RecipKey) (payload : Bytes)
    (txn_id : Option Text) (rest : List Entry) (s : Store) : Prop :=
  Ends exec (fun outcome s' => outcome = .ok (some (payload, txn_id)) ∨
      (s'.lists (topic_list self.inbound_topic k)).Perm (.inbound payload txn_id :: rest))
    ((arrive self k).raising raises) s

/-- A popped message is handed on exactly if none of the commands that count it off raises. -/
theorem handed_on_iff {payload : Bytes} {txn_id : Option Text}
    (first : s.lists (topic_list self.inbound_topic k) = .inbound payload txn_id :: rest)
    (pattern : ∀ c error, raises c = some error →
      CountsOff self k c ∧ (error = .RedisError ∨ error = .RedisClusterException)) :
    HandedOn raises self k payload txn_id rest s ↔ Spared raises self k s := by
  have pops : raises (.blpop (topic_list self.inbound_topic k)) = none := by
    cases fails : raises (.blpop (topic_list self.inbound_topic k)) with
    | none => rfl
    | some error => exact (pattern _ _ fails).1.elim
  have left : (after_pop self k rest s).lists (topic_list self.inbound_topic k) = rest := Function.update_self _ _ _
  have gone : ¬ rest.Perm (.inbound payload txn_id :: rest) := fun perm => by simpa using perm.length_eq
  have counted := bookkeeping_ends raises self k (after_pop self k rest s)
  rw [HandedOn,arrive_first first pops,arrived,raising_bind,ends_bind]
  constructor
  · intro handed
    obtain ⟨outcome,s',⟨same,ended⟩,held⟩ := counted.meet handed
    cases outcome with
    | ok value => exact ended.mp rfl
    | error error =>
      obtain returned | back := held
      · cases returned
      · rw [same,left] at back
        exact absurd back gone
  · intro spared
    refine counted.mono (fun outcome s' ends => ?_)
    obtain rfl := ends.2.mpr spared
    exact .inl rfl

end

/-- A message is waiting in the list of the key `k`. -/
def one_waiting : Store :=
  { Store.empty with lists := Function.update (fun _ => []) (topic_list "t" "k") [.inbound [1] none] }

/-- The `HSET` of the counter raises. -/
def count_fails : Command → Option PyError
  | .hset_pending field _ => if field = uid_recip_key Pending.instance_a.plugin_uid "k" then some .RedisError else none
  | _ => none

/-- Without a counter nothing is written, and the message is handed on. -/
theorem handed_on_uncounted : HandedOn count_fails Pending.instance_a "k" [1] none [] one_waiting := by
  have pattern : ∀ c error, count_fails c = some error →
      CountsOff Pending.instance_a "k" c ∧ (error = .RedisError ∨ error = .RedisClusterException) := by
    intro c error fails
    cases c with
    | hset_pending field count =>
      obtain ⟨same,here⟩ := Option.ite_none_right_eq_some.mp fails
      exact ⟨same, .inl (Option.some.inj here).symm⟩
    | _ => cases fails
  exact (handed_on_iff (by rfl) pattern).mpr ⟨rfl, rfl, fun _ there => by cases there⟩

/-- The `HSET` of the last access raises. -/
def access_fails : Command → Option PyError
  | .hset_last_access uid _ => if uid = Pending.instance_a.plugin_uid then some .RedisError else none
  | _ => none

/-- The message is popped, and neither handed to a session nor put back. -/
theorem message_dropped :
    one_waiting.lists (topic_list Pending.instance_a.inbound_topic "k") = [.inbound [1] none] ∧
    (∀ c error, access_fails c = some error → CountsOff Pending.instance_a "k" c ∧ error = .RedisError) ∧
    ¬ HandedOn access_fails Pending.instance_a "k" [1] none [] one_waiting := by
  refine ⟨by rfl, fun c error fails => ?_, fun handed => ?_⟩
  · cases c with
    | hset_last_access uid time =>
      obtain ⟨same,here⟩ := Option.ite_none_right_eq_some.mp fails
      exact ⟨same, (Option.some.inj here).symm⟩
    | _ => cases fails
  · rw [HandedOn,arrive_first (by rfl) (by rfl),arrived,bookkeeping,bind_bind,ends_call_fails (by rfl)] at handed
    obtain returned | back := handed
    · cases returned
    · exact absurd back.length_eq (by decide)

/-! ### Records that do not decode -/

section
variable {self : RedisInboundTransport} {k : RecipKey} {entry : Entry} {rest : List Entry} {s : Store}

theorem poll_key_pops (first : s.lists (topic_list self.inbound_topic k) = entry :: rest)
    (post : Except PyError Unit → Store → Prop) :
    Ends exec post (self.poll_key k) s ↔
      Ends exec (Continues exec post (hand_on self)) (arrived self k entry) (after_pop self k rest s) := by
  rw [poll_key_parts,ends_bind,← raising_nothing (arrive self k),arrive_first first rfl,raising_nothing]

/-- A record with a payload is counted off and handed to a session. -/
theorem poll_key_inbound {payload : Bytes} {txn_id : Option Text}
    (first : s.lists (topic_list self.inbound_topic k) = .inbound payload txn_id :: rest)
    {post : Except PyError Unit → Store → Prop}
    (ends : ∀ s', s'.lists = (after_pop self k rest s).lists → Ends exec post (self.receive payload txn_id) s') :
    Ends exec post (self.poll_key k) s := by
  rw [← raising_nothing (self.poll_key k)]
  refine poll_key_spared first rfl ⟨rfl, rfl, fun _ _ _ => rfl⟩ (fun s' same => ?_)
  rw [raising_nothing]
  exact ends s' same

/-- The exceptions that `start` catches around the decoding. -/
def DecodingError (error : PyError) : Prop := error = .JSONDecodeError ∨ error = .KeyError

instance (error : PyError) : Decidable (DecodingError error) := inferInstanceAs (Decidable (_ ∨ _))

/-- Bytes that are no JSON, or an object without a payload or with one that is base64. -/
def Survivable (json : JsonModule) (msg_bytes : Bytes) : Prop :=
  (∃ error, json.loads (.inl msg_bytes) = .error error ∧ DecodingError error) ∨
  ∃ fields, json.loads (.inl msg_bytes) = .ok (.obj fields) ∧
    ∀ value, (Json.obj fields).getItem "payload" = .ok value →
      ∃ encoded bytes payload, value = .str encoded ∧ encoded.encodeAscii = .ok bytes ∧
        urlsafe_b64decode bytes = .ok payload

/-- The loop goes on with the next key, and nothing is done about a record that does not decode. -/
def GoesOn (json : JsonModule) (self : RedisInboundTransport) (k : RecipKey) (msg_bytes : Bytes) (rest : List Entry)
    (s : Store) : Prop :=
  Ends exec (fun outcome s' => outcome = .ok () ∧
    ((∀ read, decode_inbound json msg_bytes ≠ .ok read) → s' = after_pop self k rest s)) (self.poll_key k) s

/-- `session.receive` succeeds or raises one of the two exceptions that are caught. -/
def Handled : Except PyError (Option Response) → Prop
  | .ok _ => True
  | .error error => error = .MessageParseError ∨ error = .WireFormatParseError

/-- A payload that decodes is an ASCII string; what else it is raises an exception that is not caught. -/
theorem payload_decodes_iff {value : Json} :
    (∃ payload, urlsafe_b64decode_json value = .ok payload) ↔
      ∃ encoded bytes payload, value = .str encoded ∧ encoded.encodeAscii = .ok bytes ∧
        urlsafe_b64decode bytes = .ok payload := by
  cases value with
  | str encoded =>
    rw [urlsafe_b64decode_json]
    cases ascii : encoded.encodeAscii with
    | ok bytes =>
      constructor
      · rintro ⟨payload,decoded⟩
        exact ⟨encoded, bytes, payload, rfl, ascii, decoded⟩
      · rintro ⟨_,_,payload,⟨rfl⟩,same,decoded⟩
        cases ascii.symm.trans same
        exact ⟨payload,decoded⟩
    | error error =>
      constructor
      · rintro ⟨_,decoded⟩
        cases decoded
      · rintro ⟨_,_,_,⟨rfl⟩,same,_⟩
        cases ascii.symm.trans same
  | _ =>
    constructor
    · rintro ⟨_,decoded⟩
      cases decoded
    · rintro ⟨_,_,_,same,_⟩
      cases same

theorem payload_uncaught {value : Json} {error : PyError} (fails : urlsafe_b64decode_json value = .error error) :
    ¬ DecodingError error := by
  cases value with
  | str encoded =>
    rw [urlsafe_b64decode_json] at fails
    cases ascii : encoded.encodeAscii with
    | ok bytes =>
      rw [ascii] at fails
      rw [a2b_base64_error fails]
      decide
    | error other =>
      rw [ascii] at fails
      cases fails
      decide
  | _ =>
    cases fails
    decide

/-- An object only raises `KeyError`. -/
theorem getItem_missing {fields : List (Text × Json)} {key : String} {error : PyError}
    (fails : (Json.obj fields).getItem key = .error error) : error = .KeyError := by
  rw [Json.getItem] at fails
  split at fails
  · cases fails
  · cases fails
    rfl

/-- Survivable bytes decode or raise an exception that is caught. -/
theorem survivable_iff {json : JsonModule} {msg_bytes : Bytes} : Survivable json msg_bytes ↔
    (∃ read, decode_inbound json msg_bytes = .ok read) ∨
    ∃ error, decode_inbound json msg_bytes = .error error ∧ DecodingError error := by
  have raised : ∀ {error : PyError}, ¬ DecodingError error → decode_inbound json msg_bytes = .error error →
      ¬ ((∃ read, decode_inbound json msg_bytes = .ok read) ∨
        ∃ error, decode_inbound json msg_bytes = .error error ∧ DecodingError error) := by
    rintro error uncaught decoded (⟨read,same⟩ | ⟨other,same,caught⟩)
    · cases decoded.symm.trans same
    · cases decoded.symm.trans same
      exact uncaught caught
  cases loaded : json.loads (.inl msg_bytes) with
  | error error =>
    have decoded : decode_inbound json msg_bytes = .error error := by rw [decode_inbound,loaded,error_bind]
    rw [decoded]
    constructor
    · rintro (⟨other,same,caught⟩ | ⟨fields,same,_⟩)
      · cases loaded.symm.trans same
        exact .inr ⟨error, rfl, caught⟩
      · cases loaded.symm.trans same
    · rintro (⟨read,same⟩ | ⟨other,same,caught⟩)
      · cases same
      · cases same
        exact .inl ⟨error, loaded, caught⟩
  | ok inbound =>
    cases inbound with
    | obj fields =>
      cases field : (Json.obj fields).getItem "payload" with
      | error error =>
        have decoded : decode_inbound json msg_bytes = .error error := by
          rw [decode_inbound,loaded,ok_bind,field,error_bind]
        refine iff_of_true (.inr ⟨fields, loaded, fun value there => by cases field.symm.trans there⟩)
          (.inr ⟨error, decoded, .inr (getItem_missing field)⟩)
      | ok value =>
        cases payload : urlsafe_b64decode_json value with
        | error error =>
          have decoded : decode_inbound json msg_bytes = .error error := by
            rw [decode_inbound,loaded,ok_bind,field,ok_bind,payload,error_bind]
          refine iff_of_false ?_ (raised (payload_uncaught payload) decoded)
          rintro (⟨other,same,_⟩ | ⟨others,same,decodes⟩)
          · cases loaded.symm.trans same
          · cases loaded.symm.trans same
            obtain ⟨bytes,decodes⟩ := payload_decodes_iff.mpr (decodes value field)
            cases payload.symm.trans decodes
        | ok bytes =>
          have decoded : ∃ read, decode_inbound json msg_bytes = .ok read := by
            rw [decode_inbound,loaded,ok_bind,field,ok_bind,payload,ok_bind]
            exact ⟨_,rfl⟩
          refine iff_of_true (.inr ⟨fields, loaded, fun other there => ?_⟩) (.inl decoded)
          cases field.symm.trans there
          exact payload_decodes_iff.mp ⟨bytes,payload⟩
    | _ =>
      have decoded : decode_inbound json msg_bytes = .error .TypeError := by
        rw [decode_inbound,loaded]
        rfl
      refine iff_of_false ?_ (raised (by decide) decoded)
      rintro (⟨other,same,_⟩ | ⟨others,same,_⟩)
      · cases loaded.symm.trans same
      · cases loaded.symm.trans same

theorem arrived_invalid (error : PyError) :
    arrived self k (.invalid error) = if DecodingError error then return none else .raise error := by
  cases error <;> rfl

/-- Without a request for a direct response nothing follows the session. -/
theorem receive_silent {payload : Bytes} (handled : Handled (self.session payload))
    {post : Except PyError Unit → Store → Prop} : Ends exec post (self.receive payload none) s ↔ post (.ok ()) s := by
  rw [RedisInboundTransport.receive]
  cases received : self.session payload with
  | ok response => rfl
  | error error =>
    rw [received] at handled
    obtain rfl | rfl := handled
    · rfl
    · rfl

/-- No direct response is requested by a record with a payload. -/
def Silent (json : JsonModule) (msg_bytes : Bytes) : Prop :=
  ∀ payload txn_id, decode_inbound json msg_bytes = .ok (payload, txn_id) → txn_id = none

theorem poll_key_survives {json : JsonModule} {msg_bytes : Bytes} (handled : ∀ payload, Handled (self.session payload))
    (first : s.lists (topic_list self.inbound_topic k) = stored (decode_inbound json msg_bytes) :: rest)
    (silent : Silent json msg_bytes) (survivable : Survivable json msg_bytes) :
    Ends exec (fun outcome s' => outcome = .ok () ∧ s'.lists = (after_pop self k rest s).lists ∧
      ((∀ read, decode_inbound json msg_bytes ≠ .ok read) → s' = after_pop self k rest s)) (self.poll_key k) s := by
  obtain ⟨⟨payload,txn_id⟩,decoded⟩ | ⟨error,decoded,caught⟩ := survivable_iff.mp survivable
  · obtain rfl := silent payload txn_id decoded
    rw [decoded] at first ⊢
    exact poll_key_inbound first (fun s' same =>
      (receive_silent (handled payload)).mpr ⟨rfl, same, fun none => absurd rfl (none _)⟩)
  · rw [poll_key_pops first,decoded,stored,arrived_invalid,if_pos caught]
    exact ⟨rfl, rfl, fun _ => rfl⟩

theorem poll_key_raises {json : JsonModule} {msg_bytes : Bytes}
    (first : s.lists (topic_list self.inbound_topic k) = stored (decode_inbound json msg_bytes) :: rest)
    (fatal : ¬ Survivable json msg_bytes) : Ends exec (fun outcome _ => outcome ≠ .ok ()) (self.poll_key k) s := by
  rw [poll_key_pops first]
  rw [survivable_iff,not_or] at fatal
  cases decoded : decode_inbound json msg_bytes with
  | ok read => exact absurd ⟨read,decoded⟩ fatal.1
  | error error =>
    rw [stored,arrived_invalid,if_neg (fun caught => fatal.2 ⟨error,decoded,caught⟩)]
    exact nofun

/-- With `session.receive` raising nothing else and no direct response requested, the loop goes on
    exactly after survivable bytes. -/
theorem loop_goes_on_iff {json : JsonModule} {msg_bytes : Bytes} (handled : ∀ payload, Handled (self.session payload))
    (first : s.lists (topic_list self.inbound_topic k) = stored (decode_inbound json msg_bytes) :: rest)
    (silent : Silent json msg_bytes) : GoesOn json self k msg_bytes rest s ↔ Survivable json msg_bytes := by
  constructor
  · intro goes
    by_contra fatal
    obtain ⟨_,_,raised,went,_⟩ := (poll_key_raises first fatal).meet goes
    exact raised went
  · exact fun survivable => (poll_key_survives handled first silent survivable).mono (fun _ _ ends => ⟨ends.1, ends.2.2⟩)

/-- Nothing is popped from an empty list. -/
theorem poll_key_empty (none : s.lists (topic_list self.inbound_topic k) = []) {post : Except PyError Unit → Store → Prop} :
    Ends exec post (self.poll_key k) s ↔ post (.ok ()) s := by
  have same : { s with lists := Function.update s.lists (topic_list self.inbound_topic k) [] } = s := by
    rw [← none,Function.update_eq_self]
  rw [RedisInboundTransport.poll_key,ends_bind,pop_message_ends,none,List.head?_nil,List.tail_nil,same]
  rfl

/-- Every record that is waiting for the instance survives. -/
def AllSurvivable (json : JsonModule) (self : RedisInboundTransport) (s : Store) : Prop :=
  ∀ k, ∀ entry ∈ s.lists (topic_list self.inbound_topic k),
    ∃ msg_bytes, entry = stored (decode_inbound json msg_bytes) ∧ Silent json msg_bytes ∧ Survivable json msg_bytes

theorem after_pop_survivable {json : JsonModule} {s' : Store} (all : AllSurvivable json self s)
    (first : s.lists (topic_list self.inbound_topic k) = entry :: rest)
    (lists : s'.lists = (after_pop self k rest s).lists) :
    AllSurvivable json self s' := by
  intro l other member
  rw [lists,after_pop_lists] at member
  by_cases here : l = k
  · subst here
    rw [Function.update_self] at member
    exact all l other (first ▸ List.mem_cons_of_mem _ member)
  · rw [Function.update_of_ne (fun same => here (topic_list_inj.mp same))] at member
    exact all l other member

/-- A whole turn of the loop goes on when every waiting record survives. -/
theorem poll_keys_survives {json : JsonModule} (handled : ∀ payload, Handled (self.session payload)) (ks : List RecipKey) :
    ∀ s, AllSurvivable json self s →
      Ends exec (fun outcome s' => outcome = .ok () ∧ AllSurvivable json self s') (self.poll_keys ks) s := by
  induction ks with
  | nil => exact fun s all => ⟨rfl,all⟩
  | cons k ks ih =>
    intro s all
    rw [RedisInboundTransport.poll_keys,ends_bind]
    cases first : s.lists (topic_list self.inbound_topic k) with
    | nil => exact (poll_key_empty first).mpr (ih s all)
    | cons entry rest =>
      obtain ⟨msg_bytes,rfl,silent,survivable⟩ := all k entry (first ▸ List.mem_cons_self)
      refine (poll_key_survives handled first silent survivable).mono (fun outcome s' ends => ?_)
      obtain ⟨rfl,lists,_⟩ := ends
      exact ih s' (after_pop_survivable all first lists)

end

/-- An object without a payload. -/
def no_payload : Json := .obj [(text "test", .str (text "test"))]

/-- `json` reads a record, and its bytes are waiting in the list of the key `k`. -/
def one_record (record : Json) : Store :=
  { Store.empty with
    lists := Function.update (fun _ => []) (topic_list "t" "k")
      [stored (decode_inbound (sample_json [record]) ((sample_text record).map UInt8.ofNat))] }

theorem no_payload_reads : ReadsBack [no_payload] 0 no_payload := by decide +kernel
theorem empty_list_reads : ReadsBack [.arr []] 0 (.arr []) := by decide +kernel

theorem session_handled (payload : Bytes) : Handled (Pending.instance_a.session payload) := trivial

theorem loop_goes_on_no_payload : GoesOn (sample_json [no_payload]) Pending.instance_a "k"
    ((sample_text no_payload).map UInt8.ofNat) [] (one_record no_payload) := by
  have loaded := sample_loads_bytes rfl no_payload_reads
  have survivable : Survivable (sample_json [no_payload]) ((sample_text no_payload).map UInt8.ofNat) :=
    .inr ⟨_, loaded, fun value there => by cases there⟩
  have decoded : decode_inbound (sample_json [no_payload]) ((sample_text no_payload).map UInt8.ofNat) = .error .KeyError := by
    rw [decode_inbound,loaded]
    rfl
  exact (loop_goes_on_iff session_handled rfl (fun _ _ same => by rw [decoded] at same; cases same)).mpr survivable

/-- The two bytes of an empty list end the loop with a `TypeError`. -/
theorem empty_list_ends : (sample_text (.arr [])).map UInt8.ofNat = [91, 93] ∧
    (sample_json [.arr []]).loads (.inl [91, 93]) = .ok (.arr []) ∧
    (∀ payload, Handled (Pending.instance_a.session payload)) ∧ Silent (sample_json [.arr []]) [91, 93] ∧
    Ends exec (fun outcome _ => outcome = .error .TypeError) (Pending.instance_a.poll_key "k") (one_record (.arr [])) ∧
    ¬ GoesOn (sample_json [.arr []]) Pending.instance_a "k" [91, 93] [] (one_record (.arr [])) := by
  have loaded : (sample_json [.arr []]).loads (.inl [91, 93]) = .ok (.arr []) := sample_loads_bytes rfl empty_list_reads
  have decoded : decode_inbound (sample_json [.arr []]) [91, 93] = .error .TypeError := by
    rw [decode_inbound,loaded]
    rfl
  have silent : Silent (sample_json [.arr []]) [91, 93] := fun _ _ same => by rw [decoded] at same; cases same
  have raises : Ends exec (fun outcome _ => outcome = .error .TypeError) (Pending.instance_a.poll_key "k")
      (one_record (.arr [])) := by
    have first : (one_record (.arr [])).lists (topic_list Pending.instance_a.inbound_topic "k") =
        [stored (decode_inbound (sample_json [.arr []]) [91, 93])] := rfl
    rw [poll_key_pops first,decoded]
    rfl
  refine ⟨by decide, loaded, session_handled, silent, raises, fun goes => ?_⟩
  obtain ⟨_,_,raised,went,_⟩ := raises.meet goes
  cases raised.symm.trans went

end AcapyRedis.Arrivals
