import AcapyRedis.Representation
import AcapyRedis.Outbound

/-!
The programs that encode what they write and decode what they read run in lock-step with those
of the other modules, so every run against bytes is a run against values (`bytes_refine`). What
is in Redis can therefore always be decoded (`values_decode`).
-/
namespace AcapyRedis.Lockstep
open AcapyRedis.Programs AcapyRedis.Programs.Program AcapyRedis.Python AcapyRedis.RedisStore AcapyRedis.Records
open AcapyRedis.JsonText AcapyRedis.Inbound AcapyRedis.Threads AcapyRedis.Simulations AcapyRedis.RawRedis
open AcapyRedis.Representation
open AcapyRedis.Pending (Actors)
open AcapyRedis.Utils (uid_a packed protected_k)

section
variable (py : Interpreter)

/-- A program on bytes and one on values in lock-step. -/
abbrev Alike {α β : Type} (values : α → β → Prop) (p : Raw α) (p' : Redis β) : Prop := Similar (bytes_values py) values p p'

variable {py}

/-- A command whose reply is what decides how both programs go on. -/
theorem alike_call {c : RawCommand} {c' : Command} {α β : Type} {values : α → β → Prop} {rest : c.Reply → Raw α}
    {rest' : c'.Reply → Redis β} (sent : Stands py c c')
    (later : ∀ reply reply', Answers py c c' reply reply' → Alike py values (rest reply) (rest' reply')) :
    Alike py values (raw c >>= rest) (redis c' >>= rest') :=
  similar_bind (K := bytes_values py) (similar_call sent) later

/-! ### Assignment -/

theorem read_list (uid : Uid) :
    Alike py Eq (RawRedis.get_recip_keys_list_for_uid py uid) (Utils.get_recip_keys_list_for_uid uid) := by
  refine alike_call (.hget_recip_keys uid) (fun value keys replied => ?_)
  cases replied with
  | none => exact .done rfl
  | @some value keys written =>
    cases value with
    | nil => exact absurd rfl (keys_nonempty written)
    | cons first rest =>
      refine similar_ofExcept (decode_keys_written written) ?_
      rw [keys_of_texts]
      exact .done rfl

theorem filled_number {value : Option Bytes} {n : Option Int} (stands : Option.Rel Number value n) :
    filled value = n.isSome := by
  cases stands with
  | none => rfl
  | @some value n number =>
    cases value with
    | nil => exact absurd number.written.symm (number_nonempty n)
    | cons first rest => rfl

/-- The second read of the iterator. -/
theorem read_again {rest : Option Bytes → Raw Int} {rest' : Option Int → Redis Int}
    (absent : rest none = .raise .AttributeError ∧ rest' none = .raise .AttributeError)
    (present : ∀ value n, rest (some value) = Program.ofExcept (py.int_of value) ∧ rest' (some n) = .done n) :
    Alike py (fun n n' => n = n' ∧ Long n) (raw .get_round_robin >>= rest) (redis .get_round_robin >>= rest') := by
  refine alike_call .get_round_robin (fun value n replied => ?_)
  cases replied with
  | none =>
    rw [absent.1,absent.2]
    exact .raise _
  | @some value n number =>
    rw [(present value n).1,(present value n).2,int_of_number py number]
    exact .done ⟨rfl,number.small⟩

/-- The iterator fits Redis. -/
theorem read_iterator : Alike py (fun n n' => n = n' ∧ Long n) (RawRedis.read_round_robin py) Utils.read_round_robin := by
  refine alike_call .get_round_robin (fun value n replied => ?_)
  rw [filled_number replied]
  cases n with
  | none =>
    refine alike_call (.set_round_robin number_zero) (fun _ _ _ => ?_)
    exact read_again ⟨rfl,rfl⟩ (fun _ _ => ⟨rfl,rfl⟩)
  | some n => exact read_again ⟨rfl,rfl⟩ (fun _ _ => ⟨rfl,rfl⟩)

theorem take_alike {next_iter : Int} (small : Long next_iter) {first : Uid} {rest : List Uid}
    (few : (first :: rest).length < 2 ^ 32) :
    Alike py Eq (RawRedis.take_uid next_iter first rest) (Utils.take_uid next_iter first rest) := by
  have fits : Long (if next_iter + 1 < (first :: rest).length then next_iter + 1 else 0) := by
    obtain ⟨least,_⟩ := small
    split
    · constructor <;> omega
    · decide
  exact alike_call (.set_round_robin ⟨fits,rfl⟩) (fun _ _ _ => .done rfl)

theorem candidates_length (ignored : Option Uid) (uids : List Uid) :
    (Utils.candidates ignored uids).length ≤ uids.length := by
  cases ignored with
  | none => exact Nat.le_refl _
  | some uid =>
    rw [Utils.candidates]
    split
    · exact List.length_erase_le
    · exact Nat.le_refl _

theorem new_uid_alike (ignored : Option Uid) (patience : Nat) :
    Alike py Eq (RawRedis.get_new_valid_uid py ignored patience) (Utils.get_new_valid_uid ignored patience) := by
  induction patience with
  | zero => exact .waiting
  | succ patience ih =>
    refine similar_bind read_iterator (fun next_iter next_iter' same => ?_)
    obtain ⟨rfl,small⟩ := same
    refine alike_call .hkeys_recip_keys (fun uids uids' listed => ?_)
    obtain ⟨rfl,few⟩ := listed
    have fewer := (candidates_length ignored uids).trans_lt few
    cases those : Utils.candidates ignored uids with
    | nil => exact alike_call .ping (fun _ _ _ => ih)
    | cons first rest => exact take_alike small (those ▸ fewer)

/-- A set is written in some order of it. -/
theorem write_alike (listing : Listing) (uid : Uid) (change : ListChange) (keys : List RecipKey) {α β : Type}
    {values : α → β → Prop} {rest : Raw α} {rest' : Redis β} (later : Alike py values rest rest') :
    Alike py values (do write_keys py listing uid keys; rest) (do redis (.hset_recip_keys uid change keys); rest') := by
  obtain ⟨value,written⟩ := keys_written py (listing.list keys)
  rw [write_keys,bind_bind]
  exact similar_ofExcept written (alike_call (.hset_recip_keys uid change written (listing.perm keys)) (fun _ _ _ => later))

theorem assign_alike (listing : Listing) (patience : Nat) (recip_key : RecipKey) :
    Alike py Eq (RawRedis.assign_recip_key_to_new_uid py listing patience recip_key)
      (Utils.assign_recip_key_to_new_uid patience recip_key) := by
  refine similar_bind (new_uid_alike none patience) (fun uid uid' same => ?_)
  subst same
  refine alike_call (.hset_uid recip_key uid) (fun _ _ _ => similar_bind (read_list uid) (fun keys keys' same => ?_))
  subst same
  have counted : Alike py Eq (do raw (.hset_pending (uid_recip_key uid recip_key) (number 0)); return uid)
      (do redis (.hset_pending (uid_recip_key uid recip_key) 0); return uid) :=
    alike_call (.hset_pending _ number_zero) (fun _ _ _ => .done rfl)
  dsimp only
  split
  · exact write_alike listing uid (.gains recip_key) _ counted
  · exact counted

theorem reassign_alike (listing : Listing) (patience : Nat) (old_uid : Uid) (recip_key : RecipKey) :
    Alike py Eq (RawRedis.reassign_recip_key_to_uid py listing patience old_uid recip_key)
      (Utils.reassign_recip_key_to_uid patience old_uid recip_key) := by
  refine similar_bind (new_uid_alike (some old_uid) patience) (fun uid uid' same => ?_)
  subst same
  refine similar_bind (read_list old_uid) (fun olds olds' same => ?_)
  subst same
  refine similar_bind (read_list uid) (fun news news' same => ?_)
  subst same
  refine write_alike listing old_uid (.loses recip_key) _ (alike_call (.hget_pending _) (fun value count replied => ?_))
  refine alike_call (.hdel_pending _) (fun _ _ _ => alike_call (.hset_uid recip_key uid) (fun _ _ _ => ?_))
  refine write_alike listing uid (.gains recip_key) _ ?_
  cases replied with
  | none => exact .done rfl
  | @some value count number =>
    cases value with
    | nil => exact absurd number.written.symm (number_nonempty count)
    | cons first rest =>
      exact similar_ofExcept (int_of_number py number) (alike_call (.hincrby_pending _ count) (fun _ _ _ => .done rfl))

/-! ### Evacuation -/

theorem any_pending_alike (old_uid : Uid) (keys : List RecipKey) :
    Alike py Eq (RawRedis.any_pending py old_uid keys) (Utils.any_pending old_uid keys) := by
  induction keys with
  | nil => exact .done rfl
  | cons recip_key rest ih =>
    refine alike_call (.hget_pending _) (fun value count replied => ?_)
    cases replied with
    | none => exact ih
    | @some value count number =>
      refine similar_ofExcept (int_of_number py number) ?_
      dsimp only
      split
      · exact .done rfl
      · exact ih

theorem reassign_all_alike (listing : Listing) (patience : Nat) (old_uid : Uid) (recip_key_in : RecipKey)
    (keys : List RecipKey) : ∀ plugin_uid,
    Alike py Eq (RawRedis.reassign_all py listing patience old_uid recip_key_in plugin_uid keys)
      (Utils.reassign_all patience old_uid recip_key_in plugin_uid keys) := by
  induction keys with
  | nil => exact fun plugin_uid => .done rfl
  | cons recip_key rest ih =>
    intro plugin_uid
    refine similar_bind (reassign_alike listing patience old_uid recip_key) (fun uid uid' same => ?_)
    subst same
    exact ih _

theorem evacuate_alike (listing : Listing) (patience : Nat) (old_uid : Uid) (recip_key_in : RecipKey) :
    Alike py Eq (RawRedis.evacuate py listing patience old_uid recip_key_in) (Utils.evacuate patience old_uid recip_key_in) := by
  refine similar_bind (read_list old_uid) (fun keys keys' same => ?_)
  subst same
  refine similar_bind (any_pending_alike old_uid keys) (fun pending pending' same => ?_)
  subst same
  cases pending with
  | false => exact .done rfl
  | true =>
    refine similar_bind (reassign_all_alike listing patience old_uid recip_key_in keys old_uid) (fun uid uid' same => ?_)
    subst same
    refine similar_bind (read_list old_uid) (fun left left' same => ?_)
    subst same
    split
    · exact alike_call (.hdel_recip_keys old_uid) (fun _ _ _ => .done rfl)
    · exact .done rfl

/-! ### A call -/

theorem owner_alike (listing : Listing) (patience : Nat) (recip_key_in : RecipKey) :
    Alike py Eq (RawRedis.find_or_assign py listing patience recip_key_in) (Utils.find_or_assign patience recip_key_in) := by
  refine alike_call (.hexists_uid recip_key_in) (fun there there' same => ?_)
  cases same
  cases there with
  | false => exact assign_alike listing patience recip_key_in
  | true =>
    refine alike_call (.hget_uid recip_key_in) (fun owner owner' same => ?_)
    cases same
    cases owner with
    | none => exact .raise _
    | some uid => exact .done rfl

theorem process_key_alike (listing : Listing) (patience : Nat) (clock : Clock) (recip_key_in : RecipKey) :
    Alike py (fun _ _ => True) (RawRedis.process_recip_key py listing patience clock recip_key_in)
      (Utils.process_recip_key patience clock.seconds recip_key_in) := by
  refine similar_bind (owner_alike listing patience recip_key_in) (fun uid uid' same => ?_)
  subst same
  refine alike_call (.hget_last_access uid) (fun value time replied => ?_)
  refine similar_ofExcept (stale_check replied clock) ?_
  have count : ∀ owner : Uid, Alike py (fun _ _ => True) (raw (.hincrby_pending (uid_recip_key owner recip_key_in) 1))
      (redis (.hincrby_pending (uid_recip_key owner recip_key_in) 1)) := by
    intro owner
    exact .command (.hincrby_pending _ 1) (fun _ _ _ => .done trivial) (fun error => .raise error)
  split
  · refine similar_bind (evacuate_alike listing patience uid recip_key_in) (fun owner owner' same => ?_)
    subst same
    exact count owner
  · exact count uid

theorem payload_alike (listing : Listing) (patience : Nat) (clock : Clock) (payload : Bytes) (topic : String) :
    Alike py (fun pushed pushed' => pushed.1 = pushed'.1 ∧ Record py pushed.2 pushed'.2)
      (RawRedis.process_payload_recip_key py listing patience clock payload topic)
      (Utils.process_payload_recip_key py.json.loads patience clock.seconds payload topic) := by
  rw [RawRedis.process_payload_recip_key,Utils.process_payload_recip_key]
  cases Utils.recip_key_of py.json.loads payload with
  | error error => exact .raise error
  | ok recip_key_in =>
    obtain ⟨message,written,record⟩ := @payload_record_written py payload
    refine similar_ofExcept written ?_
    exact similar_bind (process_key_alike listing patience clock recip_key_in) (fun _ _ _ => .done ⟨rfl,record⟩)

/-- What an instance reads of a message for an endpoint. -/
theorem outbound_record_written {endpoint : Text} (readable : Readable endpoint) {headers : Payloads.Headers}
    (writable : Writable py.limits py.floats.Keeps 1 (.obj headers)) (payload : Bytes) :
    ∃ value, (py.json.dumps (outbound_record endpoint payload headers)).utf8 = .ok value ∧
      entry_of py.json (outbound_record endpoint payload headers) = .ok (.inbound payload none) ∧
      Record py value (.inbound payload none) := by
  obtain ⟨value,written⟩ := py.json.encodes (outbound_record endpoint payload headers)
  have faithful : Faithful py.json (outbound_record endpoint payload headers) :=
    python_json_faithful py.floats py.codec (Wire.outbound_writable readable writable payload)
  have decoded : decode_inbound py.json value = .ok (payload, none) := by
    have field : (outbound_record endpoint payload headers).getItem "payload" = .ok (.str (Base64.b64_text payload)) := rfl
    rw [decode_inbound,faithful.bytes value written,ok_bind,field,ok_bind,urlsafe_b64decode_text]
    rfl
  refine ⟨value,written,?_,.message decoded⟩
  rw [entry_of,written,ok_bind,decoded]
  rfl

/-- The call of a producer on values is the one on bytes; what it pushes for the deliverers is there
    what an instance would read of it. -/
theorem handle_message_alike (listing : Listing) (self : Handlers.RedisOutboundQueue) (same : self.json = py.json)
    (emit_new_didcomm_mime_type : Bool) (payload : Handlers.Data) {endpoint : Text} {metadata : Payloads.Headers}
    {api_key : Option Text} (clock : Clock)
    (readable : self.is_mediator = false → Readable endpoint ∧
      Writable py.limits py.floats.Keeps 1 (.obj (self.headers emit_new_didcomm_mime_type metadata api_key payload))) :
    Alike py (fun _ _ => True)
      (Outbound.handle_message py listing self emit_new_didcomm_mime_type payload endpoint metadata api_key clock)
      (self.handle_message emit_new_didcomm_mime_type payload endpoint metadata api_key clock.seconds) := by
  rw [Outbound.handle_message,Handlers.RedisOutboundQueue.handle_message]
  split
  · exact .raise _
  · cases Handlers.message_data payload with
    | error error => exact .raise error
    | ok data =>
      obtain ⟨bytes,written⟩ := py.json.encodes (outbound_record endpoint data
        (self.headers emit_new_didcomm_mime_type metadata api_key payload))
      simp only [ofExcept_ok,done_bind,Codecs.RedisOutboundQueue.message,same,written]
      cases mediates : self.is_mediator with
      | true =>
        obtain ⟨entry,made⟩ := entry_of_ok py.json (outbound_record endpoint data
          (self.headers emit_new_didcomm_mime_type metadata api_key payload))
        simp only [made,ofExcept_ok,done_bind,↓reduceIte]
        refine similar_bind (payload_alike listing (self.patience+1) clock data self.outbound_topic) (fun here there both => ?_)
        obtain ⟨topic,record⟩ := both
        rw [topic]
        refine similar_attempt (K := bytes_values py) (.rpush _ record) (fun _ _ _ => .done trivial) (fun error => ?_)
        cases error <;> first | exact .done trivial | exact .raise _
      | false =>
        obtain ⟨short,headers⟩ := readable mediates
        obtain ⟨value,again,made,record⟩ := outbound_record_written short headers data
        rw [written] at again
        cases again
        simp only [made,ofExcept_ok,done_bind,Bool.false_eq_true,↓reduceIte,pure_eq]
        refine similar_attempt (K := bytes_values py) (.rpush _ record) (fun _ _ _ => .done trivial) (fun error => ?_)
        cases error <;> first | exact .done trivial | exact .raise _

/-! ### A pass -/

theorem register_alike (uid : Uid) : Alike py (fun _ _ => True) (RawRedis.register py uid) (Inbound.register uid) := by
  refine alike_call .ping (fun _ _ _ => ?_)
  obtain ⟨value,written⟩ := keys_written py []
  refine similar_ofExcept written ?_
  exact .command (.hset_no_recip_keys uid written) (fun _ _ _ => .done trivial) (fun error => .raise error)

theorem pop_alike (list : String) (tries : Nat) :
    Alike py (Option.Rel (Record py)) (RawRedis.pop_message list tries) (Inbound.pop_message list tries) := by
  induction tries with
  | zero => exact .raise _
  | succ tries ih =>
    refine similar_attempt (K := bytes_values py) (.blpop list) (fun value entry popped => .done popped) (fun error => ?_)
    cases error <;> first | exact ih | exact .raise _

/-- What a response to a request is, in the record and in its bytes. -/
theorem direct_response_content (self : RawTransport) (txn_id : Text) (response : Option Response) :
    self.direct_response txn_id response =
      (content_of self response).map (fun content => .direct_response txn_id content.1 content.2) := by
  rcases response with _ | (_ | ⟨byte,rest⟩) | (_ | ⟨point,rest⟩)
  · rfl
  · rfl
  · rfl
  · rfl
  · simp only [RedisInboundTransport.direct_response,content_of,Text.utf8]
    cases Text.encode (point :: rest) <;> rfl

theorem receive_alike (self : RawTransport) (payload : Bytes) {requested : Option Json} {txn_id : Option Text}
    (same : requested = txn_id.map Json.str) (readable : ∀ id ∈ txn_id, Readable id) :
    Alike py (fun _ _ => True) (RawRedis.receive py self payload requested) (self.receive payload txn_id) := by
  subst same
  rw [RawRedis.receive,RedisInboundTransport.receive]
  cases self.session payload with
  | error error => cases error <;> first | exact .done trivial | exact .raise _
  | ok response =>
    cases txn_id with
    | none => exact .done trivial
    | some txn_id =>
      rw [Option.map_some]
      dsimp only
      rw [direct_response_content]
      cases content_of self response with
      | error error => exact .raise error
      | ok content =>
        obtain ⟨message,written⟩ := py.json.encodes (response_message py (.str txn_id) content)
        refine similar_ofExcept written ?_
        have record : Record py message (.direct_response txn_id content.1 content.2) :=
          .response (readable txn_id rfl) written
        refine similar_attempt (K := bytes_values py) (.rpush _ record) (fun _ _ _ => .done trivial) (fun error => ?_)
        cases error <;> first | exact .done trivial | exact .raise _

/-- What an instance does with a message that it has read. -/
theorem handle_alike (self : RawTransport) (recip_key : RecipKey) (payload : Bytes) {requested : Option Json}
    {txn_id : Option Text} (same : requested = txn_id.map Json.str) (readable : ∀ id ∈ txn_id, Readable id)
    {rest : Option Int → Redis Unit} (uncounted : rest none = self.receive payload txn_id)
    (counted : ∀ count, rest (some count) =
      if 1 ≤ count then (do
        redis (.hset_pending (uid_recip_key self.plugin_uid recip_key) (count - 1))
        self.receive payload txn_id)
      else self.receive payload txn_id) :
    Alike py (fun _ _ => True) (handle py self recip_key (payload, requested))
      (do
        redis (.hset_last_access self.plugin_uid (self.clock recip_key))
        rest (← redis (.hget_pending (uid_recip_key self.plugin_uid recip_key)))) := by
  have received : Alike py (fun _ _ => True) (RawRedis.receive py self payload requested) (self.receive payload txn_id) :=
    receive_alike self payload same readable
  obtain ⟨access,written,stamp⟩ := stamp_written (self.clocks recip_key)
  rw [← self.agrees recip_key] at stamp
  refine similar_ofExcept written (alike_call (.hset_last_access _ stamp) (fun _ _ _ => ?_))
  refine alike_call (.hget_pending _) (fun value count replied => ?_)
  cases replied with
  | none =>
    rw [uncounted]
    exact received
  | @some value count stands =>
    rw [counted]
    cases value with
    | nil => exact absurd stands.written.symm (number_nonempty count)
    | cons first more =>
      refine similar_ofExcept (int_of_number py stands) ?_
      dsimp only
      split
      · next positive =>
        have fits : Long (count - 1) := by
          obtain ⟨_,most⟩ := stands.small
          constructor <;> omega
        exact alike_call (.hset_pending _ ⟨fits,rfl⟩) (fun _ _ _ => received)
      · exact received

theorem poll_key_alike (self : RawTransport) (recip_key : RecipKey) :
    Alike py (fun _ _ => True) (RawRedis.poll_key py self recip_key) (self.poll_key recip_key) := by
  refine similar_bind (pop_alike _ 6) (fun value entry popped => ?_)
  cases popped with
  | none => exact .done trivial
  | some record =>
    cases record with
    | message read =>
      dsimp only
      rw [read]
      refine handle_alike self recip_key _ rfl (fun _ member => absurd member (Option.not_mem_none _)) ?_ ?_
      · rfl
      · exact fun _ => rfl
    | @request payload txn_id read readable =>
      have same : some (Json.str txn_id) = (some txn_id).map Json.str := rfl
      dsimp only
      rw [read]
      refine handle_alike self recip_key payload same (fun id here => ?_) ?_ ?_
      · cases here
        exact readable
      · rfl
      · exact fun _ => rfl
    | response readable written =>
      dsimp only
      rw [response_decoded readable written]
      exact .done trivial
    | @invalid error read =>
      dsimp only
      rw [read]
      cases error <;> first | exact .done trivial | exact .raise _

theorem poll_keys_alike (self : RawTransport) (keys : List RecipKey) :
    Alike py (fun _ _ => True) (RawRedis.poll_keys py self keys) (self.poll_keys keys) := by
  induction keys with
  | nil => exact .done trivial
  | cons recip_key rest ih => exact similar_bind (poll_key_alike self recip_key) (fun _ _ _ => ih)

theorem poll_alike (self : RawTransport) : Alike py (fun _ _ => True) (RawRedis.poll py self) self.poll := by
  refine similar_attempt (K := bytes_values py) (.hget_recip_keys self.plugin_uid) (fun value keys replied => ?_) (fun error => ?_)
  · cases replied with
    | none => exact .done trivial
    | @some value keys written =>
      cases value with
      | nil => exact absurd rfl (keys_nonempty written)
      | cons first rest =>
        dsimp only
        rw [decode_keys_written written]
        refine similar_ofExcept (keys_of_texts keys) ?_
        exact poll_keys_alike self keys
  · cases error <;> first | exact .done trivial | exact .raise _

end
/-! ### Whole runs -/

section
variable (py : Interpreter)

/-- What runs concurrently: a call, the push of a record by a caller, one pass of an instance or the
    registration of an instance. -/
inductive IsRawClient : Raw Unit → Prop
  | calls (listing : Listing) (patience : Nat) (clock : Clock) (payload : Bytes) (topic : String) :
      IsRawClient (RawRedis.process_payload_recip_key py listing patience clock payload topic >>= fun _ => return ())
  | pushes {value : Bytes} {entry : Entry} (list : String) : Record py value entry → IsRawClient (raw (.rpush list value))
  | polls (self : RawTransport) : IsRawClient (RawRedis.poll py self)
  | registers (uid : Uid) : IsRawClient (RawRedis.register py uid)

/-- Any number of clients on one Redis that was empty, any of whose commands may raise. -/
def RawRunning (pool : Pool RawCommand RawCommand.Reply PyError Unit RawStore) : Prop :=
  Guarded RawRedis.exec (IsRawClient py) (fun pool _ c => executes pool.store c = true) (fun _ => True) RawStore.empty pool

variable {py}

theorem client_alike {p : Raw Unit} (client : IsRawClient py p) :
    ∃ p', Counters.IsClient py.json.loads p' ∧ Alike py (fun _ _ => True) p p' := by
  cases client with
  | calls listing patience clock payload topic =>
    refine ⟨_,.calls patience clock.seconds payload topic,?_⟩
    exact similar_bind (payload_alike listing patience clock payload topic) (fun _ _ _ => .done trivial)
  | @pushes value entry list record =>
    exact ⟨_,.pushes list entry,.command (.rpush list record) (fun _ _ _ => .done trivial) (fun error => .raise error)⟩
  | polls self => exact ⟨_,.polls self.toRedisInboundTransport,poll_alike self⟩
  | registers uid => exact ⟨_,.registers uid,register_alike uid⟩

/-- Every run against bytes is a run against the values that they stand for: the same clients in
    lock-step, with the same commands executed and the same ones failing. -/
theorem bytes_refine {pool : Pool RawCommand RawCommand.Reply PyError Unit RawStore} (reach : RawRunning py pool) :
    ∃ pool' : Actors, Counters.Running py.json.loads pool' ∧ Represents py pool.store pool'.store ∧
      List.Forall₂ (InStep (bytes_values py) (fun _ _ => True)) pool.threads pool'.threads :=
  pool_refines redis_refines (represents_empty py) (fun _ client => client_alike client) reach

theorem rel_some {A B : Type} {rel : A → B → Prop} {value : Option A} {value' : Option B}
    (stands : Option.Rel rel value value')
    {a : A} (found : value = some a) : ∃ b, value' = some b ∧ rel a b := by
  cases stands with
  | none => cases found
  | some related =>
    cases found
    exact ⟨_,rfl,related⟩

/-- What is in Redis can be decoded in every run. -/
structure Decodes (py : Interpreter) (raw : RawStore) : Prop where
  iterator : ∀ value, raw.round_robin_iterator = some value → ∃ n, py.int_of value = .ok n
  key_lists : ∀ uid value, raw.uid_recip_keys_map.lookup uid = some value →
    ∃ inbound_msg_keys keys, decode_keys py.json value = .ok inbound_msg_keys ∧ keys_of inbound_msg_keys = .ok keys
  accesses : ∀ uid value, raw.uid_last_access_map.lookup uid = some value →
    ∀ clock : Clock, ∃ stale, Timestamps.stale_uid_check clock.offset clock.reading (some value) = .ok stale
  counters : ∀ field value, raw.uid_recip_key_pending_msg_count.lookup field = some value →
    ∃ count, py.int_of value = .ok count ∧ string2ll value = some count ∧ 0 ≤ count

theorem values_decode {pool : Pool RawCommand RawCommand.Reply PyError Unit RawStore} (reach : RawRunning py pool) :
    Decodes py pool.store := by
  obtain ⟨pool',reach',stands,_⟩ := bytes_refine reach
  constructor
  · intro value found
    obtain ⟨n,_,number⟩ := rel_some stands.iterator found
    exact ⟨n,int_of_number py number⟩
  · intro uid value found
    obtain ⟨keys,_,written⟩ := rel_some (stands.key_lists.values uid) found
    exact ⟨_,keys,decode_keys_written written,keys_of_texts keys⟩
  · intro uid value found clock
    obtain ⟨time,_,stamp⟩ := rel_some (stands.accesses.values uid) found
    exact ⟨_,stale_check (.some stamp) clock⟩
  · intro field value found
    obtain ⟨count,counted,stands⟩ := rel_some (stands.counters.values field) found
    refine ⟨count,int_of_number py stands,?_,(Counters.running_sound reach').nonneg field count counted⟩
    rw [stands.written]
    exact string2ll_number stands.small

end

/-! ### An example -/

/-- The number that a text spells. -/
def int_a (value : Text) : Int := signed_value (value.map UInt8.ofNat)

theorem int_a_decimal (n : Int) (_ : Long n) : (.ok (int_a (decimal n)) : Except PyError Int) = .ok n :=
  congrArg Except.ok (signed_value_number n)

theorem limits_deep : 1 < Wire.limits_a.depth := by decide

/-- Python with the limits of an example. -/
def py_a : Interpreter where
  limits := Wire.limits_a
  floats := Wire.floats_a
  codec := Wire.codec_a
  mime := Responses.mime_types
  int value := .ok (int_a value)
  deep := limits_deep
  typed := Wire.mime_types_readable
  int_str := int_a_decimal

/-- The epoch, in UTC. -/
def clock_a : Clock := ⟨0, 0, by decide, by decide⟩

def listing_a : Listing := ⟨id, fun _ => .rfl⟩

def call_a : Raw Unit :=
  RawRedis.process_payload_recip_key py_a listing_a 1 clock_a (packed protected_k) "t" >>= fun _ => return ()

/-- A call counts a message for the only instance. -/
def counted_a : List (Move RawCommand RawCommand.Reply PyError Unit (List Uid)) :=
  [.start (RawRedis.register py_a uid_a), .start call_a] ++ List.replicate 2 (.step 0 []) ++ List.replicate 14 (.step 1 [])

theorem counted_clients : ∀ p ∈ started counted_a, IsRawClient py_a p := by
  intro p member
  simp only [counted_a,started,List.cons_append,List.nil_append,List.replicate,List.mem_cons,List.not_mem_nil,or_false] at member
  rcases member with registered | called
  · rw [registered]
    exact .registers uid_a
  · rw [called]
    exact .calls listing_a 1 clock_a _ "t"

def is_counted (pool : Pool RawCommand RawCommand.Reply PyError Unit RawStore) : Bool :=
  decide (pool.store.uid_recip_key_pending_msg_count.lookup (uid_recip_key uid_a "k") = some (number 1))

theorem counted_reached : ∃ pool, RawRunning py_a pool ∧ is_counted pool = true := by
  have ran : ((⟨.empty, []⟩ : Pool RawCommand RawCommand.Reply PyError Unit RawStore).guardedMoves RawRedis.exec
      (fun pool _ c => executes pool.store c) counted_a).any is_counted = true := by
    decide +kernel
  exact guarded_of_test (fun _ _ _ executed => executed) counted_a is_counted ran counted_clients

theorem bytes_refine_a : ∃ (pool : Pool RawCommand RawCommand.Reply PyError Unit RawStore) (pool' : Actors),
    RawRunning py_a pool ∧ Counters.Running py_a.json.loads pool' ∧ Represents py_a pool.store pool'.store := by
  obtain ⟨pool,reach,_⟩ := counted_reached
  obtain ⟨pool',reach',stands,_⟩ := bytes_refine reach
  exact ⟨pool,pool',reach,reach',stands⟩

/-- The counter of the message is read as a number. -/
theorem values_decode_a : ∃ count, py_a.int_of (number 1) = .ok count ∧ 0 ≤ count := by
  obtain ⟨pool,reach,counted⟩ := counted_reached
  obtain ⟨count,read,_,nonneg⟩ := (values_decode reach).counters _ _ (of_decide_eq_true counted)
  exact ⟨count,read,nonneg⟩

end AcapyRedis.Lockstep
