import AcapyRedis.RawRedis
import AcapyRedis.Simulations
import AcapyRedis.Counters

/-!
The bytes in Redis stand for the values that the store of the other modules holds
(`Represents`): a number for its decimal text, a key list for the base64 of its JSON, a time for
the text of a clock, a record for what an instance makes of it. A command on the bytes has the
effect of the command on the values (`redis_refines`).
-/
namespace AcapyRedis.Representation
open AcapyRedis.Programs AcapyRedis.Programs.Program AcapyRedis.Python AcapyRedis.RedisStore AcapyRedis.Base64
open AcapyRedis.Records
open AcapyRedis.JsonText AcapyRedis.Inbound AcapyRedis.Threads AcapyRedis.Simulations AcapyRedis.RawRedis AcapyRedis.Wire

/-! ### Numbers -/

/-- The bytes are what Redis writes for a number. -/
structure Number (value : Bytes) (n : Int) : Prop where
  small : Long n
  written : value = number n

theorem number_zero : Number (number 0) 0 := ⟨by decide,rfl⟩

theorem decimal_ascii (n : Int) : ∀ point ∈ decimal n, point < 128 := fun point member =>
  (decimal_printable n point member).2.trans (by decide)

theorem number_utf8 (n : Int) : (decimal n).utf8 = .ok (number n) := utf8_ascii_map (decimal_ascii n)

theorem number_points (n : Int) : (number n).map UInt8.toNat = decimal n := by
  rw [number,List.map_map]
  refine (List.map_congr_left (fun point member => ?_)).trans (List.map_id _)
  have small := decimal_ascii n point member
  simp only [Function.comp_apply,UInt8.toNat_ofNat',id_eq]
  omega

theorem number_nonempty (n : Int) : number n ≠ [] := by
  intro empty
  obtain ⟨point,more,points,_⟩ := decimal_points n
  rw [number,points] at empty
  cases empty

theorem signed_value_number (n : Int) : signed_value (number n) = n := by
  have points := number_points n
  cases written : number n with
  | nil => exact absurd written (number_nonempty n)
  | cons sign digits =>
    rw [written,List.map_cons] at points
    by_cases negative : n < 0
    · have text : decimal n = 45 :: numeral n.natAbs := by rw [decimal,if_pos negative]; rfl
      rw [text] at points
      obtain ⟨minus,rest⟩ := List.cons.inj points
      have sign_minus : sign = 45 := UInt8.toNat_inj.mp minus
      rw [signed_value,if_pos sign_minus,rest,numeral_value]
      omega
    · have text : decimal n = numeral n.natAbs := by rw [decimal,if_neg negative]; rfl
      rw [text] at points
      have digit : is_digit sign.toNat = true := numeral_digit (n := n.natAbs) (points ▸ List.mem_cons_self)
      have sign_digit : sign ≠ 45 := by
        rintro rfl
        cases digit
      rw [signed_value,if_neg sign_digit,List.map_cons,points,numeral_value]
      omega

theorem string2ll_number {n : Int} (small : Long n) : string2ll (number n) = some n := by
  rw [string2ll,signed_value_number,if_pos ⟨small,rfl⟩]

section
variable (py : Interpreter)

theorem int_of_number {value : Bytes} {n : Int} (stands : Number value n) : py.int_of value = .ok n := by
  rw [Interpreter.int_of,stands.written,decode_utf8 (number_utf8 n),ok_bind]
  exact py.int_str n stands.small

/-! ### Key lists -/

/-- The bytes are the encoding of a key list. -/
def Keys (value : Bytes) (keys : List RecipKey) : Prop := encode_keys py.json keys = .ok value

theorem keys_writable (keys : List RecipKey) :
    Writable py.limits py.floats.Keeps 0 (.arr (keys.map (fun key => .str (text key)))) := by
  have deep := py.deep
  refine .arr _ _ (by omega) (fun item member => ?_)
  obtain ⟨key,_,rfl⟩ := List.mem_map.mp member
  exact .str _ _ (readable_text key)

/-- A key list can always be written. -/
theorem keys_written (keys : List RecipKey) : ∃ value, Keys py value keys := by
  obtain ⟨bytes,encoded⟩ := py.json.encodes (.arr (keys.map (fun key => .str (text key))))
  exact ⟨_,by rw [Keys,encode_keys,encoded,ok_bind,pure_ok]⟩

variable {py} {value : Bytes} {keys : List RecipKey}

/-- What was written for a key list is read as that list. -/
theorem decode_keys_written (written : Keys py value keys) :
    decode_keys py.json value = .ok (.arr (keys.map (fun key => .str (text key)))) := by
  obtain ⟨bytes,encoded,same⟩ := bind_ok_iff.mp written
  cases same
  rw [decode_keys,b64_to_bytes_encoded,ok_bind,decode_utf8 encoded,ok_bind]
  exact (python_json_faithful py.floats py.codec (keys_writable py keys)).text

theorem keys_of_texts (keys : List RecipKey) : keys_of (.arr (keys.map (fun key => .str (text key)))) = .ok keys := by
  rw [keys_of,Json.elements,ok_bind]
  induction keys with
  | nil => rfl
  | cons key rest ih =>
    rw [List.map_cons,List.mapM_cons,key_of,text_encode,ok_bind,ih]
    rfl

theorem keys_nonempty (written : Keys py value keys) : value ≠ [] := by
  obtain ⟨bytes,encoded,same⟩ := bind_ok_iff.mp written
  cases same
  intro empty
  have decoded := urlsafe_b64decode_encode bytes
  rw [empty] at decoded
  have some_byte := Responses.utf8_nonempty encoded (List.cons_ne_nil _ _)
  exact some_byte (Except.ok.inj decoded).symm

end

/-! ### Time stamps -/

/-- The bytes are the time that a clock shows, in whole seconds. -/
def Stamp (value : Bytes) (time : Int) : Prop :=
  ∃ clock : Clock, Timestamps.access_value clock.offset clock.reading = .ok value ∧ time = clock.seconds

theorem stamp_written (clock : Clock) : ∃ value, Timestamps.access_value clock.offset clock.reading = .ok value ∧
    Stamp value clock.seconds := by
  obtain ⟨_,value,written,_⟩ := Timestamps.access_value_dated clock.dated
  exact ⟨value,written,clock,written,rfl⟩

/-- The check reads the difference of the two clocks. -/
theorem stale_check {value : Option Bytes} {time : Option Int} (stands : Option.Rel Stamp value time) (clock : Clock) :
    Timestamps.stale_uid_check clock.offset clock.reading value = .ok (Utils.stale_uid_check clock.seconds time) := by
  cases stands with
  | none => rfl
  | some stamp =>
    obtain ⟨before,written,rfl⟩ := stamp
    have decided := Timestamps.decision_dated before.dated clock.dated
    rw [Timestamps.decision,written,ok_bind] at decided
    exact decided

/-! ### Records -/

section
variable (py : Interpreter)

/-- The bytes of a list element that an instance reads as an inbound message, of a response that an
    instance wrote, or of a record whose decoding raises. -/
inductive Record : Bytes → Entry → Prop
  | message {value payload} : decode_inbound py.json value = .ok (payload, none) → Record value (.inbound payload none)
  | request {value payload txn_id} : decode_inbound py.json value = .ok (payload, some (.str txn_id)) → Readable txn_id →
      Record value (.inbound payload (some txn_id))
  | response {value txn_id content_type response} : Readable txn_id →
      (py.json.dumps (response_record py.mime txn_id content_type response)).utf8 = .ok value →
      Record value (.direct_response txn_id content_type response)
  | invalid {value error} : decode_inbound py.json value = .error error → Record value (.invalid error)

variable {py}

/-- A response has no `payload`. -/
theorem response_decoded {value : Bytes} {txn_id : Text} {content_type : Option ContentType} {response : Bytes}
    (readable : Readable txn_id)
    (written : (py.json.dumps (response_record py.mime txn_id content_type response)).utf8 = .ok value) :
    decode_inbound py.json value = .error .KeyError := by
  have writable : Writable py.limits py.floats.Keeps 0 (response_record py.mime txn_id content_type response) :=
    response_writable py.deep py.mime readable (fun kind _ => py.typed kind) response
  have read := (python_json_faithful py.floats py.codec writable).bytes value written
  rw [decode_inbound,Interpreter.json,read,ok_bind]
  rfl

/-- The record of a mediator is written as an inbound message. -/
theorem payload_record_written (payload : Bytes) : ∃ value, (py.json.dumps (payload_record payload)).utf8 = .ok value ∧
    Record py value (.inbound payload none) := by
  obtain ⟨value,written⟩ := py.json.encodes (payload_record payload)
  have writable : Writable py.limits py.floats.Keeps 0 (payload_record payload) :=
    payload_writable (Nat.zero_lt_one.trans py.deep) payload
  have read := (python_json_faithful py.floats py.codec writable).bytes value written
  have field : (payload_record payload).getItem "payload" = .ok (.str (b64_text payload)) := rfl
  refine ⟨value,written,.message ?_⟩
  rw [decode_inbound,Interpreter.json,read,ok_bind,field,ok_bind,urlsafe_b64decode_text]
  rfl

end

/-! ### Redis -/

section
variable {K V V' : Type} [DecidableEq K] {rel : V → V' → Prop} {raw : Hash K V} {hash : Hash K V'}

/-- Hashes with the same fields in the same order, and related values. -/
structure Matches (rel : V → V' → Prop) (raw : Hash K V) (hash : Hash K V') : Prop where
  keys : raw.keys = hash.keys
  values : ∀ key, Option.Rel rel (raw.lookup key) (hash.lookup key)

theorem Matches.empty : Matches rel (∅ : Hash K V) (∅ : Hash K V') := ⟨rfl,fun _ => .none⟩

theorem Matches.insert (same : Matches rel raw hash) (key : K) {value : V} {value' : V'} (stands : rel value value') :
    Matches rel (raw.insert key value) (hash.insert key value') where
  keys := by rw [AList.keys_insert,AList.keys_insert,same.keys]
  values other := by
    by_cases here : other = key
    · subst here
      rw [AList.lookup_insert,AList.lookup_insert]
      exact .some stands
    · rw [AList.lookup_insert_ne here,AList.lookup_insert_ne here]
      exact same.values other

theorem Matches.erase (same : Matches rel raw hash) (key : K) : Matches rel (raw.erase key) (hash.erase key) where
  keys := by rw [AList.keys_erase,AList.keys_erase,same.keys]
  values other := by
    by_cases here : other = key
    · subst here
      rw [AList.lookup_erase,AList.lookup_erase]
      exact .none
    · rw [AList.lookup_erase_ne here,AList.lookup_erase_ne here]
      exact same.values other

end

section
variable (py : Interpreter)

/-- What the bytes in Redis stand for. -/
structure Represents (raw : RawStore) (s : Store) : Prop where
  iterator : Option.Rel Number raw.round_robin_iterator s.round_robin_iterator
  key_lists : Matches (Keys py) raw.uid_recip_keys_map s.uid_recip_keys_map
  owners : raw.recip_key_uid_map = s.recip_key_uid_map
  accesses : Matches Stamp raw.uid_last_access_map s.uid_last_access_map
  counters : Matches Number raw.uid_recip_key_pending_msg_count s.uid_recip_key_pending_msg_count
  lists : ∀ list, List.Forall₂ (Record py) (raw.lists list) (s.lists list)

theorem represents_empty : Represents py .empty .empty :=
  ⟨.none,.empty,rfl,.empty,.empty,fun _ => .nil⟩

/-- The commands whose values stand for each other. Python lists a set in some order of it. -/
inductive Stands : RawCommand → Command → Prop
  | get_round_robin : Stands .get_round_robin .get_round_robin
  | set_round_robin {value n} : Number value n → Stands (.set_round_robin value) (.set_round_robin n)
  | hkeys_recip_keys : Stands .hkeys_recip_keys .hkeys_recip_keys
  | hget_recip_keys (uid) : Stands (.hget_recip_keys uid) (.hget_recip_keys uid)
  | hset_recip_keys {value keys recip_keys} (uid change) : Keys py value keys → keys.Perm recip_keys →
      Stands (.hset_recip_keys uid value) (.hset_recip_keys uid change recip_keys)
  | hset_no_recip_keys {value} (uid) : Keys py value [] → Stands (.hset_recip_keys uid value) (.hset_no_recip_keys uid)
  | hdel_recip_keys (uid) : Stands (.hdel_recip_keys uid) (.hdel_recip_keys uid)
  | hexists_uid (recip_key) : Stands (.hexists_uid recip_key) (.hexists_uid recip_key)
  | hget_uid (recip_key) : Stands (.hget_uid recip_key) (.hget_uid recip_key)
  | hset_uid (recip_key uid) : Stands (.hset_uid recip_key uid) (.hset_uid recip_key uid)
  | hget_last_access (uid) : Stands (.hget_last_access uid) (.hget_last_access uid)
  | hset_last_access {value time} (uid) : Stamp value time →
      Stands (.hset_last_access uid value) (.hset_last_access uid time)
  | hget_pending (field) : Stands (.hget_pending field) (.hget_pending field)
  | hset_pending {value n} (field) : Number value n → Stands (.hset_pending field value) (.hset_pending field n)
  | hdel_pending (field) : Stands (.hdel_pending field) (.hdel_pending field)
  | hincrby_pending (field amount) : Stands (.hincrby_pending field amount) (.hincrby_pending field amount)
  | rpush {value entry} (list) : Record py value entry → Stands (.rpush list value) (.rpush list entry)
  | blpop (list) : Stands (.blpop list) (.blpop list)
  | ping : Stands .ping .ping

/-- The replies that stand for each other. -/
def Answers : (c : RawCommand) → (c' : Command) → c.Reply → c'.Reply → Prop
  | .get_round_robin, .get_round_robin, value, n => Option.Rel Number value n
  | .hkeys_recip_keys, .hkeys_recip_keys, uids, uids' => uids = uids' ∧ uids.length < 2 ^ 32
  | .hget_recip_keys _, .hget_recip_keys _, value, keys => Option.Rel (Keys py) value keys
  | .hexists_uid _, .hexists_uid _, there, there' => there = there'
  | .hget_uid _, .hget_uid _, uid, uid' => uid = uid'
  | .hget_last_access _, .hget_last_access _, value, time => Option.Rel Stamp value time
  | .hget_pending _, .hget_pending _, value, n => Option.Rel Number value n
  | .blpop _, .blpop _, value, entry => Option.Rel (Record py) value entry
  | _, _, _, _ => True

/-- Redis with bytes and Redis with values. -/
def bytes_values : Correspondence RawCommand Command RawCommand.Reply Command.Reply := ⟨Stands py,Answers py⟩

variable {py} {raw : RawStore} {s : Store}

theorem pop_record {values : List Bytes} {records : List Entry} (each : List.Forall₂ (Record py) values records) :
    Option.Rel (Record py) values.head? records.head? ∧ List.Forall₂ (Record py) values.tail records.tail := by
  cases each with
  | nil => exact ⟨.none,.nil⟩
  | cons first rest => exact ⟨.some first,rest⟩

theorem update_records {lists : String → List Bytes} {entries : String → List Entry}
    (each : ∀ list, List.Forall₂ (Record py) (lists list) (entries list)) (name : String) {values : List Bytes}
    {records : List Entry}
    (here : List.Forall₂ (Record py) values records) (list : String) :
    List.Forall₂ (Record py) (Function.update lists name values list) (Function.update entries name records list) := by
  by_cases same : list = name
  · subst same
    rw [Function.update_self,Function.update_self]
    exact here
  · rw [Function.update_of_ne same,Function.update_of_ne same]
    exact each list

/-- A counter and the number that `HINCRBY` adds to. -/
theorem counter_stands (stands : Represents py raw s) (field : String) : raw.counter field = some (s.pending field) := by
  have value := stands.counters.values field
  rw [RawStore.counter,Store.pending]
  generalize raw.uid_recip_key_pending_msg_count.lookup field = found at value
  generalize s.uid_recip_key_pending_msg_count.lookup field = count at value
  cases value with
  | none => rfl
  | some number =>
    obtain ⟨small,rfl⟩ := number
    exact string2ll_number small

/-- A command on the bytes has the effect of the command on what they stand for. -/
theorem redis_refines :
    Refines (bytes_values py) RawRedis.exec RedisStore.exec (fun s c => executes s c = true) (Represents py) := by
  intro raw s c c' choice stands sent safe
  cases sent with
  | get_round_robin => exact ⟨{},stands.iterator,stands⟩
  | set_round_robin number => exact ⟨{},trivial,{ stands with iterator := .some number }⟩
  | hkeys_recip_keys =>
    refine ⟨{ uids := choice },⟨?_,?_⟩,stands⟩
    · show arranged choice raw.uid_recip_keys_map.keys = arranged choice s.uid_recip_keys_map.keys
      rw [stands.key_lists.keys]
    · exact (arranged_perm choice raw.uid_recip_keys_map.keys).length_eq.trans_lt (of_decide_eq_true safe)
  | hget_recip_keys uid => exact ⟨{},stands.key_lists.values uid,stands⟩
  | @hset_recip_keys value keys recip_keys uid change written order =>
    refine ⟨{ recip_keys := keys },trivial,{ stands with key_lists := stands.key_lists.insert uid ?_ }⟩
    have listed : arranged keys recip_keys = keys := if_pos (List.isPerm_iff.mpr order)
    rw [listed]
    exact written
  | hset_no_recip_keys uid written => exact ⟨{},trivial,{ stands with key_lists := stands.key_lists.insert uid written }⟩
  | hdel_recip_keys uid => exact ⟨{},trivial,{ stands with key_lists := stands.key_lists.erase uid }⟩
  | hexists_uid recip_key =>
    refine ⟨{},?_,stands⟩
    show (raw.recip_key_uid_map.lookup recip_key).isSome = (s.recip_key_uid_map.lookup recip_key).isSome
    rw [stands.owners]
  | hget_uid recip_key =>
    refine ⟨{},?_,stands⟩
    show raw.recip_key_uid_map.lookup recip_key = s.recip_key_uid_map.lookup recip_key
    rw [stands.owners]
  | hset_uid recip_key uid =>
    refine ⟨{},trivial,{ stands with owners := ?_ }⟩
    show raw.recip_key_uid_map.insert recip_key uid = s.recip_key_uid_map.insert recip_key uid
    rw [stands.owners]
  | hget_last_access uid => exact ⟨{},stands.accesses.values uid,stands⟩
  | hset_last_access uid stamp => exact ⟨{},trivial,{ stands with accesses := stands.accesses.insert uid stamp }⟩
  | hget_pending field => exact ⟨{},stands.counters.values field,stands⟩
  | hset_pending field number => exact ⟨{},trivial,{ stands with counters := stands.counters.insert field number }⟩
  | hdel_pending field => exact ⟨{},trivial,{ stands with counters := stands.counters.erase field }⟩
  | hincrby_pending field amount =>
    obtain ⟨count,counted,fits⟩ := (Option.any_eq_true _ _).mp safe
    have same := counter_stands stands field
    rw [counted] at same
    obtain rfl := Option.some.inj same
    refine ⟨{},trivial,?_⟩
    simp only [RawRedis.exec,counted]
    exact { stands with counters := stands.counters.insert field ⟨of_decide_eq_true fits,rfl⟩ }
  | rpush list record =>
    refine ⟨{},trivial,{ stands with lists := update_records stands.lists list ?_ }⟩
    exact List.rel_append (stands.lists list) (.cons record .nil)
  | blpop list =>
    obtain ⟨first,rest⟩ := pop_record (stands.lists list)
    exact ⟨{},first,{ stands with lists := update_records stands.lists list rest }⟩
  | ping => exact ⟨{},trivial,stands⟩

end

end AcapyRedis.Representation
