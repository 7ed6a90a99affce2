import AcapyRedis.Wire
import AcapyRedis.Timestamps
import AcapyRedis.Responses

/-!
Redis as it is: the values of the hashes and the elements of the lists are bytes, and the
programs of `redis_queue/v1_0/utils.py` and `redis_queue/v1_0/inbound.py` encode what they
write and decode what they read. A uid stands for the bytes of its text, and so does a field.
-/
namespace AcapyRedis.RawRedis
open AcapyRedis.Programs AcapyRedis.Python AcapyRedis.RedisStore AcapyRedis.Base64 AcapyRedis.Records AcapyRedis.JsonText
open AcapyRedis.Inbound (Response RedisInboundTransport)
open AcapyRedis.Utils (b64_to_bytes recip_key_of candidates topic_list)
open AcapyRedis.Timestamps (Dated access_value stale_uid_check)

/-! ### Redis -/

structure RawStore where
  round_robin_iterator : Option Bytes
  uid_recip_keys_map : Hash Uid Bytes
  recip_key_uid_map : Hash RecipKey Uid
  uid_last_access_map : Hash Uid Bytes
  uid_recip_key_pending_msg_count : Hash String Bytes
  lists : String → List Bytes

/-- A Redis without any key. -/
def RawStore.empty : RawStore := ⟨none, ∅, ∅, ∅, ∅, fun _ => []⟩

/-- A number that Redis counts with. -/
def Long (n : Int) : Prop := -2 ^ 63 ≤ n ∧ n < 2 ^ 63

instance (n : Int) : Decidable (Long n) := inferInstanceAs (Decidable (_ ∧ _))

/-- How Redis and its client write a number. -/
def number (n : Int) : Bytes := (decimal n).map UInt8.ofNat

/-- The number that digits with a sign spell. -/
def signed_value : Bytes → Int
  | [] => 0
  | sign :: digits =>
    if sign = 45 then - (digits_value (digits.map UInt8.toNat) : Int) else digits_value ((sign :: digits).map UInt8.toNat)

/-- The number that a value is to `HINCRBY`, which takes only what it would write itself. -/
def string2ll (value : Bytes) : Option Int :=
  if Long (signed_value value) ∧ number (signed_value value) = value then some (signed_value value) else none

inductive RawCommand
  | get_round_robin
  | set_round_robin (value : Bytes)
  | hkeys_recip_keys
  | hget_recip_keys (uid : Uid)
  | hset_recip_keys (uid : Uid) (value : Bytes)
  | hdel_recip_keys (uid : Uid)
  | hexists_uid (recip_key : RecipKey)
  | hget_uid (recip_key : RecipKey)
  | hset_uid (recip_key : RecipKey) (uid : Uid)
  | hget_last_access (uid : Uid)
  | hset_last_access (uid : Uid) (value : Bytes)
  | hget_pending (field : String)
  | hset_pending (field : String) (value : Bytes)
  | hdel_pending (field : String)
  | hincrby_pending (field : String) (amount : Int)
  | rpush (list : String) (value : Bytes)
  | blpop (list : String)
  | ping

@[reducible] def RawCommand.Reply : RawCommand → Type
  | .get_round_robin => Option Bytes
  | .hkeys_recip_keys => List Uid
  | .hget_recip_keys _ => Option Bytes
  | .hexists_uid _ => Bool
  | .hget_uid _ => Option Uid
  | .hget_last_access _ => Option Bytes
  | .hget_pending _ => Option Bytes
  | .blpop _ => Option Bytes
  | _ => Unit

/-- The counter that `HINCRBY` adds to, if it is one. -/
def RawStore.counter (s : RawStore) (field : String) : Option Int :=
  match s.uid_recip_key_pending_msg_count.lookup field with
  | some value => string2ll value
  | none => some 0

/-- Redis executes a command; `HKEYS` lists the uids in any order. -/
def exec : (c : RawCommand) → List Uid → RawStore → c.Reply × RawStore
  | .get_round_robin, _, s => (s.round_robin_iterator, s)
  | .set_round_robin value, _, s => ((), { s with round_robin_iterator := some value })
  | .hkeys_recip_keys, order, s => (arranged order s.uid_recip_keys_map.keys, s)
  | .hget_recip_keys uid, _, s => (s.uid_recip_keys_map.lookup uid, s)
  | .hset_recip_keys uid value, _, s => ((), { s with uid_recip_keys_map := s.uid_recip_keys_map.insert uid value })
  | .hdel_recip_keys uid, _, s => ((), { s with uid_recip_keys_map := s.uid_recip_keys_map.erase uid })
  | .hexists_uid recip_key, _, s => ((s.recip_key_uid_map.lookup recip_key).isSome, s)
  | .hget_uid recip_key, _, s => (s.recip_key_uid_map.lookup recip_key, s)
  | .hset_uid recip_key uid, _, s => ((), { s with recip_key_uid_map := s.recip_key_uid_map.insert recip_key uid })
  | .hget_last_access uid, _, s => (s.uid_last_access_map.lookup uid, s)
  | .hset_last_access uid value, _, s => ((), { s with uid_last_access_map := s.uid_last_access_map.insert uid value })
  | .hget_pending field, _, s => (s.uid_recip_key_pending_msg_count.lookup field, s)
  | .hset_pending field value, _, s =>
    ((), { s with uid_recip_key_pending_msg_count := s.uid_recip_key_pending_msg_count.insert field value })
  | .hdel_pending field, _, s =>
    ((), { s with uid_recip_key_pending_msg_count := s.uid_recip_key_pending_msg_count.erase field })
  | .hincrby_pending field amount, _, s =>
    match s.counter field with
    | some count =>
      ((), { s with
        uid_recip_key_pending_msg_count := s.uid_recip_key_pending_msg_count.insert field (number (count + amount)) })
    | none => ((), s)
  | .rpush list value, _, s => ((), { s with lists := Function.update s.lists list (s.lists list ++ [value]) })
  | .blpop list, _, s => ((s.lists list).head?, { s with lists := Function.update s.lists list (s.lists list).tail })
  | .ping, _, s => ((), s)

/-- When Redis executes a command: `HINCRBY` raises at a value that is no number and when the sum is
    too large, and a hash has fewer than `2 ^ 32` fields. -/
def executes (s : RawStore) : RawCommand → Bool
  | .hincrby_pending field amount => (s.counter field).any (fun count => decide (Long (count + amount)))
  | .hkeys_recip_keys => decide (s.uid_recip_keys_map.keys.length < 2 ^ 32)
  | _ => true

/-- A program of one of the clients. -/
abbrev Raw := Program RawCommand RawCommand.Reply PyError

/-- Awaits one command. -/
abbrev raw (c : RawCommand) : Raw c.Reply := Program.call c

/-! ### Python -/

/-- Python's `json` and `int`, and the names of the content types. `int` reads what `str` writes. -/
structure Interpreter where
  limits : Limits
  floats : Floats
  codec : Codec
  mime : MimeTypes
  int : Text → Except PyError Int
  deep : 1 < limits.depth
  typed : ∀ content_type, Readable (mime.value content_type)
  int_str : ∀ n, Long n → int (decimal n) = .ok n

def Interpreter.json (py : Interpreter) : JsonModule := python_json py.limits py.floats py.codec

/-- `int(value.decode())`. -/
def Interpreter.int_of (py : Interpreter) (value : Bytes) : Except PyError Int := do py.int (← value.decode)

/-- `list(keys)` of a set: some order of it. -/
structure Listing where
  list : List RecipKey → List RecipKey
  perm : ∀ keys, (list keys).Perm keys

/-- `datetime.now()` on a host with an offset from UTC, within the years that it has. -/
structure Clock where
  offset : Int
  reading : Int
  dated : Dated offset reading

/-- The local time in whole seconds. -/
def Clock.seconds (clock : Clock) : Int := clock.reading / 1000000 + clock.offset

/-- `base64.urlsafe_b64encode(json.dumps(keys).encode("utf-8"))`. -/
def encode_keys (json : JsonModule) (keys : List RecipKey) : Except PyError Bytes := do
  return urlsafe_b64encode (← (json.dumps (.arr (keys.map (fun key => .str (text key))))).utf8)

/-- A key of a list. -/
def key_of : Json → Except PyError RecipKey
  | .str key => key.encode
  -- no program writes such a list
  | _ => .error .TypeError

/-- `json.loads(b64_to_bytes(encoded).decode())`. -/
def decode_keys (json : JsonModule) (encoded : Bytes) : Except PyError Json := do
  json.loads (.inr (← (← b64_to_bytes (.inr encoded) true).decode))

/-- The keys that a value lists. -/
def keys_of (keys : Json) : Except PyError (List RecipKey) := do (← keys.elements).mapM key_of

/-! ### `utils.py` -/

section
variable (py : Interpreter) (listing : Listing)

def get_recip_keys_list_for_uid (plugin_uid : Uid) : Raw (List RecipKey) := do
  match ← raw (.hget_recip_keys plugin_uid) with
  | none => return []
  | some [] => return []
  | some recip_keys_encoded => do
    let inbound_msg_keys ← Program.ofExcept (decode_keys py.json recip_keys_encoded)
    Program.ofExcept (keys_of inbound_msg_keys)

/-- Whether a value that was read is not `None` or empty. -/
def filled : Option Bytes → Bool
  | some (_ :: _) => true
  | _ => false

def read_round_robin : Raw Int := do
  if filled (← raw .get_round_robin) = false then
    raw (.set_round_robin (number 0))
  match ← raw .get_round_robin with
  | some next_iter => Program.ofExcept (py.int_of next_iter)
  | none => .raise .AttributeError

def take_uid (next_iter : Int) (first : Uid) (rest : List Uid) : Raw Uid := do
  let new_uid := (subscript (first :: rest) next_iter).getD first
  raw (.set_round_robin (number (if next_iter + 1 < (first :: rest).length then next_iter + 1 else 0)))
  return new_uid

def get_new_valid_uid (to_ignore_uid : Option Uid) : Nat → Raw Uid
  | 0 => .waiting
  | patience+1 => do
    let next_iter ← read_round_robin py
    let uid_list ← raw .hkeys_recip_keys
    match candidates to_ignore_uid uid_list with
    | [] => do
      raw .ping
      get_new_valid_uid to_ignore_uid patience
    | first :: rest => take_uid next_iter first rest

/-- Writes a key list in the order of the set. -/
def write_keys (uid : Uid) (keys : List RecipKey) : Raw Unit := do
  let encoded ← Program.ofExcept (encode_keys py.json (listing.list keys))
  raw (.hset_recip_keys uid encoded)

def assign_recip_key_to_new_uid (patience : Nat) (recip_key : RecipKey) : Raw Uid := do
  let new_uid ← get_new_valid_uid py none patience
  raw (.hset_uid recip_key new_uid)
  let recip_keys_set := (← get_recip_keys_list_for_uid py new_uid).dedup
  if recip_key ∉ recip_keys_set then
    write_keys py listing new_uid (recip_keys_set.insert recip_key)
  raw (.hset_pending (uid_recip_key new_uid recip_key) (number 0))
  return new_uid

def reassign_recip_key_to_uid (patience : Nat) (old_uid : Uid) (recip_key : RecipKey) : Raw Uid := do
  let new_uid ← get_new_valid_uid py (some old_uid) patience
  let old_recip_keys_list ← get_recip_keys_list_for_uid py old_uid
  let new_recip_keys_list ← get_recip_keys_list_for_uid py new_uid
  write_keys py listing old_uid (old_recip_keys_list.dedup.erase recip_key)
  let old_pending_msg_count ← raw (.hget_pending (uid_recip_key old_uid recip_key))
  raw (.hdel_pending (uid_recip_key old_uid recip_key))
  raw (.hset_uid recip_key new_uid)
  write_keys py listing new_uid (new_recip_keys_list.dedup.insert recip_key)
  match old_pending_msg_count with
  | none => return new_uid
  | some [] => return new_uid
  | some count => do
    let count ← Program.ofExcept (py.int_of count)
    raw (.hincrby_pending (uid_recip_key new_uid recip_key) count)
    return new_uid

def any_pending (old_uid : Uid) : List RecipKey → Raw Bool
  | [] => return false
  | recip_key :: rest => do
    match ← raw (.hget_pending (uid_recip_key old_uid recip_key)) with
    | some enc_uid_recip_key_msg_cnt => do
      let count ← Program.ofExcept (py.int_of enc_uid_recip_key_msg_cnt)
      if 1 ≤ count then return true else any_pending old_uid rest
    | none => any_pending old_uid rest

def reassign_all (patience : Nat) (old_uid : Uid) (recip_key_in : RecipKey) : Uid → List RecipKey → Raw Uid
  | plugin_uid, [] => return plugin_uid
  | plugin_uid, recip_key :: rest => do
    let new_uid ← reassign_recip_key_to_uid py listing patience old_uid recip_key
    reassign_all patience old_uid recip_key_in (if recip_key = recip_key_in then new_uid else plugin_uid) rest

def evacuate (patience : Nat) (old_uid : Uid) (recip_key_in : RecipKey) : Raw Uid := do
  let assigned_recip_key_list ← get_recip_keys_list_for_uid py old_uid
  if ← any_pending py old_uid assigned_recip_key_list then
    let plugin_uid ← reassign_all py listing patience old_uid recip_key_in old_uid assigned_recip_key_list
    if (← get_recip_keys_list_for_uid py old_uid).isEmpty then
      raw (.hdel_recip_keys old_uid)
    return plugin_uid
  else return old_uid

def find_or_assign (patience : Nat) (recip_key_in : RecipKey) : Raw Uid := do
  if ← raw (.hexists_uid recip_key_in) then
    match ← raw (.hget_uid recip_key_in) with
    | some plugin_uid => return plugin_uid
    | none => .raise .RedisError
  else assign_recip_key_to_new_uid py listing patience recip_key_in

def process_recip_key (patience : Nat) (clock : Clock) (recip_key_in : RecipKey) : Raw Unit := do
  let plugin_uid ← find_or_assign py listing patience recip_key_in
  let last_accessed_map_value ← raw (.hget_last_access plugin_uid)
  let stale ← Program.ofExcept (stale_uid_check clock.offset clock.reading last_accessed_map_value)
  let plugin_uid ← if stale then evacuate py listing patience plugin_uid recip_key_in else pure plugin_uid
  raw (.hincrby_pending (uid_recip_key plugin_uid recip_key_in) 1)

/-- One call: the list to push to and the message. -/
def process_payload_recip_key (patience : Nat) (clock : Clock) (payload : Bytes) (topic : String) : Raw (String × Bytes) := do
  match recip_key_of py.json.loads payload with
  | .error error => .raise error
  | .ok recip_key_in => do
    let message ← Program.ofExcept (py.json.dumps (payload_record payload)).utf8
    process_recip_key py listing patience clock recip_key_in
    return (topic_list topic recip_key_in, message)

/-! ### `inbound.py` -/

/-- An instance, with the clock of its host when it handles a message of a key. -/
structure RawTransport extends RedisInboundTransport where
  clocks : RecipKey → Clock
  agrees : ∀ recip_key, clock recip_key = (clocks recip_key).seconds

/-- The head of `start`. -/
def register (plugin_uid : Uid) : Raw Unit := do
  raw .ping
  let new_recip_keys_set ← Program.ofExcept (encode_keys py.json [])
  raw (.hset_recip_keys plugin_uid new_recip_keys_set)

/-- `BLPOP` of one list with as many tries as are left before `start` gives up. -/
def pop_message (list : String) : Nat → Raw (Option Bytes)
  | 0 => .raise .InboundTransportError
  | tries+1 => do
    match ← (raw (.blpop list)).attempt with
    | .ok msg => return msg
    | .error .RedisError => pop_message list tries
    | .error .RedisClusterException => pop_message list tries
    | .error error => .raise error

/-- The content type and the bytes of a response. -/
def content_of (self : RawTransport) : Option Response → Except PyError (Option ContentType × Bytes)
  | none => .error .TypeError
  | some (.str []) => .error .TypeError
  | some (.str value) => do return (some .application_json, ← value.utf8)
  | some (.bytes []) => .ok (none, [])
  | some (.bytes value) =>
    .ok (some (if self.emit_new_didcomm_mime_type then .DIDCOMM_V1_MIME_TYPE else .DIDCOMM_V0_MIME_TYPE), value)

def response_message (txn_id : Json) (content : Option ContentType × Bytes) : Json :=
  .obj [(text "txn_id", txn_id), (text "response_data", response_data py.mime content.1 content.2)]

/-- Hands a payload to a session and answers a direct-response request. -/
def receive (self : RawTransport) (payload : Bytes) (txn_id : Option Json) : Raw Unit := do
  match self.session payload with
  | .error .MessageParseError => return
  | .error .WireFormatParseError => return
  | .error error => .raise error
  | .ok response =>
    match txn_id with
    | none => return
    | some txn_id =>
      match content_of self response with
      | .error error => .raise error
      | .ok content => do
        let message ← Program.ofExcept (py.json.dumps (response_message py txn_id content)).utf8
        match ← (raw (.rpush self.direct_response_topic message)).attempt with
        | .ok _ => return
        | .error .RedisError => return
        | .error error => .raise error

/-- What an instance does with a record that it has read. -/
def handle (self : RawTransport) (recip_key : RecipKey) (inbound : Bytes × Option Json) : Raw Unit := do
  let access ← Program.ofExcept (access_value (self.clocks recip_key).offset (self.clocks recip_key).reading)
  raw (.hset_last_access self.plugin_uid access)
  match ← raw (.hget_pending (uid_recip_key self.plugin_uid recip_key)) with
  | none => receive py self inbound.1 inbound.2
  | some [] => receive py self inbound.1 inbound.2
  | some enc_uid_recip_key_count => do
    let count ← Program.ofExcept (py.int_of enc_uid_recip_key_count)
    if 1 ≤ count then
      raw (.hset_pending (uid_recip_key self.plugin_uid recip_key) (number (count - 1)))
    receive py self inbound.1 inbound.2

/-- The body of the loop over the key list. -/
def poll_key (self : RawTransport) (recip_key : RecipKey) : Raw Unit := do
  match ← pop_message (topic_list self.inbound_topic recip_key) 6 with
  | none => return
  | some msg_bytes =>
    match decode_inbound py.json msg_bytes with
    | .error .JSONDecodeError => return
    | .error .KeyError => return
    | .error error => .raise error
    | .ok inbound => handle py self recip_key inbound

def poll_keys (self : RawTransport) : List RecipKey → Raw Unit
  | [] => return
  | recip_key :: rest => do
    poll_key py self recip_key
    poll_keys self rest

/-- One turn of the `while` loop of `start`. -/
def poll (self : RawTransport) : Raw Unit := do
  match ← (raw (.hget_recip_keys self.plugin_uid)).attempt with
  | .ok none => return
  | .ok (some []) => return
  | .ok (some recip_keys_encoded) =>
    match decode_keys py.json recip_keys_encoded with
    | .ok inbound_msg_keys_set => do
      let recip_keys ← Program.ofExcept (keys_of inbound_msg_keys_set)
      poll_keys py self recip_keys
    | .error .RedisError => return
    | .error .TypeError => return
    | .error error => .raise error
  | .error .RedisError => return
  | .error .TypeError => return
  | .error error => .raise error

end
end AcapyRedis.RawRedis
