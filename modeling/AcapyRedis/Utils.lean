import AcapyRedis.RedisStore

/-!
`redis_queue/v1_0/utils.py`: the recipient key of a packed message and the
programs that assign, reassign and count it. `json_loads` is Python's
`json.loads` on bytes or text; nothing is assumed about it. The loop of
`get_new_valid_uid` that waits for an instance has a bound, `patience`.
-/
namespace AcapyRedis.Utils
open AcapyRedis.Programs AcapyRedis.Python AcapyRedis.RedisStore

def b64_to_bytes (val : Text ⊕ Bytes) (urlsafe : Bool) : Except PyError Bytes := do
  let val ← match val with
    | .inl value => value.encodeAscii
    | .inr value => .ok value
  if urlsafe then
    let missing_padding := val.length % 4
    urlsafe_b64decode (if missing_padding = 0 then val else val ++ List.replicate (4 - missing_padding) 61)
  else b64decode val

/-- `b64_to_bytes` on a decoded JSON value: only a `str` has a length and can be padded. -/
def b64_of_json : Json → Except PyError Bytes
  | .str value => b64_to_bytes (.inl value) true
  | _ => .error .TypeError

def _recipients_from_packed_message (json_loads : Bytes ⊕ Text → Except PyError Json) (packed_message : Bytes) :
    Except PyError (List Json) := do
  let wrapper ← match json_loads (.inl packed_message) with
    | .ok wrapper => .ok wrapper
    | .error _ => .error .ValueError
  let recips_json ← Bytes.decodeAscii (← b64_of_json (← wrapper.getItem "protected"))
  let recips_outer ← match json_loads (.inr recips_json) with
    | .ok recips_outer => .ok recips_outer
    | .error _ => .error .ValueError
  (← (← recips_outer.getItem "recipients").elements).mapM fun recip => do
    (← recip.getItem "header").getItem "kid"

/-- `",".join(...)` and `.encode()` at the head of `process_payload_recip_key`. -/
def recip_key_of (json_loads : Bytes ⊕ Text → Except PyError Json) (payload : Bytes) : Except PyError RecipKey := do
  (← joinText (text ",") (← _recipients_from_packed_message json_loads payload)).encode

def get_recip_keys_list_for_uid (plugin_uid : Uid) : Redis (List RecipKey) := do
  let recip_keys_encoded ← redis (.hget_recip_keys plugin_uid)
  return recip_keys_encoded.getD []

/-- The uids among which a new one is chosen. -/
def candidates (to_ignore_uid : Option Uid) (uid_list : List Uid) : List Uid :=
  match to_ignore_uid with
  | some ignored => if 1 < uid_list.length then uid_list.erase ignored else uid_list
  | none => uid_list

/-- Reads the iterator, which is set to 0 first if there is none. -/
def read_round_robin : Redis Int := do
  if (← redis .get_round_robin).isNone then
    redis (.set_round_robin 0)
  match ← redis .get_round_robin with
  | some next_iter => return next_iter
  | none => .raise .AttributeError

/-- Takes the uid at the iterator from a nonempty list, or the first one, and moves
    the iterator on. -/
def take_uid (next_iter : Int) (first : Uid) (rest : List Uid) : Redis Uid := do
  let new_uid := (subscript (first :: rest) next_iter).getD first
  redis (.set_round_robin (if next_iter + 1 < (first :: rest).length then next_iter + 1 else 0))
  return new_uid

def get_new_valid_uid (to_ignore_uid : Option Uid) : Nat → Redis Uid
  | 0 => .waiting
  | patience+1 => do
    let next_iter ← read_round_robin
    let uid_list ← redis .hkeys_recip_keys
    match candidates to_ignore_uid uid_list with
    | [] => do
      redis .ping
      get_new_valid_uid to_ignore_uid patience
    | first :: rest => take_uid next_iter first rest

def assign_recip_key_to_new_uid (patience : Nat) (recip_key : RecipKey) : Redis Uid := do
  let new_uid ← get_new_valid_uid none patience
  redis (.hset_uid recip_key new_uid)
  let recip_keys_set := (← get_recip_keys_list_for_uid new_uid).dedup
  if recip_key ∉ recip_keys_set then
    redis (.hset_recip_keys new_uid (.gains recip_key) (recip_keys_set.insert recip_key))
  redis (.hset_pending (uid_recip_key new_uid recip_key) 0)
  return new_uid

def reassign_recip_key_to_uid (patience : Nat) (old_uid : Uid) (recip_key : RecipKey) : Redis Uid := do
  let new_uid ← get_new_valid_uid (some old_uid) patience
  let old_recip_keys_list ← get_recip_keys_list_for_uid old_uid
  let new_recip_keys_list ← get_recip_keys_list_for_uid new_uid
  redis (.hset_recip_keys old_uid (.loses recip_key) (old_recip_keys_list.dedup.erase recip_key))
  let old_pending_msg_count ← redis (.hget_pending (uid_recip_key old_uid recip_key))
  redis (.hdel_pending (uid_recip_key old_uid recip_key))
  redis (.hset_uid recip_key new_uid)
  redis (.hset_recip_keys new_uid (.gains recip_key) (new_recip_keys_list.dedup.insert recip_key))
  match old_pending_msg_count with
  | some count => redis (.hincrby_pending (uid_recip_key new_uid recip_key) count)
  | none => pure ()
  return new_uid

/-- The first loop over the keys of a stale uid: whether one has a pending message. -/
def any_pending (old_uid : Uid) : List RecipKey → Redis Bool
  | [] => return false
  | recip_key :: rest => do
    match ← redis (.hget_pending (uid_recip_key old_uid recip_key)) with
    | some count => if 1 ≤ count then return true else any_pending old_uid rest
    | none => any_pending old_uid rest

/-- The second loop: reassigns every key and returns the uid that `recip_key_in` got. -/
def reassign_all (patience : Nat) (old_uid : Uid) (recip_key_in : RecipKey) : Uid → List RecipKey → Redis Uid
  | plugin_uid, [] => return plugin_uid
  | plugin_uid, recip_key :: rest => do
    let new_uid ← reassign_recip_key_to_uid patience old_uid recip_key
    reassign_all patience old_uid recip_key_in (if recip_key = recip_key_in then new_uid else plugin_uid) rest

/-- The branch of a stale uid, which returns the uid to count the message for. -/
def evacuate (patience : Nat) (old_uid : Uid) (recip_key_in : RecipKey) : Redis Uid := do
  let assigned_recip_key_list ← get_recip_keys_list_for_uid old_uid
  if ← any_pending old_uid assigned_recip_key_list then
    let plugin_uid ← reassign_all patience old_uid recip_key_in old_uid assigned_recip_key_list
    if (← get_recip_keys_list_for_uid old_uid).isEmpty then
      redis (.hdel_recip_keys old_uid)
    return plugin_uid
  else return old_uid

/-- The owner of a key that has one, else the uid that it is assigned to. -/
def find_or_assign (patience : Nat) (recip_key_in : RecipKey) : Redis Uid := do
  if ← redis (.hexists_uid recip_key_in) then
    match ← redis (.hget_uid recip_key_in) with
    | some plugin_uid => return plugin_uid
    | none => .raise .RedisError
  else assign_recip_key_to_new_uid patience recip_key_in

/-- The stale check on the last access at the clock reading `now`, in whole seconds. -/
def stale_uid_check (now : Int) (last_accessed_map_value : Option Int) : Bool :=
  match last_accessed_map_value with
  | none => true
  | some rec_datetime => decide (15 ≤ now - rec_datetime)

/-- What `process_payload_recip_key` does once the payload has given its key. -/
def process_recip_key (patience : Nat) (now : Int) (recip_key_in : RecipKey) : Redis Unit := do
  let plugin_uid ← find_or_assign patience recip_key_in
  let last_accessed_map_value ← redis (.hget_last_access plugin_uid)
  let plugin_uid ← if stale_uid_check now last_accessed_map_value then
      evacuate patience plugin_uid recip_key_in
    else pure plugin_uid
  redis (.hincrby_pending (uid_recip_key plugin_uid recip_key_in) 1)

/-- The list of a key under a topic, `f"{topic}_{recip_key}"`. -/
def topic_list (topic : String) (recip_key : RecipKey) : String := topic ++ "_" ++ recip_key

theorem topic_list_inj {topic : String} {k l : RecipKey} : topic_list topic k = topic_list topic l ↔ k = l := by
  constructor
  · intro same
    have points := congrArg String.toList same
    simp only [topic_list,String.toList_append] at points
    exact String.toList_inj.mp (List.append_cancel_left points)
  · rintro rfl; rfl

/-- One call: the list to push to and the record to push. -/
def process_payload_recip_key (json_loads : Bytes ⊕ Text → Except PyError Json) (patience : Nat) (now : Int)
    (payload : Bytes) (topic : String) : Redis (String × Entry) := do
  match recip_key_of json_loads payload with
  | .error error => .raise error
  | .ok recip_key_in => do
    process_recip_key patience now recip_key_in
    return (topic_list topic recip_key_in, .inbound payload none)

/-- A producer: one call and one push of the record to the list that it returned. -/
def produce (json_loads : Bytes ⊕ Text → Except PyError Json) (patience : Nat) (now : Int) (payload : Bytes)
    (topic : String) : Redis Unit := do
  let (list, message) ← process_payload_recip_key json_loads patience now payload topic
  redis (.rpush list message)

/-! ### Two packed messages

What `json.loads` makes of the parts of two messages, one for the key `k` and one for
the key `l`, and two uids. -/

/-- The packed message with a protected header. -/
def packed (encoded : String) : Bytes := (text ("\x7b\"protected\":\"" ++ encoded ++ "\"\x7d")).map UInt8.ofNat

def protected_k : String := "eyJyZWNpcGllbnRzIjpbeyJoZWFkZXIiOnsia2lkIjoiayJ9fV19"
def protected_l : String := "eyJyZWNpcGllbnRzIjpbeyJoZWFkZXIiOnsia2lkIjoibCJ9fV19"

/-- The decoded protected header, whose only recipient is `kid`. -/
def recipients_of (kid : String) : Text :=
  text ("\x7b\"recipients\":[\x7b\"header\":\x7b\"kid\":\"" ++ kid ++ "\"\x7d\x7d]\x7d")

def recipients_json (kid : String) : Json :=
  .obj [(text "recipients", .arr [.obj [(text "header", .obj [(text "kid", .str (text kid))])]])]

/-- `json.loads` on the two messages and their headers. -/
def loads_two : Bytes ⊕ Text → Except PyError Json
  | .inl message =>
    if message = packed protected_k then .ok (.obj [(text "protected", .str (text protected_k))])
    else if message = packed protected_l then .ok (.obj [(text "protected", .str (text protected_l))])
    else .error .JSONDecodeError
  | .inr header =>
    if header = recipients_of "k" then .ok (recipients_json "k")
    else if header = recipients_of "l" then .ok (recipients_json "l")
    else .error .JSONDecodeError

theorem recip_key_of_k : recip_key_of loads_two (packed protected_k) = .ok "k" := by rfl

def uid_a : Uid := ⟨"aaaaaaaa-aaaa-4aaa-8aaa-aaaaaaaaaaaa", by decide⟩
def uid_b : Uid := ⟨"bbbbbbbb-bbbb-4bbb-8bbb-bbbbbbbbbbbb", by decide⟩

end AcapyRedis.Utils
