import Mathlib.Data.List.AList
import Mathlib.Data.List.Dedup
import AcapyRedis.Programs
import AcapyRedis.Python

/-!
The Redis keys that the sharding of the inbound queue uses and the commands
issued on them. The hashes and lists hold what their values decode to: the list
of recipient keys behind its base64 JSON, counters and the iterator as integers,
a time stamp in whole seconds, a queued record by what reading it gives.
-/
namespace AcapyRedis.RedisStore
open AcapyRedis.Programs AcapyRedis.Python

/-- The uid of a plugin instance, the text of a `uuid4`. -/
structure Uid where
  text : String
  size : text.length = 36
  deriving DecidableEq

/-- The `,`-joined recipient `kid`s of a packed message. -/
abbrev RecipKey := String

/-- The content types that an instance records with a direct response. -/
inductive ContentType
  | DIDCOMM_V0_MIME_TYPE
  | DIDCOMM_V1_MIME_TYPE
  | application_json
  deriving DecidableEq

/-- A record of a Redis list, by what `json.loads`, `["payload"]` and the base64
    decoding of the instance make of it. -/
inductive Entry
  /-- An inbound message, with the `txn_id` of a direct-response request. -/
  | inbound (payload : Bytes) (txn_id : Option Text)
  /-- The response to a direct-response request. -/
  | direct_response (txn_id : Text) (content_type : Option ContentType) (response : Bytes)
  /-- Bytes whose decoding raises. -/
  | invalid (error : PyError)

/-- A Redis hash; only `HKEYS` sees an order of the fields, and that order is free. -/
abbrev Hash (K V : Type) := AList (fun _ : K => V)

structure Store where
  round_robin_iterator : Option Int
  uid_recip_keys_map : Hash Uid (List RecipKey)
  recip_key_uid_map : Hash RecipKey Uid
  uid_last_access_map : Hash Uid Int
  uid_recip_key_pending_msg_count : Hash String Int
  lists : String → List Entry

/-- A Redis without any key. -/
def Store.empty : Store := ⟨none, ∅, ∅, ∅, ∅, fun _ => []⟩

/-- The field `f"{uid}_{recip_key}"` of a pending counter. -/
def uid_recip_key (uid : Uid) (recip_key : RecipKey) : String := uid.text ++ "_" ++ recip_key

/-- The decoded key list of a uid, empty when the uid has none. -/
def Store.recip_keys (s : Store) (uid : Uid) : List RecipKey := (s.uid_recip_keys_map.lookup uid).getD []

/-- The counter of a uid and a key, 0 when there is none. -/
def Store.pending (s : Store) (field : String) : Int := (s.uid_recip_key_pending_msg_count.lookup field).getD 0

/-- What a write of a key list is for: to list one more key or to take one out. -/
inductive ListChange
  | gains (recip_key : RecipKey)
  | loses (recip_key : RecipKey)
  deriving DecidableEq

/-- The key that the write is for. -/
def ListChange.recip_key : ListChange → RecipKey
  | .gains k => k
  | .loses k => k

/-- The commands, named after the Redis command and the key it works on. A write of
    a key list says which key it lists or takes out; Redis only gets the list. -/
inductive Command
  | get_round_robin
  | set_round_robin (value : Int)
  | hkeys_recip_keys
  | hget_recip_keys (uid : Uid)
  | hset_recip_keys (uid : Uid) (change : ListChange) (recip_keys : List RecipKey)
  | hset_no_recip_keys (uid : Uid)
  | hdel_recip_keys (uid : Uid)
  | hexists_uid (recip_key : RecipKey)
  | hget_uid (recip_key : RecipKey)
  | hset_uid (recip_key : RecipKey) (uid : Uid)
  | hget_last_access (uid : Uid)
  | hset_last_access (uid : Uid) (time : Int)
  | hget_pending (field : String)
  | hset_pending (field : String) (value : Int)
  | hdel_pending (field : String)
  | hincrby_pending (field : String) (amount : Int)
  | rpush (list : String) (entry : Entry)
  | blpop (list : String)
  | ping

@[reducible] def Command.Reply : Command → Type
  | .get_round_robin => Option Int
  | .hkeys_recip_keys => List Uid
  | .hget_recip_keys _ => Option (List RecipKey)
  | .hexists_uid _ => Bool
  | .hget_uid _ => Option Uid
  | .hget_last_access _ => Option Int
  | .hget_pending _ => Option Int
  | .blpop _ => Option Entry
  | _ => Unit

/-- What the environment chooses at a command: the order in which `HKEYS` lists the
    uids, or in which Python lists a set that is written. -/
structure Choice where
  uids : List Uid := []
  recip_keys : List RecipKey := []

instance : Inhabited Choice := ⟨{}⟩

/-- The chosen order of some items, or their own if the choice does not fit. -/
def arranged {α : Type} [DecidableEq α] (order items : List α) : List α :=
  if order.isPerm items then order else items

theorem arranged_perm {α : Type} [DecidableEq α] (order items : List α) : (arranged order items).Perm items := by
  unfold arranged
  split
  · next same => exact List.isPerm_iff.mp same
  · exact .rfl

@[simp] theorem mem_arranged {α : Type} [DecidableEq α] (order items : List α) (item : α) :
    item ∈ arranged order items ↔ item ∈ items := (arranged_perm order items).mem_iff

/-- Redis executes one command. -/
def exec : (c : Command) → Choice → Store → c.Reply × Store
  | .get_round_robin, _, s => (s.round_robin_iterator, s)
  | .set_round_robin value, _, s => ((), { s with round_robin_iterator := some value })
  | .hkeys_recip_keys, choice, s => (arranged choice.uids s.uid_recip_keys_map.keys, s)
  | .hget_recip_keys uid, _, s => (s.uid_recip_keys_map.lookup uid, s)
  | .hset_recip_keys uid _ recip_keys, choice, s =>
    ((), { s with
      uid_recip_keys_map := s.uid_recip_keys_map.insert uid (arranged choice.recip_keys recip_keys) })
  | .hset_no_recip_keys uid, _, s => ((), { s with uid_recip_keys_map := s.uid_recip_keys_map.insert uid [] })
  | .hdel_recip_keys uid, _, s => ((), { s with uid_recip_keys_map := s.uid_recip_keys_map.erase uid })
  | .hexists_uid recip_key, _, s => ((s.recip_key_uid_map.lookup recip_key).isSome, s)
  | .hget_uid recip_key, _, s => (s.recip_key_uid_map.lookup recip_key, s)
  | .hset_uid recip_key uid, _, s => ((), { s with recip_key_uid_map := s.recip_key_uid_map.insert recip_key uid })
  | .hget_last_access uid, _, s => (s.uid_last_access_map.lookup uid, s)
  | .hset_last_access uid time, _, s => ((), { s with uid_last_access_map := s.uid_last_access_map.insert uid time })
  | .hget_pending field, _, s => (s.uid_recip_key_pending_msg_count.lookup field, s)
  | .hset_pending field value, _, s =>
    ((), { s with uid_recip_key_pending_msg_count := s.uid_recip_key_pending_msg_count.insert field value })
  | .hdel_pending field, _, s =>
    ((), { s with uid_recip_key_pending_msg_count := s.uid_recip_key_pending_msg_count.erase field })
  | .hincrby_pending field amount, _, s =>
    ((), { s with
      uid_recip_key_pending_msg_count :=
        s.uid_recip_key_pending_msg_count.insert field (s.pending field + amount) })
  | .rpush list entry, _, s => ((), { s with lists := Function.update s.lists list (s.lists list ++ [entry]) })
  | .blpop list, _, s => ((s.lists list).head?, { s with lists := Function.update s.lists list (s.lists list).tail })
  | .ping, _, s => ((), s)

/-- A program of one of the clients. -/
abbrev Redis := Program Command Command.Reply PyError

/-- Awaits one command. -/
abbrev redis (c : Command) : Redis c.Reply := Program.call c

/-! ### Counter fields -/

/-- The fields of the counters of different uids or keys differ. -/
theorem uid_recip_key_inj {u v : Uid} {k l : RecipKey} :
    uid_recip_key u k = uid_recip_key v l ↔ u = v ∧ k = l := by
  constructor
  · intro same
    have points := congrArg String.toList same
    simp only [uid_recip_key,String.toList_append] at points
    rw [List.append_assoc,List.append_assoc] at points
    have sizes : u.text.toList.length = v.text.toList.length := by
      simp [String.length_toList,u.size,v.size]
    obtain ⟨uids,rest⟩ := List.append_inj points sizes
    have keys := List.append_cancel_left rest
    cases u
    cases v
    exact ⟨by simpa [String.toList_inj] using uids, String.toList_inj.mp keys⟩
  · rintro ⟨rfl,rfl⟩
    rfl

theorem uid_recip_key_ne_uid {u v : Uid} (k l : RecipKey) (other : v ≠ u) : uid_recip_key v l ≠ uid_recip_key u k :=
  fun same => other (uid_recip_key_inj.mp same).1

theorem uid_recip_key_ne_key (u v : Uid) {k l : RecipKey} (other : l ≠ k) : uid_recip_key v l ≠ uid_recip_key u k :=
  fun same => other (uid_recip_key_inj.mp same).2

/-! ### Key lists -/

theorem recip_keys_insert (s : Store) (u v : Uid) (ks : List RecipKey) :
    ((s.uid_recip_keys_map.insert u ks).lookup v).getD [] = if v = u then ks else s.recip_keys v := by
  by_cases same : v = u
  · subst same; simp
  · simp [same,AList.lookup_insert_ne same,Store.recip_keys]

theorem recip_keys_insert_ne (s : Store) {u v : Uid} (ks : List RecipKey) (other : v ≠ u) :
    ((s.uid_recip_keys_map.insert u ks).lookup v).getD [] = s.recip_keys v := by
  rw [AList.lookup_insert_ne other]
  rfl

theorem recip_keys_erase_ne (s : Store) {u v : Uid} (other : v ≠ u) :
    ((s.uid_recip_keys_map.erase u).lookup v).getD [] = s.recip_keys v := by
  rw [AList.lookup_erase_ne other]
  rfl

theorem pending_insert_ne (s : Store) {field other : String} (count : Int) (apart : other ≠ field) :
    ((s.uid_recip_key_pending_msg_count.insert field count).lookup other).getD 0 = s.pending other := by
  rw [AList.lookup_insert_ne apart]
  rfl

theorem pending_erase_ne (s : Store) {field other : String} (apart : other ≠ field) :
    ((s.uid_recip_key_pending_msg_count.erase field).lookup other).getD 0 = s.pending other := by
  rw [AList.lookup_erase_ne apart]
  rfl

end AcapyRedis.RedisStore
