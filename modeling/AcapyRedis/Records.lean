import AcapyRedis.Base64

/-!
The JSON records that the programs write to Redis, with the base64 of bytes in them, and
what an instance makes of an inbound one. A record that `json.loads` reads back as it was
written gives back the payload and the `txn_id` (`entry_of_relay_record`,
`entry_of_payload_record`).
-/
namespace AcapyRedis.Records
open AcapyRedis.Python AcapyRedis.RedisStore AcapyRedis.Utils AcapyRedis.Base64

/-- The content types of the agent framework for packed messages; neither is that of JSON. -/
structure MimeTypes where
  DIDCOMM_V0_MIME_TYPE : Text
  DIDCOMM_V1_MIME_TYPE : Text
  v0_packed : DIDCOMM_V0_MIME_TYPE ≠ text "application/json"
  v1_packed : DIDCOMM_V1_MIME_TYPE ≠ text "application/json"

def MimeTypes.value (mime : MimeTypes) : ContentType → Text
  | .DIDCOMM_V0_MIME_TYPE => mime.DIDCOMM_V0_MIME_TYPE
  | .DIDCOMM_V1_MIME_TYPE => mime.DIDCOMM_V1_MIME_TYPE
  | .application_json => text "application/json"

/-- Python's `json`. What `json.dumps` makes is ASCII; nothing is assumed about `json.loads`. -/
structure JsonModule where
  loads : Bytes ⊕ Text → Except PyError Json
  dumps : Json → Text
  ascii : ∀ value, ∀ point ∈ dumps value, point < 128

/-- `json.loads` reads a value back from what `json.dumps` made of it, from the text and from
    its bytes. -/
structure Faithful (json : JsonModule) (value : Json) : Prop where
  bytes : ∀ bytes, (json.dumps value).utf8 = .ok bytes → json.loads (.inl bytes) = .ok value
  text : json.loads (.inr (json.dumps value)) = .ok value

theorem utf8_ascii {value : Text} (ascii : ∀ point ∈ value, point < 128) : ∃ bytes, value.utf8 = .ok bytes := by
  have valid : value.all (fun point => decide point.isValidChar) = true := by
    refine List.all_eq_true.mpr (fun point member => decide_eq_true ?_)
    have small := ascii point member
    exact .inl (by omega)
  rw [Text.utf8,Text.encode,if_pos valid]
  exact ⟨_,rfl⟩

/-- `str.encode(json.dumps(value))` never fails. -/
theorem JsonModule.encodes (json : JsonModule) (value : Json) : ∃ bytes, (json.dumps value).utf8 = .ok bytes :=
  utf8_ascii (json.ascii value)

/-! ### Records -/

/-- The record of a relay. -/
def relay_record (message_data : Bytes) (txn_id : Option Text) (transport_type : String) : Json :=
  .obj ((text "payload", .str (b64_text message_data)) ::
    (txn_id.toList.map (fun txn_id => (text "txn_id", .str txn_id)) ++
      [(text "transport_type", .str (text transport_type))]))

/-- The record of `process_payload_recip_key`. -/
def payload_record (payload : Bytes) : Json := .obj [(text "payload", .str (b64_text payload))]

/-- The record for the deliverer. -/
def outbound_record (endpoint : Text) (payload : Bytes) (headers : List (Text × Json)) : Json :=
  .obj [(text "service", .obj [(text "url", .str endpoint)]), (text "payload", .str (b64_text payload)),
    (text "headers", .obj headers)]

/-- The `response_data` of an instance; an empty response has no content type. -/
def response_data (mime : MimeTypes) (content_type : Option ContentType) (response : Bytes) : Json :=
  .obj (content_type.toList.map (fun content_type => (text "content-type", .str (mime.value content_type))) ++
    [(text "response", .str (b64_text response))])

/-- The record of an instance for the direct response topic. -/
def response_record (mime : MimeTypes) (txn_id : Text) (content_type : Option ContentType) (response : Bytes) : Json :=
  .obj [(text "txn_id", .str txn_id), (text "response_data", response_data mime content_type response)]

/-- `fields[key] = value` on the fields of a `dict`. -/
def setItem (key : Text) (value : Json) : List (Text × Json) → List (Text × Json)
  | [] => [(key, value)]
  | field :: rest => if field.1 = key then (key, value) :: rest else field :: setItem key value rest

/-! ### What an instance reads -/

/-- What `start` makes of a popped record: the payload, and the `txn_id` if there is one. -/
def decode_inbound (json : JsonModule) (msg_bytes : Bytes) : Except PyError (Bytes × Option Json) := do
  let inbound ← json.loads (.inl msg_bytes)
  let payload ← urlsafe_b64decode_json (← inbound.getItem "payload")
  return (payload, (inbound.getItem "txn_id").toOption)

/-- A record as the store keeps it. No program writes a `txn_id` that is not a string. -/
def stored : Except PyError (Bytes × Option Json) → Entry
  | .ok (payload, none) => .inbound payload none
  | .ok (payload, some (.str txn_id)) => .inbound payload (some txn_id)
  | .ok (_, some _) => .invalid .TypeError
  | .error error => .invalid error

/-- The entry that a pushed record is: `str.encode(json.dumps(record))` by what `start` reads. -/
def entry_of (json : JsonModule) (record : Json) : Except PyError Entry := do
  return stored (decode_inbound json (← (json.dumps record).utf8))

theorem entry_of_ok (json : JsonModule) (record : Json) : ∃ entry, entry_of json record = .ok entry := by
  obtain ⟨bytes,encoded⟩ := json.encodes record
  rw [entry_of,encoded]
  exact ⟨_,rfl⟩

/-- The decoder takes the text of an encoding. -/
theorem urlsafe_b64decode_text (payload : Bytes) : urlsafe_b64decode_json (.str (b64_text payload)) = .ok payload := by
  rw [urlsafe_b64decode_json,b64_text,encodeAscii_text (urlsafe_b64encode_ascii payload)]
  exact urlsafe_b64decode_encode payload

section
variable {json : JsonModule}

/-- The entry of a record that is read back as it was written. -/
theorem entry_of_faithful {record : Json} (faithful : Faithful json record) (payload : Bytes)
    (payload_field : record.getItem "payload" = .ok (.str (b64_text payload))) :
    entry_of json record = .ok (stored (.ok (payload, (record.getItem "txn_id").toOption))) := by
  obtain ⟨bytes,encoded⟩ := json.encodes record
  have decoded : decode_inbound json bytes = .ok (payload, (record.getItem "txn_id").toOption) := by
    simp only [decode_inbound,faithful.bytes bytes encoded,payload_field,urlsafe_b64decode_text,ok_bind,pure_ok]
  rw [entry_of,encoded]
  exact congrArg (fun read => Except.ok (stored read)) decoded

theorem entry_of_relay_record {message_data : Bytes} {txn_id : Option Text} {transport_type : String}
    (faithful : Faithful json (relay_record message_data txn_id transport_type)) :
    entry_of json (relay_record message_data txn_id transport_type) =
      .ok (.inbound message_data txn_id) := by
  rw [entry_of_faithful faithful message_data (by rfl)]
  cases txn_id <;> rfl

theorem entry_of_payload_record {payload : Bytes}
    (faithful : Faithful json (payload_record payload)) :
    entry_of json (payload_record payload) = .ok (.inbound payload none) := by
  rw [entry_of_faithful faithful payload (by rfl)]
  rfl

end

/-- `str(value)` of an `int`. -/
def decimal (value : Int) : Text :=
  (if value < 0 then text "-" else []) ++ (Nat.toDigits 10 value.natAbs).map Char.toNat

/-! ### A sample

What `json.dumps` makes of values without floats whose strings need no escapes. -/

def quoted (value : Text) : Text := text "\"" ++ value ++ text "\""

mutual

def sample_text : Json → Text
  | .null => text "null"
  | .bool value => text (if value then "true" else "false")
  | .int value => decimal value
  | .float literal => literal
  | .str value => quoted value
  | .arr items => text "[" ++ sample_items items ++ text "]"
  | .obj fields => text "\x7b" ++ sample_fields fields ++ text "\x7d"

def sample_items : List Json → Text
  | [] => []
  | [item] => sample_text item
  | item :: rest => sample_text item ++ text ", " ++ sample_items rest

def sample_fields : List (Text × Json) → Text
  | [] => []
  | [(key, value)] => quoted key ++ text ": " ++ sample_text value
  | (key, value) :: rest => quoted key ++ text ": " ++ sample_text value ++ text ", " ++ sample_fields rest

end

/-- A `json` that reads some records back, and the two packed messages. -/
def sample_json (records : List Json) : JsonModule where
  loads
    | .inl bytes =>
      match records.find? (fun record => (sample_text record).map UInt8.ofNat = bytes) with
      | some record => .ok record
      | none => loads_two (.inl bytes)
    | .inr value =>
      match records.find? (fun record => sample_text record = value) with
      | some record => .ok record
      | none => loads_two (.inr value)
  dumps value := (sample_text value).filter (· < 128)
  ascii _ _ member := of_decide_eq_true (List.mem_filter.mp member).2

/-- The first record with the text of the one at a position is that one, and the text is ASCII. -/
@[mk_iff] structure ReadsBack (records : List Json) (i : Nat) (record : Json) : Prop where
  from_text : records.findIdx? (fun other => sample_text other = sample_text record) = some i
  from_bytes : records.findIdx? (fun other => (sample_text other).map UInt8.ofNat = (sample_text record).map UInt8.ofNat) = some i
  ascii : (sample_text record).filter (· < 128) = sample_text record
  utf8 : (sample_text record).utf8 = .ok ((sample_text record).map UInt8.ofNat)

section
variable {records : List Json} {i : Nat} {record : Json}

instance (records : List Json) (i : Nat) (record : Json) : Decidable (ReadsBack records i record) :=
  decidable_of_iff _ (readsBack_iff records i record).symm

theorem sample_loads_text (there : records[i]? = some record) (reads : ReadsBack records i record) :
    (sample_json records).loads (.inr (sample_text record)) = .ok record := by
  have found : records.find? (fun other => sample_text other = sample_text record) = some record := by
    rw [List.find?_eq_bind_findIdx?_getElem?,reads.from_text]
    exact there
  simp only [sample_json,found]

theorem sample_loads_bytes (there : records[i]? = some record) (reads : ReadsBack records i record) :
    (sample_json records).loads (.inl ((sample_text record).map UInt8.ofNat)) = .ok record := by
  have found : records.find? (fun other => (sample_text other).map UInt8.ofNat = (sample_text record).map UInt8.ofNat) =
      some record := by
    rw [List.find?_eq_bind_findIdx?_getElem?,reads.from_bytes]
    exact there
  simp only [sample_json,found]

theorem sample_faithful (there : records[i]? = some record) (reads : ReadsBack records i record) :
    Faithful (sample_json records) record := by
  have same : (sample_json records).dumps record = sample_text record := reads.ascii
  constructor
  · intro bytes encoded
    rw [same,reads.utf8] at encoded
    cases encoded
    exact sample_loads_bytes there reads
  · rw [same]
    exact sample_loads_text there reads

end

end AcapyRedis.Records
