import AcapyRedis.Deliverer
import AcapyRedis.Records

/-!
The model `OutboundPayload` of `redis_deliverer/deliver/__init__.py`: what `from_bytes`
reads from an element of the outbound topic, and the record of a retry. `from_bytes`
succeeds exactly on the elements that `Describes` a message (`from_bytes_iff`).
-/
namespace AcapyRedis.Payloads
open AcapyRedis.Python AcapyRedis.Deliverer AcapyRedis.Base64 AcapyRedis.Records

/-- The headers of a message. -/
abbrev Headers := List (Text × Json)

/-- What the deliverer uses: Python's JSON, what pydantic makes of the values of typed fields
    (none is a validation error), the scheme of a url, and
    `int(time() + pow(5, 1 + 0.25 * (retries - 1)))` at a clock reading. -/
structure Toolbox where
  json : JsonModule
  /-- The url of a `Service`. -/
  service : Json → Option Text
  dict : Json → Option Headers
  int : Json → Option Int
  urlparse_scheme : Text → Except PyError Text
  retry_time : Int → Int → Int

/-- A decoded message with its private attribute. -/
structure Message (tools : Toolbox) extends OutboundPayload Headers where
  endpoint_scheme : Text
  parsed : tools.urlparse_scheme url = .ok endpoint_scheme

/-! ### Decoding -/

/-- The value of a keyword argument. -/
def argument (name : String) (data : List (Text × Json)) : Option Json :=
  (data.find? (fun field => field.1 = text name)).map (·.2)

/-- `**value`: a `dict`, without a name that the constructors use themselves. -/
def arguments : Json → Except PyError (List (Text × Json))
  | .obj data =>
    if (argument "self" data).isSome || (argument "__pydantic_self__" data).isSome then .error .TypeError else .ok data
  | _ => .error .TypeError

/-- The validator `not_none` and the type of a field with a default. -/
def not_none {α : Type} (validator : Json → Option α) (default : α) : Option Json → Option α
  | none => some default
  | some .null => some default
  | some value => validator value

/-- Every error of the validator becomes one of pydantic. -/
def decode_payload_to_bytes (value : Json) : Option Bytes := (urlsafe_b64decode_json value).toOption

/-- The fields of the model, validated. -/
def validated (tools : Toolbox) (data : List (Text × Json)) : Option (OutboundPayload Headers) := do
  let url ← (argument "service" data).bind tools.service
  let payload ← (argument "payload" data).bind decode_payload_to_bytes
  let headers ← not_none tools.dict [] (argument "headers" data)
  let retries ← not_none tools.int 0 (argument "retries" data)
  return ⟨url, payload, headers, retries⟩

/-- `OutboundPayload.__init__`. -/
def OutboundPayload.init (tools : Toolbox) (data : List (Text × Json)) : Except PyError (Message tools) :=
  match validated tools data with
  | none => .error .ValidationError
  | some msg =>
    match parsed : tools.urlparse_scheme msg.url with
    | .ok endpoint_scheme => .ok ⟨msg, endpoint_scheme, parsed⟩
    | .error error => .error error

def OutboundPayload.from_bytes (tools : Toolbox) (value : Bytes) : Except PyError (Message tools) := do
  let payload ← tools.json.loads (.inr (← value.decode))
  OutboundPayload.init tools (← arguments payload)

/-! ### What is decoded -/

/-- The arguments have what the fields of a message need. -/
structure Valid (tools : Toolbox) (data : List (Text × Json)) (msg : OutboundPayload Headers) : Prop where
  service : ∃ service, argument "service" data = some service ∧ tools.service service = some msg.url
  payload : ∃ b64 ascii, argument "payload" data = some (.str b64) ∧ b64.encodeAscii = .ok ascii ∧
    urlsafe_b64decode ascii = .ok msg.payload
  headers : not_none tools.dict [] (argument "headers" data) = some msg.headers
  retries : not_none tools.int 0 (argument "retries" data) = some msg.retries

/-- The bytes are UTF-8 for a JSON object with valid fields and without a reserved name. -/
def Describes (tools : Toolbox) (value : Bytes) (msg : OutboundPayload Headers) : Prop :=
  ∃ decoded data, value.decode = .ok decoded ∧ tools.json.loads (.inr decoded) = .ok (.obj data) ∧
    argument "self" data = none ∧ argument "__pydantic_self__" data = none ∧ Valid tools data msg

theorem decode_payload_iff {value : Json} {payload : Bytes} : decode_payload_to_bytes value = some payload ↔
    ∃ b64 ascii, value = .str b64 ∧ b64.encodeAscii = .ok ascii ∧ urlsafe_b64decode ascii = .ok payload := by
  constructor
  · intro decodes
    cases value with
    | str b64 =>
      cases encoded : b64.encodeAscii with
      | error error => simp [decode_payload_to_bytes,urlsafe_b64decode_json,encoded,Except.toOption] at decodes
      | ok ascii =>
        cases decoded : urlsafe_b64decode ascii with
        | error error => simp [decode_payload_to_bytes,urlsafe_b64decode_json,encoded,decoded,Except.toOption] at decodes
        | ok bytes =>
          simp only [decode_payload_to_bytes,urlsafe_b64decode_json,encoded,decoded,Except.toOption,
            Option.some.injEq] at decodes
          exact ⟨b64, ascii, rfl, encoded, decodes ▸ decoded⟩
    | _ => cases decodes
  · rintro ⟨b64,ascii,rfl,encoded,decoded⟩
    simp only [decode_payload_to_bytes,urlsafe_b64decode_json,encoded,decoded,Except.toOption]

theorem validated_iff {tools : Toolbox} {data : List (Text × Json)} {msg : OutboundPayload Headers} :
    validated tools data = some msg ↔ Valid tools data msg := by
  constructor
  · intro accepted
    simp only [validated,bind,Option.bind_eq_some_iff,pure,Option.some.injEq] at accepted
    obtain ⟨url,⟨service,there,kept⟩,payload,⟨value,given,decodes⟩,headers,named,retries,counted,rfl⟩ := accepted
    obtain ⟨b64,ascii,rfl,encoded,decoded⟩ := decode_payload_iff.mp decodes
    exact ⟨⟨service,there,kept⟩, ⟨b64,ascii,given,encoded,decoded⟩, named, counted⟩
  · rintro ⟨⟨service,there,kept⟩,⟨b64,ascii,given,encoded,decoded⟩,headers,retries⟩
    have decodes := decode_payload_iff.mpr ⟨b64,ascii,rfl,encoded,decoded⟩
    simp only [validated,bind,Option.bind_eq_some_iff,pure,Option.some.injEq]
    exact ⟨msg.url, ⟨service,there,kept⟩, msg.payload, ⟨_,given,decodes⟩, msg.headers, headers, msg.retries, retries, rfl⟩

theorem arguments_iff {value : Json} {data : List (Text × Json)} : arguments value = .ok data ↔
    value = .obj data ∧ argument "self" data = none ∧ argument "__pydantic_self__" data = none := by
  cases value with
  | obj fields =>
    simp only [arguments,Json.obj.injEq]
    split
    · next reserved =>
      refine ⟨fun raised => (by cases raised), ?_⟩
      rintro ⟨rfl,own,other⟩
      simp [own,other] at reserved
    · next free =>
      simp only [Bool.or_eq_true,not_or,Option.isSome_iff_ne_none,not_not] at free
      constructor
      · intro kept
        cases kept
        exact ⟨rfl,free⟩
      · rintro ⟨rfl,_⟩
        rfl
  | _ => simp [arguments]

theorem init_iff {tools : Toolbox} {data : List (Text × Json)} {msg : Message tools} :
    OutboundPayload.init tools data = .ok msg ↔ validated tools data = some msg.toOutboundPayload := by
  unfold OutboundPayload.init
  cases accepted : validated tools data with
  | none => simp
  | some fields =>
    simp only [Option.some.injEq]
    split
    · next endpoint_scheme parsed =>
      constructor
      · intro made
        cases made
        rfl
      · rintro rfl
        have same : endpoint_scheme = msg.endpoint_scheme := Except.ok.inj (parsed.symm.trans msg.parsed)
        subst same
        rfl
    · next error refused =>
      refine ⟨fun raised => (by cases raised), ?_⟩
      rintro rfl
      cases refused.symm.trans msg.parsed

/-- The elements that `from_bytes` accepts, and what it makes of them. -/
theorem from_bytes_iff {tools : Toolbox} {value : Bytes} {msg : Message tools} :
    OutboundPayload.from_bytes tools value = .ok msg ↔ Describes tools value msg.toOutboundPayload := by
  simp only [OutboundPayload.from_bytes,bind_ok_iff,arguments_iff,init_iff,validated_iff,Describes]
  constructor
  · rintro ⟨decoded,spelled,payload,read,data,⟨rfl,own,other⟩,valid⟩
    exact ⟨decoded, data, spelled, read, own, other, valid⟩
  · rintro ⟨decoded,data,spelled,read,own,other,valid⟩
    exact ⟨decoded, spelled, .obj data, read, data, ⟨rfl,own,other⟩, valid⟩

/-! ### Encoding -/

/-- The `dict` of a message to retry. -/
def retry_record (msg : OutboundPayload Headers) : Json :=
  .obj [(text "service", .obj [(text "url", .str msg.url)]), (text "headers", .obj msg.headers),
    (text "payload", .str (b64_text msg.payload)), (text "retries", .int msg.retries)]

def retry_msg (tools : Toolbox) (msg : OutboundPayload Headers) : Except PyError Bytes :=
  (tools.json.dumps (retry_record msg)).utf8

end AcapyRedis.Payloads
