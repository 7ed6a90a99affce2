import Mathlib

/-!
The parts of Python that the programs use: strings as code points (a `str` can
hold a lone surrogate), byte strings, decoded JSON values, the exceptions and
`base64`. Text that can be encoded as UTF-8 is a `String`.
-/
namespace AcapyRedis.Python

/-- A `str`: its code points, lone surrogates included. -/
abbrev Text := List Nat
abbrev Bytes := List UInt8

/-- The code points of a literal. -/
def text (s : String) : Text := s.toList.map Char.toNat

/-- The exceptions that the programs raise or let through. -/
inductive PyError
  | ValueError
  | KeyError
  | TypeError
  | AttributeError
  | OverflowError
  | RecursionError
  | UnicodeEncodeError
  | UnicodeDecodeError
  | JSONDecodeError
  | BinasciiError
  | RedisError
  | RedisClusterException
  | InboundTransportError
  | OutboundTransportError
  | MessageParseError
  | WireFormatParseError
  | ValidationError
  | ClientError
  | TimeoutError
  deriving DecidableEq, Repr

theorem ok_bind {α β : Type} (value : α) (rest : α → Except PyError β) :
    (Except.ok value : Except PyError α) >>= rest = rest value := rfl

theorem error_bind {α β : Type} (error : PyError) (rest : α → Except PyError β) :
    (Except.error error : Except PyError α) >>= rest = .error error := rfl

theorem pure_ok {α : Type} (value : α) : (pure value : Except PyError α) = .ok value := rfl

theorem bind_ok_iff {α β : Type} {first : Except PyError α} {rest : α → Except PyError β} {result : β} :
    first >>= rest = .ok result ↔ ∃ value, first = .ok value ∧ rest value = .ok result := by
  cases first with
  | error error => simp [error_bind]
  | ok value => simp [ok_bind]

/-- A value that `json.loads` returns. Fields are in order and have distinct names;
    a number that is not an integer is kept as its literal. -/
inductive Json
  | null
  | bool (value : Bool)
  | int (value : Int)
  | float (literal : Text)
  | str (value : Text)
  | arr (items : List Json)
  | obj (fields : List (Text × Json))

/-- `value[key]` for a constant string key. -/
def Json.getItem (key : String) : Json → Except PyError Json
  | .obj fields =>
    match fields.find? (fun field => field.1 = text key) with
    | some field => .ok field.2
    | none => .error .KeyError
  | _ => .error .TypeError

/-- `value.get(key)`: only a `dict` has it. -/
def Json.get (key : String) : Json → Except PyError Json
  | .obj fields => .ok (((fields.find? (fun field => field.1 = text key)).map (·.2)).getD .null)
  | _ => .error .AttributeError

/-- The number that decimal digits write. -/
def digits_value (digits : Text) : Nat := digits.foldl (fun value digit => value * 10 + (digit - 48)) 0

/-- Whether a float literal is read as a zero: its digits are zeros, or it is at most half
    of the smallest positive double. `NaN` and `Infinity` have no digits. -/
def float_zero (literal : Text) : Bool :=
  let isDigit := fun point => decide (48 ≤ point) && decide (point ≤ 57)
  let isMantissa := fun point => point ≠ 101 && point ≠ 69
  let mantissa := literal.takeWhile isMantissa
  let exponent := (literal.dropWhile isMantissa).drop 1
  let digits := mantissa.filter isDigit
  let decimals := ((mantissa.dropWhile (· ≠ 46)).filter isDigit).length
  let scale : Int := (if 45 ∈ exponent then -(digits_value (exponent.filter isDigit) : Int)
    else digits_value (exponent.filter isDigit)) - decimals
  digits ≠ [] && (digits_value digits = 0 || (scale < 0 && digits_value digits * 2 ^ 1075 ≤ 10 ^ scale.natAbs))

/-- `bool(value)`. -/
def Json.truthy : Json → Bool
  | .null => false
  | .bool value => value
  | .int value => value ≠ 0
  | .float literal => !float_zero literal
  | .str value => value ≠ []
  | .arr items => !items.isEmpty
  | .obj fields => !fields.isEmpty

/-- `value == other` for a string constant. -/
def Json.isText (other : String) : Json → Bool
  | .str value => value = text other
  | _ => false

/-- What `for x in value` goes through. -/
def Json.elements : Json → Except PyError (List Json)
  | .arr items => .ok items
  | .obj fields => .ok (fields.map (fun field => .str field.1))
  | .str value => .ok (value.map (fun point => .str [point]))
  | _ => .error .TypeError

/-- `value.encode()`: fails on lone surrogates. -/
def Text.encode (value : Text) : Except PyError String :=
  if value.all (fun point => decide point.isValidChar) then .ok (String.ofList (value.map Char.ofNat))
  else .error .UnicodeEncodeError

/-- `value.encode("ascii")`. -/
def Text.encodeAscii (value : Text) : Except PyError Bytes :=
  if value.all (fun point => decide (point < 128)) then .ok (value.map UInt8.ofNat)
  else .error .UnicodeEncodeError

/-- `value.decode("ascii")`. -/
def Bytes.decodeAscii (value : Bytes) : Except PyError Text :=
  if value.all (fun byte => decide (byte.toNat < 128)) then .ok (value.map UInt8.toNat)
  else .error .UnicodeDecodeError

/-- `value.encode("utf-8")`. -/
def Text.utf8 (value : Text) : Except PyError Bytes := do return (← value.encode).toUTF8.toList

/-- `value.decode("utf8")`. -/
def Bytes.decode (value : Bytes) : Except PyError Text :=
  match String.fromUTF8? ⟨value.toArray⟩ with
  | some decoded => .ok (text decoded)
  | none => .error .UnicodeDecodeError

/-- `separator.join(items)`: every item has to be a `str`. -/
def joinText (separator : Text) : List Json → Except PyError Text
  | [] => .ok []
  | [.str last] => .ok last
  | .str item :: rest => do return item ++ separator ++ (← joinText separator rest)
  | _ :: _ => .error .TypeError

/-- `items[position]`; a negative position counts from the end, `none` is `IndexError`. -/
def subscript {α : Type} (items : List α) (position : Int) : Option α :=
  if 0 ≤ position then items[position.toNat]?
  else if -items.length ≤ position then items[(items.length + position).toNat]?
  else none

theorem subscript_mem {α : Type} {items : List α} {position : Int} {item : α}
    (found : subscript items position = some item) : item ∈ items := by
  unfold subscript at found
  split_ifs at found
  · exact List.mem_of_getElem? found
  · exact List.mem_of_getElem? found

/-! ### Words -/

theorem clean_points {sep : Nat} {word : Text} (clean : sep ∉ word) : ∀ point ∈ word, decide (point ≠ sep) = true :=
  fun _ member => decide_eq_true (fun same => clean (same ▸ member))

/-- A word up to a separator or the end. -/
theorem takeWhile_word {sep : Nat} {word : Text} (after : Text) (clean : sep ∉ word)
    (stops : after = [] ∨ after.head? = some sep) :
    (word ++ after).takeWhile (· ≠ sep) = word ∧ (word ++ after).dropWhile (· ≠ sep) = after := by
  rw [List.takeWhile_append_of_pos (clean_points clean),List.dropWhile_append_of_pos (clean_points clean)]
  obtain rfl | first := stops
  · simp
  · cases after with
    | nil => cases first
    | cons point rest =>
      cases first
      simp

/-- Every text is a word and what begins with the separator, if anything. -/
theorem words (sep : Nat) (value : Text) : ∃ word after, value = word ++ after ∧ sep ∉ word ∧
    (after = [] ∨ after.head? = some sep) := by
  refine ⟨value.takeWhile (· ≠ sep), value.dropWhile (· ≠ sep), List.takeWhile_append_dropWhile.symm, fun member => ?_, ?_⟩
  · simpa using List.mem_takeWhile_imp member
  · cases rest : value.dropWhile (· ≠ sep) with
    | nil => exact .inl rfl
    | cons point after =>
      right
      have stop := List.head?_dropWhile_not (· ≠ sep) value
      rw [rest] at stop
      simpa using stop

/-! ### UTF-8 -/

theorem toList_loop (bytes : ByteArray) (i : Nat) (read : List UInt8) :
    ByteArray.toList.loop bytes i read = read.reverse ++ bytes.data.toList.drop i := by
  induction i, read using ByteArray.toList.loop.induct bytes with
  | case1 i read inside ih =>
    have inside' : i < bytes.data.toList.length := by rw [Array.length_toList]; exact inside
    have here : bytes.get! i = bytes.data.toList[i] := getElem!_pos bytes.data i inside
    rw [ByteArray.toList.loop,if_pos inside,ih,List.drop_eq_getElem_cons inside',here]
    simp only [List.reverse_cons,List.append_assoc,List.singleton_append]
  | case2 i read outside =>
    have outside' : bytes.data.toList.length ≤ i := by rw [Array.length_toList]; exact Nat.le_of_not_lt outside
    rw [ByteArray.toList.loop,if_neg outside,List.drop_eq_nil_of_le outside',List.append_nil]

theorem toList_data (bytes : ByteArray) : bytes.toList = bytes.data.toList := by
  rw [ByteArray.toList,toList_loop]
  rfl

theorem decode_toUTF8 (s : String) : Bytes.decode s.toUTF8.toList = .ok (text s) := by
  have same : (⟨s.toUTF8.data.toList.toArray⟩ : ByteArray) = s.toByteArray := by
    rw [Array.toArray_toList]
    rfl
  rw [toList_data,Bytes.decode,same,String.fromUTF8?,dif_pos s.isValidUTF8]
  rfl

theorem text_encode (s : String) : Text.encode (text s) = .ok s := by
  have valid : (text s).all (fun point => decide point.isValidChar) = true := by
    simp only [text,List.all_eq_true,List.mem_map,decide_eq_true_eq]
    rintro _ ⟨c,_,rfl⟩
    exact c.valid
  have same : s.toList.map (Char.ofNat ∘ Char.toNat) = s.toList :=
    (List.map_congr_left (fun c _ => Char.ofNat_toNat c)).trans (List.map_id _)
  rw [Text.encode,if_pos valid,text,List.map_map,same,String.ofList_toList]

theorem text_inj {a b : String} (same : text a = text b) : a = b := by
  have encoded := text_encode a
  rw [same,text_encode b] at encoded
  exact (Except.ok.inj encoded).symm

theorem encode_text {value : Text} {s : String} (encoded : value.encode = .ok s) : text s = value := by
  unfold Text.encode at encoded
  split at encoded
  · next valid =>
    cases encoded
    rw [text,String.toList_ofList,List.map_map]
    refine (List.map_congr_left (fun point member => ?_)).trans (List.map_id value)
    have scalar := of_decide_eq_true (List.all_eq_true.mp valid point member)
    simp only [Function.comp_apply,Char.ofNat,scalar,↓reduceDIte]
    rfl
  · cases encoded

/-- Decoding undoes encoding. -/
theorem decode_utf8 {value : Text} {bytes : Bytes} (encoded : value.utf8 = .ok bytes) : bytes.decode = .ok value := by
  unfold Text.utf8 at encoded
  cases points : value.encode with
  | error error =>
    rw [points] at encoded
    cases encoded
  | ok s =>
    rw [points] at encoded
    cases encoded
    rw [decode_toUTF8,encode_text points]

/-- Encoding undoes decoding. -/
theorem utf8_decode {value : Text} {bytes : Bytes} (decoded : bytes.decode = .ok value) : value.utf8 = .ok bytes := by
  unfold Bytes.decode String.fromUTF8? at decoded
  split at decoded
  · next s found =>
    split at found
    · next valid =>
      cases found
      cases decoded
      rw [Text.utf8,text_encode]
      show Except.ok (String.fromUTF8 ⟨bytes.toArray⟩ valid).toUTF8.toList = Except.ok bytes
      rw [toList_data]
      rfl
    · cases found
  · cases decoded

/-! ### base64 -/

/-- The six bits that a character of the standard alphabet stands for. -/
def sextet (byte : UInt8) : Option Nat :=
  let c := byte.toNat
  if 65 ≤ c ∧ c ≤ 90 then some (c - 65)
  else if 97 ≤ c ∧ c ≤ 122 then some (c - 71)
  else if 48 ≤ c ∧ c ≤ 57 then some (c + 4)
  else if c = 43 then some 62
  else if c = 47 then some 63
  else none

/-- The whole bytes that a group of up to four sextets holds. -/
def groupBytes : List Nat → Bytes
  | [a, b] => [UInt8.ofNat (a * 4 + b / 16)]
  | [a, b, c] => [UInt8.ofNat (a * 4 + b / 16), UInt8.ofNat (b % 16 * 16 + c / 4)]
  | [a, b, c, d] => [UInt8.ofNat (a * 4 + b / 16), UInt8.ofNat (b % 16 * 16 + c / 4), UInt8.ofNat (c % 4 * 64 + d)]
  | _ => []

/-- `binascii.a2b_base64` with the sextets of the open group and the padding seen
    in it: characters outside the alphabet are skipped, a padded group ends the
    text, and an unpadded open group is an error. -/
def a2b_base64 : Bytes → List Nat → Nat → Except PyError Bytes
  | [], [], _ => .ok []
  | [], _ :: _, _ => .error .BinasciiError
  | byte :: rest, group, pads =>
    if byte = 61 then
      if 2 ≤ group.length then
        if 4 ≤ group.length + (pads + 1) then .ok (groupBytes group) else a2b_base64 rest group (pads + 1)
      else a2b_base64 rest group pads
    else
      match sextet byte with
      | none => a2b_base64 rest group pads
      | some value =>
        if group.length = 3 then do return groupBytes (group ++ [value]) ++ (← a2b_base64 rest [] 0)
        else a2b_base64 rest (group ++ [value]) 0

def b64decode (value : Bytes) : Except PyError Bytes := a2b_base64 value [] 0

/-- `base64.urlsafe_b64decode`: `-` and `_` stand for `+` and `/`. -/
def urlsafe_b64decode (value : Bytes) : Except PyError Bytes :=
  b64decode (value.map (fun byte => if byte = 45 then 43 else if byte = 95 then 47 else byte))

/-- `base64.urlsafe_b64decode` on a decoded JSON value: a `str` has to be ASCII. -/
def urlsafe_b64decode_json : Json → Except PyError Bytes
  | .str value =>
    match value.encodeAscii with
    | .ok bytes => urlsafe_b64decode bytes
    | .error _ => .error .ValueError
  | _ => .error .TypeError

end AcapyRedis.Python
