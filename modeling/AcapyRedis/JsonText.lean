import AcapyRedis.Records

/-!
Python's `json` on text. The writer is that of `json.dumps` with its default options: ASCII only,
with `, ` and `: ` between. The reader takes one code point after the other (`step`), with a stack
of the arrays and objects that are open. What the writer makes is printable (`dumps_printable`).
-/
namespace AcapyRedis.JsonText
open AcapyRedis.Python AcapyRedis.Records

/-! ### The writer -/

def hex_digit (digit : Nat) : Nat := if digit < 10 then 48 + digit else 87 + digit

/-- `'\\u{0:04x}'.format(code)`. -/
def unicode_escape (code : Nat) : Text :=
  [92, 117, hex_digit (code / 4096 % 16), hex_digit (code / 256 % 16), hex_digit (code / 16 % 16), hex_digit (code % 16)]

/-- A code point in a string. -/
def escape (point : Nat) : Text :=
  if point = 34 then [92, 34]
  else if point = 92 then [92, 92]
  else if point = 10 then [92, 110]
  else if point = 13 then [92, 114]
  else if point = 9 then [92, 116]
  else if point = 12 then [92, 102]
  else if point = 8 then [92, 98]
  else if 32 ≤ point ∧ point ≤ 126 then [point]
  else if point < 65536 then unicode_escape point
  else unicode_escape (55296 + (point - 65536) / 1024 % 1024) ++ unicode_escape (56320 + (point - 65536) % 1024)

def quote (value : Text) : Text := 34 :: (value.flatMap escape ++ [34])

/-- `float.__repr__` on the number that a literal writes. -/
structure Floats where
  repr : Text → Text
  printable : ∀ literal, ∀ point ∈ repr literal, 32 ≤ point ∧ point < 127

section
variable (floats : Floats)

mutual

def dumps : Json → Text
  | .null => text "null"
  | .bool value => text (if value then "true" else "false")
  | .int value => decimal value
  | .float literal => floats.repr literal
  | .str value => quote value
  | .arr items => 91 :: (dumps_items [] items ++ [93])
  | .obj fields => 123 :: (dumps_fields [] fields ++ [125])

/-- The items of an array, with what stands before the first of them. -/
def dumps_items (separator : Text) : List Json → Text
  | [] => []
  | item :: rest => separator ++ (dumps item ++ dumps_items [44, 32] rest)

def dumps_fields (separator : Text) : List (Text × Json) → Text
  | [] => []
  | (key, value) :: rest => separator ++ (quote key ++ (58 :: 32 :: (dumps value ++ dumps_fields [44, 32] rest)))

end

end

/-! ### Numbers -/

/-- The longest integer that Python reads, in digits, and how many arrays and objects can be
    open where the reader is called. -/
structure Limits where
  digits : Nat
  depth : Nat

def is_digit (point : Nat) : Bool := 48 ≤ point && point ≤ 57

/-- `0|[1-9][0-9]*` at the start. -/
def match_natural : Text → Option (Text × Text)
  | [] => none
  | point :: rest =>
    if point = 48 then some ([point], rest)
    else if is_digit point then some (point :: rest.takeWhile is_digit, rest.dropWhile is_digit)
    else none

/-- `-?(0|[1-9][0-9]*)` at the start. -/
def match_integer : Text → Option (Text × Text)
  | [] => none
  | point :: rest =>
    if point = 45 then (match_natural rest).map (fun found => (45 :: found.1, found.2))
    else match_natural (point :: rest)

/-- `(\.[0-9]+)?` at the start. -/
def match_fraction : Text → Text × Text
  | [] => ([], [])
  | point :: rest =>
    if point = 46 ∧ rest.takeWhile is_digit ≠ [] then (point :: rest.takeWhile is_digit, rest.dropWhile is_digit)
    else ([], point :: rest)

/-- `([eE][-+]?[0-9]+)?` at the start. -/
def match_exponent : Text → Text × Text
  | [] => ([], [])
  | point :: rest =>
    let sign := rest.takeWhile (fun point => point = 43 || point = 45)
    let digits := rest.drop sign.length
    if (point = 101 ∨ point = 69) ∧ sign.length ≤ 1 ∧ digits.takeWhile is_digit ≠ [] then
      (point :: (sign ++ digits.takeWhile is_digit), digits.dropWhile is_digit)
    else ([], point :: rest)

/-- `int(literal)`. -/
def read_int (limits : Limits) (literal : Text) : Except PyError Json :=
  let digits := literal.filter is_digit
  if limits.digits < digits.length then .error .ValueError
  else .ok (.int (if 45 ∈ literal then -(digits_value digits : Int) else digits_value digits))

/-- The number that begins a run of the characters of numbers. What is left of the run is
    never what can follow a value. -/
def read_number (limits : Limits) (run : Text) : Except PyError Json :=
  match match_integer run with
  | none => .error .JSONDecodeError
  | some (integer, rest) =>
    let fraction := match_fraction rest
    let exponent := match_exponent fraction.2
    if fraction.1 = [] ∧ exponent.1 = [] then do
      let number ← read_int limits integer
      if rest = [] then .ok number else .error .JSONDecodeError
    else if exponent.2 = [] then .ok (.float run) else .error .JSONDecodeError

/-! ### Strings -/

def is_high (code : Nat) : Bool := 55296 ≤ code && code < 56320

def is_low (code : Nat) : Bool := 56320 ≤ code && code < 57344

/-- What a surrogate pair stands for. -/
def join_surrogates (high low : Nat) : Nat := 65536 + (high - 55296) * 1024 + (low - 56320)

def hex_value (point : Nat) : Option Nat :=
  if 48 ≤ point ∧ point ≤ 57 then some (point - 48)
  else if 97 ≤ point ∧ point ≤ 102 then some (point - 87)
  else if 65 ≤ point ∧ point ≤ 70 then some (point - 55)
  else none

/-- What the character after a backslash stands for. -/
def unescape (point : Nat) : Option Nat :=
  if point = 34 ∨ point = 92 ∨ point = 47 then some point
  else if point = 98 then some 8
  else if point = 102 then some 12
  else if point = 110 then some 10
  else if point = 114 then some 13
  else if point = 116 then some 9
  else none

/-- Where the reader is in a string: after a whole character, after a backslash, or in the
    digits of a `\u` escape. -/
inductive Stage
  | plain
  | escape
  | unicode (code : Nat) (count : Nat)

/-- The part of a string that has been read. A high surrogate of an escape is kept apart until
    it is clear that no low one follows. -/
structure Chunk where
  points : Text
  high : Option Nat
  stage : Stage

def Chunk.text (chunk : Chunk) : Text := chunk.points ++ chunk.high.toList

/-- After the four digits of a `\u` escape. -/
def Chunk.unit (chunk : Chunk) (code : Nat) : Chunk :=
  match chunk.high with
  | some high =>
    if is_low code then ⟨chunk.points ++ [join_surrogates high code], none, .plain⟩
    else if is_high code then ⟨chunk.text, some code, .plain⟩
    else ⟨chunk.text ++ [code], none, .plain⟩
  | none =>
    if is_high code then ⟨chunk.points, some code, .plain⟩
    else ⟨chunk.points ++ [code], none, .plain⟩

/-- One more code point of a string, the closing quote apart. -/
def Chunk.read (chunk : Chunk) (point : Nat) : Except PyError Chunk :=
  match chunk.stage with
  | .plain =>
    if point = 92 then .ok { chunk with stage := .escape }
    else if point < 32 then .error .JSONDecodeError
    else .ok ⟨chunk.text ++ [point], none, .plain⟩
  | .escape =>
    if point = 117 then .ok { chunk with stage := .unicode 0 0 }
    else
      match unescape point with
      | some value => .ok ⟨chunk.text ++ [value], none, .plain⟩
      | none => .error .JSONDecodeError
  | .unicode code count =>
    match hex_value point with
    | some digit =>
      if count = 3 then .ok (chunk.unit (code * 16 + digit))
      else .ok { chunk with stage := .unicode (code * 16 + digit) (count + 1) }
    | none => .error .JSONDecodeError

/-! ### The reader -/

/-- An array or object around a value that is being read. -/
inductive Frame
  | arr (items : List Json)
  | obj (fields : List (Text × Json)) (key : Text)

/-- What the reader expects. `item` is after `[`, `first_key` after `{` and `key` after a comma in
    an object; a string is a key if the fields before it are given. -/
inductive Mode
  | value
  | item
  | first_key
  | key (fields : List (Text × Json))
  | colon (fields : List (Text × Json)) (key : Text)
  | after (value : Json)
  | str (fields : Option (List (Text × Json))) (chunk : Chunk)
  | number (run : Text)
  | word (left : Text) (value : Json)

structure Reader where
  mode : Mode
  stack : List Frame

def is_space (point : Nat) : Bool := point = 32 || point = 9 || point = 10 || point = 13

def is_number (point : Nat) : Bool :=
  is_digit point || point = 43 || point = 45 || point = 46 || point = 69 || point = 101

def empty_chunk : Chunk := ⟨[], none, .plain⟩

/-- The first code point of a value. -/
def begin_value (limits : Limits) (stack : List Frame) (point : Nat) : Except PyError Reader :=
  if point = 34 then .ok ⟨.str none empty_chunk, stack⟩
  else if point = 91 then
    if stack.length < limits.depth then .ok ⟨.item, stack⟩ else .error .RecursionError
  else if point = 123 then
    if stack.length < limits.depth then .ok ⟨.first_key, stack⟩ else .error .RecursionError
  else if point = 110 then .ok ⟨.word (text "ull") .null, stack⟩
  else if point = 116 then .ok ⟨.word (text "rue") (.bool true), stack⟩
  else if point = 102 then .ok ⟨.word (text "alse") (.bool false), stack⟩
  else if point = 78 then .ok ⟨.word (text "aN") (.float (text "NaN")), stack⟩
  else if point = 73 then .ok ⟨.word (text "nfinity") (.float (text "Infinity")), stack⟩
  else if point = 45 ∨ is_digit point then .ok ⟨.number [point], stack⟩
  else .error .JSONDecodeError

/-- A code point after a value. -/
def end_value (value : Json) (stack : List Frame) (point : Nat) : Except PyError Reader :=
  if is_space point then .ok ⟨.after value, stack⟩
  else
    match stack with
    | [] => .error .JSONDecodeError
    | .arr items :: stack =>
      if point = 44 then .ok ⟨.value, .arr (items ++ [value]) :: stack⟩
      else if point = 93 then .ok ⟨.after (.arr (items ++ [value])), stack⟩
      else .error .JSONDecodeError
    | .obj fields key :: stack =>
      if point = 44 then .ok ⟨.key (setItem key value fields), stack⟩
      else if point = 125 then .ok ⟨.after (.obj (setItem key value fields)), stack⟩
      else .error .JSONDecodeError

/-- What follows a whole string. -/
def close_string (fields : Option (List (Text × Json))) (value : Text) (stack : List Frame) : Reader :=
  match fields with
  | none => ⟨.after (.str value), stack⟩
  | some fields => ⟨.colon fields value, stack⟩

def step (limits : Limits) (reader : Reader) (point : Nat) : Except PyError Reader :=
  match reader.mode with
  | .value => if is_space point then .ok reader else begin_value limits reader.stack point
  | .item =>
    if is_space point then .ok reader
    else if point = 93 then .ok ⟨.after (.arr []), reader.stack⟩
    else begin_value limits (.arr [] :: reader.stack) point
  | .first_key =>
    if is_space point then .ok reader
    else if point = 125 then .ok ⟨.after (.obj []), reader.stack⟩
    else if point = 34 then .ok ⟨.str (some []) empty_chunk, reader.stack⟩
    else .error .JSONDecodeError
  | .key fields =>
    if is_space point then .ok reader
    else if point = 34 then .ok ⟨.str (some fields) empty_chunk, reader.stack⟩
    else .error .JSONDecodeError
  | .colon fields key =>
    if is_space point then .ok reader
    else if point = 58 then .ok ⟨.value, .obj fields key :: reader.stack⟩
    else .error .JSONDecodeError
  | .after value => end_value value reader.stack point
  | .str fields chunk =>
    match chunk.stage, decide (point = 34) with
    | .plain, true => .ok (close_string fields chunk.text reader.stack)
    | _, _ => do return ⟨.str fields (← chunk.read point), reader.stack⟩
  | .number run =>
    if is_number point then .ok ⟨.number (run ++ [point]), reader.stack⟩
    else if run = [45] ∧ point = 73 then .ok ⟨.word (text "nfinity") (.float (text "-Infinity")), reader.stack⟩
    else do end_value (← read_number limits run) reader.stack point
  | .word [] value => end_value value reader.stack point
  | .word (expected :: left) value =>
    if point = expected then .ok ⟨.word left value, reader.stack⟩ else .error .JSONDecodeError

/-- The end of the text. -/
def finish (limits : Limits) (reader : Reader) : Except PyError Json :=
  let whole := fun value => if reader.stack.isEmpty then .ok value else .error .JSONDecodeError
  match reader.mode with
  | .after value => whole value
  | .word [] value => whole value
  | .number run => do whole (← read_number limits run)
  | _ => .error .JSONDecodeError

def read (limits : Limits) (reader : Reader) : Text → Except PyError Json
  | [] => finish limits reader
  | point :: rest => do read limits (← step limits reader point) rest

/-! ### Bytes -/

inductive Encoding
  | utf_8
  | utf_8_sig
  | utf_16
  | utf_16_be
  | utf_16_le
  | utf_32
  | utf_32_be
  | utf_32_le

/-- `json.detect_encoding`. -/
def detect_encoding (bytes : Bytes) : Encoding :=
  if [0, 0, 254, 255].isPrefixOf bytes || [255, 254, 0, 0].isPrefixOf bytes then .utf_32
  else if [254, 255].isPrefixOf bytes || [255, 254].isPrefixOf bytes then .utf_16
  else if [239, 187, 191].isPrefixOf bytes then .utf_8_sig
  else
    match bytes with
    | [a, b] => if a = 0 then .utf_16_be else if b = 0 then .utf_16_le else .utf_8
    | a :: b :: c :: d :: _ =>
      if a = 0 then if b = 0 then .utf_32_be else .utf_16_be
      else if b = 0 then if c = 0 ∧ d = 0 then .utf_32_le else .utf_16_le
      else .utf_8
    | _ => .utf_8

/-- `bytes.decode(encoding, "surrogatepass")`: what is UTF-8 without surrogates is decoded as ever. -/
structure Codec where
  decode : Encoding → Bytes → Except PyError Text
  utf_8 : ∀ bytes value, bytes.decode = .ok value → decode .utf_8 bytes = .ok value

/-- `json.loads` on a `str`. -/
def loads_text (limits : Limits) (value : Text) : Except PyError Json :=
  if value.head? = some 65279 then .error .JSONDecodeError else read limits ⟨.value, []⟩ value

def loads (limits : Limits) (codec : Codec) : Bytes ⊕ Text → Except PyError Json
  | .inl bytes => do loads_text limits (← codec.decode (detect_encoding bytes) bytes)
  | .inr value => loads_text limits value

/-! ### What the writer makes is printable -/

def Printable (value : Text) : Prop := ∀ point ∈ value, 32 ≤ point ∧ point < 127

theorem printable_append {a b : Text} (first : Printable a) (second : Printable b) : Printable (a ++ b) := by
  intro point member
  rcases List.mem_append.mp member with member | member
  · exact first point member
  · exact second point member

theorem printable_cons {point : Nat} {rest : Text} (here : 32 ≤ point ∧ point < 127) (there : Printable rest) :
    Printable (point :: rest) := by
  intro other member
  rcases List.mem_cons.mp member with rfl | member
  · exact here
  · exact there other member

theorem printable_nil : Printable [] := fun _ member => absurd member List.not_mem_nil

theorem hex_digit_printable {digit : Nat} (small : digit < 16) : 32 ≤ hex_digit digit ∧ hex_digit digit < 127 := by
  unfold hex_digit
  split_ifs <;> omega

theorem unicode_escape_printable (code : Nat) : Printable (unicode_escape code) := by
  have digit : ∀ n, 32 ≤ hex_digit (n % 16) ∧ hex_digit (n % 16) < 127 :=
    fun n => hex_digit_printable (Nat.mod_lt n (by decide))
  have four := printable_cons (digit (code / 4096)) (printable_cons (digit (code / 256))
    (printable_cons (digit (code / 16)) (printable_cons (digit code) printable_nil)))
  exact printable_cons (by decide) (printable_cons (by decide) four)

/-- The four ways to write a code point. -/
theorem escape_cases (point : Nat) :
    (∃ letter, escape point = [92, letter] ∧ unescape letter = some point ∧ letter ≠ 117 ∧
      (32 ≤ letter ∧ letter < 127) ∧ point < 127) ∨
    (escape point = [point] ∧ point ≠ 34 ∧ point ≠ 92 ∧ 32 ≤ point ∧ point < 127) ∨
    (escape point = unicode_escape point ∧ point < 65536) ∨
    (escape point = unicode_escape (55296 + (point - 65536) / 1024 % 1024) ++
      unicode_escape (56320 + (point - 65536) % 1024) ∧ 65536 ≤ point) := by
  unfold escape
  split_ifs with quotation backslash newline carriage tab feed back inside basic
  · exact .inl ⟨34,rfl,by simp [unescape,quotation],by decide,by decide,by omega⟩
  · exact .inl ⟨92,rfl,by simp [unescape,backslash],by decide,by decide,by omega⟩
  · exact .inl ⟨110,rfl,by simp [unescape,newline],by decide,by decide,by omega⟩
  · exact .inl ⟨114,rfl,by simp [unescape,carriage],by decide,by decide,by omega⟩
  · exact .inl ⟨116,rfl,by simp [unescape,tab],by decide,by decide,by omega⟩
  · exact .inl ⟨102,rfl,by simp [unescape,feed],by decide,by decide,by omega⟩
  · exact .inl ⟨98,rfl,by simp [unescape,back],by decide,by decide,by omega⟩
  · exact .inr (.inl ⟨rfl,quotation,backslash,inside.1,by omega⟩)
  · exact .inr (.inr (.inl ⟨rfl,basic⟩))
  · exact .inr (.inr (.inr ⟨rfl,Nat.le_of_not_lt basic⟩))

theorem escape_printable (point : Nat) : Printable (escape point) := by
  rcases escape_cases point with ⟨letter,same,_,_,printable,_⟩ | ⟨same,_,_,printable⟩ | ⟨same,_⟩ | ⟨same,_⟩ <;> rw [same]
  · exact printable_cons (by decide) (printable_cons printable printable_nil)
  · exact printable_cons printable printable_nil
  · exact unicode_escape_printable point
  · exact printable_append (unicode_escape_printable _) (unicode_escape_printable _)

theorem quote_printable (value : Text) : Printable (quote value) := by
  refine printable_cons (by decide) (printable_append ?_ (printable_cons (by decide) printable_nil))
  intro point member
  obtain ⟨escaped,_,member⟩ := List.mem_flatMap.mp member
  exact escape_printable escaped point member

/-- The decimal digits of a number. -/
abbrev numeral (n : Nat) : Text := (Nat.toDigits 10 n).map Char.toNat

theorem numeral_digit {n point : Nat} (member : point ∈ numeral n) : is_digit point = true := by
  obtain ⟨digit,inside,rfl⟩ := List.mem_map.mp member
  have decimal := Nat.isDigit_of_mem_toDigits (by decide) (by decide) inside
  simpa [is_digit,Char.isDigit,UInt32.le_iff_toNat_le] using decimal

theorem is_digit_iff (point : Nat) : is_digit point = true ↔ 48 ≤ point ∧ point ≤ 57 := by
  simp [is_digit]

theorem decimal_printable (value : Int) : Printable (decimal value) := by
  refine printable_append ?_ (fun point member => ?_)
  · split_ifs
    · exact printable_cons (by decide) printable_nil
    · exact printable_nil
  · have digit := (is_digit_iff point).mp (numeral_digit member)
    omega

theorem separator_printable : Printable [44, 32] :=
  printable_cons (by decide) (printable_cons (by decide) printable_nil)

theorem null_printable : Printable (text "null") := by unfold Printable; decide
theorem true_printable : Printable (text "true") := by unfold Printable; decide
theorem false_printable : Printable (text "false") := by unfold Printable; decide

section
variable (floats : Floats)

mutual

theorem dumps_printable : ∀ value, Printable (dumps floats value)
  | .null => null_printable
  | .bool true => true_printable
  | .bool false => false_printable
  | .int value => decimal_printable value
  | .float literal => floats.printable literal
  | .str value => quote_printable value
  | .arr items => printable_cons (by decide)
      (printable_append (items_printable printable_nil items) (printable_cons (by decide) printable_nil))
  | .obj fields => printable_cons (by decide)
      (printable_append (fields_printable printable_nil fields) (printable_cons (by decide) printable_nil))

theorem items_printable {separator : Text} (before : Printable separator) :
    ∀ items, Printable (dumps_items floats separator items)
  | [] => printable_nil
  | item :: rest => printable_append before
      (printable_append (dumps_printable item) (items_printable separator_printable rest))

theorem fields_printable {separator : Text} (before : Printable separator) :
    ∀ fields, Printable (dumps_fields floats separator fields)
  | [] => printable_nil
  | (key, value) :: rest => printable_append before (printable_append (quote_printable key)
      (printable_cons (by decide) (printable_cons (by decide)
        (printable_append (dumps_printable value) (fields_printable separator_printable rest)))))

end

end

end AcapyRedis.JsonText
