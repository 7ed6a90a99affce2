import AcapyRedis.JsonText

/-!
`json.loads` reads back what `json.dumps` makes of a value (`loads_dumps`), from the text and from
its bytes (`python_json_faithful`), unless the value has a float that is written in another way, a high
surrogate right before a low one, an integer with too many digits or too deep a nesting (`Writable`).
-/
namespace AcapyRedis.JsonText
open AcapyRedis.Python AcapyRedis.Records

/-! ### Strings are read back -/

theorem read_step {limits : Limits} {reader next : Reader} {point : Nat} (stepped : step limits reader point = .ok next)
    (rest : Text) : read limits reader (point :: rest) = read limits next rest := by
  rw [read,stepped]
  rfl

theorem hex_value_digit {digit : Nat} (small : digit < 16) : hex_value (hex_digit digit) = some digit := by
  unfold hex_digit
  split_ifs with decimal
  · rw [hex_value,if_pos (by omega)]
    simp
  · rw [hex_value,if_neg (by omega),if_pos (by omega)]
    simp

/-- One more character after a plain part of a string; a high one may be half of a pair. -/
def Chunk.add (chunk : Chunk) (point : Nat) : Chunk :=
  if is_high point then ⟨chunk.text, some point, .plain⟩ else ⟨chunk.text ++ [point], none, .plain⟩

theorem add_plain (chunk : Chunk) (point : Nat) : (chunk.add point).stage = .plain := by
  unfold Chunk.add
  split_ifs <;> rfl

theorem add_text (chunk : Chunk) (point : Nat) : (chunk.add point).text = chunk.text ++ [point] := by
  unfold Chunk.add
  split_ifs
  · rfl
  · exact List.append_nil _

theorem add_high (chunk : Chunk) (point : Nat) :
    (chunk.add point).high = if is_high point = true then some point else none := by
  unfold Chunk.add
  split_ifs <;> rfl

theorem not_high {point : Nat} (outside : point < 55296 ∨ 56320 ≤ point) : is_high point = false := by
  simp only [is_high,Bool.and_eq_false_iff,decide_eq_false_iff_not]
  omega

section
variable {limits : Limits} {fields : Option (List (Text × Json))} {stack : List Frame} {points : Text} {high : Option Nat}

theorem step_chunk {chunk next : Chunk} {point : Nat} (inside : chunk.stage ≠ .plain ∨ point ≠ 34)
    (advanced : chunk.read point = .ok next) :
    step limits ⟨.str fields chunk, stack⟩ point = .ok ⟨.str fields next, stack⟩ := by
  have continued : (do return (⟨.str fields (← chunk.read point), stack⟩ : Reader) : Except PyError Reader) =
      .ok ⟨.str fields next, stack⟩ := by
    rw [advanced]
    rfl
  obtain ⟨points,high,stage⟩ := chunk
  cases stage with
  | plain =>
    have other : decide (point = 34) = false := decide_eq_false (inside.resolve_left (fun left => left rfl))
    simp only [step,other]
    exact continued
  | escape => exact continued
  | unicode code count => exact continued

theorem step_digit {code count digit : Nat} (small : digit < 16) (more : count ≠ 3) :
    step limits ⟨.str fields ⟨points, high, .unicode code count⟩, stack⟩ (hex_digit digit) =
      .ok ⟨.str fields ⟨points, high, .unicode (code * 16 + digit) (count + 1)⟩, stack⟩ := by
  refine step_chunk (.inl Stage.noConfusion) ?_
  simp only [Chunk.read,hex_value_digit small,if_neg more]

theorem step_last {code digit : Nat} (small : digit < 16) :
    step limits ⟨.str fields ⟨points, high, .unicode code 3⟩, stack⟩ (hex_digit digit) =
      .ok ⟨.str fields (Chunk.unit ⟨points, high, .unicode code 3⟩ (code * 16 + digit)), stack⟩ := by
  refine step_chunk (.inl Stage.noConfusion) ?_
  simp only [Chunk.read,hex_value_digit small,if_true]

/-- A `\u` escape is read as its code. -/
theorem read_unicode {code : Nat} (small : code < 65536) (rest : Text) :
    read limits ⟨.str fields ⟨points, high, .plain⟩, stack⟩ (unicode_escape code ++ rest) =
      read limits ⟨.str fields (Chunk.unit ⟨points, high, .plain⟩ code), stack⟩ rest := by
  have digit : ∀ n, n % 16 < 16 := fun n => Nat.mod_lt n (by decide)
  have whole : (((0 * 16 + code / 4096 % 16) * 16 + code / 256 % 16) * 16 + code / 16 % 16) * 16 + code % 16 = code := by
    omega
  simp only [unicode_escape,List.cons_append,List.nil_append]
  rw [read_step (step_chunk (.inr (by decide)) rfl),read_step (step_chunk (.inl Stage.noConfusion) rfl),
    read_step (step_digit (digit _) (by decide)),read_step (step_digit (digit _) (by decide)),
    read_step (step_digit (digit _) (by decide)),read_step (step_last (digit _)),whole]
  cases high <;> rfl

theorem unit_add {code : Nat} (apart : ∀ other ∈ high, is_low code = false) :
    Chunk.unit ⟨points, high, .plain⟩ code = Chunk.add ⟨points, high, .plain⟩ code := by
  cases high with
  | none =>
    have same : Chunk.text ⟨points, none, .plain⟩ = points := List.append_nil _
    simp only [Chunk.unit,Chunk.add,same]
  | some other =>
    simp only [Chunk.unit,Chunk.add,apart other rfl,Bool.false_eq_true,if_false]

/-- What the writer makes of a code point is read as this code point. -/
theorem read_escape {point : Nat} (small : point < 1114112) (apart : ∀ other ∈ high, is_low point = false) (rest : Text) :
    read limits ⟨.str fields ⟨points, high, .plain⟩, stack⟩ (escape point ++ rest) =
      read limits ⟨.str fields (Chunk.add ⟨points, high, .plain⟩ point), stack⟩ rest := by
  rcases escape_cases point with ⟨letter,same,meaning,other,_,below⟩ | ⟨same,quotation,backslash,least,below⟩ |
    ⟨same,basic⟩ | ⟨same,astral⟩ <;> rw [same]
  · have plain : Chunk.add ⟨points, high, .plain⟩ point = ⟨Chunk.text ⟨points, high, .plain⟩ ++ [point], none, .plain⟩ := by
      rw [Chunk.add,not_high (by omega)]
      rfl
    have escaped : Chunk.read ⟨points, high, .escape⟩ letter = .ok (Chunk.add ⟨points, high, .plain⟩ point) := by
      simp only [Chunk.read,if_neg other,meaning,plain]
      rfl
    simp only [List.cons_append,List.nil_append]
    rw [read_step (step_chunk (.inr (by decide)) rfl),read_step (step_chunk (.inl Stage.noConfusion) escaped)]
  · have plain : Chunk.read ⟨points, high, .plain⟩ point = .ok (Chunk.add ⟨points, high, .plain⟩ point) := by
      simp only [Chunk.read,if_neg backslash,if_neg (Nat.not_lt.mpr least)]
      rw [Chunk.add,not_high (by omega)]
      rfl
    exact read_step (step_chunk (.inr quotation) plain) rest
  · rw [read_unicode basic,unit_add apart]
  · have first : is_high (55296 + (point - 65536) / 1024 % 1024) = true := by
      simp only [is_high,Bool.and_eq_true,decide_eq_true_eq]
      omega
    have first_low : is_low (55296 + (point - 65536) / 1024 % 1024) = false := by
      simp only [is_low,Bool.and_eq_false_iff,decide_eq_false_iff_not]
      omega
    have second : is_low (56320 + (point - 65536) % 1024) = true := by
      simp only [is_low,Bool.and_eq_true,decide_eq_true_eq]
      omega
    have joined : join_surrogates (55296 + (point - 65536) / 1024 % 1024) (56320 + (point - 65536) % 1024) = point := by
      unfold join_surrogates
      omega
    rw [List.append_assoc,read_unicode (by omega),unit_add (fun _ _ => first_low),Chunk.add,if_pos first,
      read_unicode (by omega),Chunk.add,not_high (by omega)]
    simp only [Chunk.unit,second,if_true,joined]
    rfl

/-- A text that is read back: no high surrogate is right before a low one. -/
structure Readable (value : Text) : Prop where
  points : ∀ point ∈ value, point < 1114112
  apart : value.IsChain (fun a b => ¬(is_high a = true ∧ is_low b = true))

theorem read_points (value : Text) (chunk : Chunk) (plain : chunk.stage = .plain)
    (held : ∀ high ∈ chunk.high, is_high high = true) (readable : Readable (chunk.high.toList ++ value)) (rest : Text) :
    read limits ⟨.str fields chunk, stack⟩ (value.flatMap escape ++ 34 :: rest) =
      read limits (close_string fields (chunk.text ++ value) stack) rest := by
  induction value generalizing chunk with
  | nil =>
    obtain ⟨points,high,stage⟩ := chunk
    cases plain
    rw [List.append_nil]
    exact read_step rfl rest
  | cons point value ih =>
    obtain ⟨points,high,stage⟩ := chunk
    cases plain
    have small : point < 1114112 := readable.points point (by simp)
    have apart : ∀ other ∈ high, is_low point = false := by
      rintro other member
      cases member
      have first := (List.isChain_cons_cons.mp readable.apart).1
      exact Bool.eq_false_iff.mpr (fun low => first ⟨held other rfl,low⟩)
    have left : Readable (point :: value) :=
      ⟨fun other member => readable.points other (List.mem_append_right _ member),readable.apart.right_of_append⟩
    have next : (∀ other ∈ (Chunk.add ⟨points, high, .plain⟩ point).high, is_high other = true) ∧
        Readable ((Chunk.add ⟨points, high, .plain⟩ point).high.toList ++ value) := by
      rw [add_high]
      split_ifs with here
      · exact ⟨fun other member => Option.mem_some.mp member ▸ here,left⟩
      · exact ⟨fun other member => absurd member (by simp),
          fun other member => left.points other (List.mem_cons_of_mem _ member),left.apart.tail⟩
    rw [List.flatMap_cons,List.append_assoc,read_escape small apart,ih _ (add_plain _ _) next.1 next.2,add_text,
      List.append_assoc]
    rfl

theorem read_quoted {value : Text} (readable : Readable value) (rest : Text) :
    read limits ⟨.str fields empty_chunk, stack⟩ (value.flatMap escape ++ 34 :: rest) =
      read limits (close_string fields value stack) rest :=
  read_points value empty_chunk rfl (fun _ member => absurd member (by simp [empty_chunk])) readable rest

end

/-! ### Numbers and words are read back -/

section
variable {limits : Limits} {stack : List Frame} {value : Json}

/-- What follows a value does not continue a number. -/
def Stops (rest : Text) : Prop := ∀ point ∈ rest.head?, is_number point = false

theorem read_word (word rest : Text) :
    read limits ⟨.word word value, stack⟩ (word ++ rest) = read limits ⟨.after value, stack⟩ rest := by
  induction word with
  | nil => cases rest <;> rfl
  | cons point word ih =>
    have stepped : step limits ⟨.word (point :: word) value, stack⟩ point = .ok ⟨.word word value, stack⟩ := if_pos rfl
    rw [List.cons_append,read_step stepped,ih]

theorem read_run (run more rest : Text) (characters : ∀ point ∈ more, is_number point = true) :
    read limits ⟨.number run, stack⟩ (more ++ rest) = read limits ⟨.number (run ++ more), stack⟩ rest := by
  induction more generalizing run with
  | nil => rw [List.append_nil,List.nil_append]
  | cons point more ih =>
    have here : is_number point = true := characters point List.mem_cons_self
    have stepped : step limits ⟨.number run, stack⟩ point = .ok ⟨.number (run ++ [point]), stack⟩ := if_pos here
    rw [List.cons_append,read_step stepped,ih _ (fun other member => characters other (List.mem_cons_of_mem _ member)),
      List.append_assoc,List.singleton_append]

theorem read_after {run rest : Text} (number : read_number limits run = .ok value) (digits : run ≠ [45])
    (stops : Stops rest) : read limits ⟨.number run, stack⟩ rest = read limits ⟨.after value, stack⟩ rest := by
  cases rest with
  | nil =>
    show finish limits ⟨.number run, stack⟩ = finish limits ⟨.after value, stack⟩
    simp only [finish,number,ok_bind]
  | cons point rest =>
    have other : is_number point = false := stops point rfl
    have stepped : step limits ⟨.number run, stack⟩ point = step limits ⟨.after value, stack⟩ point := by
      simp only [step,other,digits,number,ok_bind,Bool.false_eq_true,false_and,if_false]
    rw [read,stepped,read]

theorem numeral_value (n : Nat) : digits_value (numeral n) = n := by
  have same : (fun value (digit : Char) => value * 10 + (digit.toNat - 48)) =
      fun value (digit : Char) => 10 * value + (digit.toNat - '0'.toNat) := by
    funext value digit
    rw [Nat.mul_comm]
    rfl
  rw [digits_value,List.foldl_map,same,← Nat.ofDigitChars_eq_foldl,Nat.ofDigitChars_ten_toDigits]

/-- Only `0` begins with a zero. -/
theorem numeral_zero {n : Nat} {rest : Text} (zero : numeral n = 48 :: rest) : rest = [] := by
  induction n using Nat.strong_induction_on generalizing rest with
  | _ n ih =>
    by_cases small : n < 10
    · rw [numeral,Nat.toDigits_of_lt_base small] at zero
      exact (List.cons.inj zero).2.symm
    · have split : numeral n = numeral (n / 10) ++ [(n % 10).digitChar.toNat] := by
        rw [numeral,Nat.toDigits_of_base_le (by decide) (Nat.le_of_not_lt small),List.map_append]
        rfl
      rw [split] at zero
      cases before : numeral (n / 10) with
      | nil => exact absurd (List.map_eq_nil_iff.mp before) Nat.toDigits_ne_nil
      | cons point more =>
        rw [before,List.cons_append] at zero
        obtain ⟨rfl,_⟩ := List.cons.inj zero
        have single := ih (n / 10) (by omega) before
        rw [single] at before
        have value := numeral_value (n / 10)
        rw [before] at value
        have none_left : 0 = n / 10 := value
        omega

theorem match_numeral (n : Nat) : match_natural (numeral n) = some (numeral n, []) := by
  cases digits : numeral n with
  | nil => exact absurd (List.map_eq_nil_iff.mp digits) Nat.toDigits_ne_nil
  | cons point rest =>
    have digit : ∀ other ∈ point :: rest, is_digit other = true := fun other member => numeral_digit (digits ▸ member)
    by_cases zero : point = 48
    · have single : rest = [] := numeral_zero (n := n) (by rw [digits,zero])
      rw [match_natural,if_pos zero,single]
    · have more : ∀ other ∈ rest, is_digit other = true := fun other member => digit other (List.mem_cons_of_mem _ member)
      rw [match_natural,if_neg zero,if_pos (digit point List.mem_cons_self),List.takeWhile_eq_self_iff.mpr more,
        List.dropWhile_eq_nil_iff.mpr more]

theorem match_decimal (number : Int) : match_integer (decimal number) = some (decimal number, []) := by
  unfold decimal
  split_ifs with negative
  · show Option.map _ (match_natural (numeral number.natAbs)) = _
    rw [match_numeral]
    rfl
  · show match_integer (numeral number.natAbs) = _
    cases digits : numeral number.natAbs with
    | nil => exact absurd (List.map_eq_nil_iff.mp digits) Nat.toDigits_ne_nil
    | cons point rest =>
      have first : is_digit point = true := numeral_digit (digits ▸ List.mem_cons_self)
      have unsigned : point ≠ 45 := by
        rintro rfl
        cases first
      rw [match_integer,if_neg unsigned,← digits,match_numeral]
      rfl

theorem read_decimal {number : Int} (few : (numeral number.natAbs).length ≤ limits.digits) :
    read_number limits (decimal number) = .ok (.int number) := by
  have all : (numeral number.natAbs).filter is_digit = numeral number.natAbs :=
    List.filter_eq_self.mpr (fun _ member => numeral_digit member)
  have unsigned : 45 ∉ numeral number.natAbs := fun member => absurd (numeral_digit member) (by decide)
  have whole : read_int limits (decimal number) = .ok (.int number) := by
    by_cases negative : number < 0
    · have literal : decimal number = 45 :: numeral number.natAbs := by
        rw [decimal,if_pos negative]
        rfl
      have digits : (45 :: numeral number.natAbs).filter is_digit = numeral number.natAbs := by
        rw [List.filter_cons_of_neg (by decide),all]
      have back : -(number.natAbs : Int) = number := by omega
      simp only [read_int,literal,digits,if_neg (Nat.not_lt.mpr few),List.mem_cons_self,if_true,numeral_value,back]
    · have literal : decimal number = numeral number.natAbs := by
        rw [decimal,if_neg negative]
        rfl
      have back : (number.natAbs : Int) = number := by omega
      simp only [read_int,literal,all,if_neg (Nat.not_lt.mpr few),if_neg unsigned,numeral_value,back]
  rw [read_number,match_decimal]
  show (do let number ← read_int limits (decimal number); _) = _
  rw [whole]
  rfl

end

/-! ### Values are read back -/

/-- A literal that the reader takes for a float. -/
def Spelled (limits : Limits) (literal : Text) : Prop :=
  literal = text "NaN" ∨ literal = text "Infinity" ∨ literal = text "-Infinity" ∨
    ∃ point more, literal = point :: more ∧ (point = 45 ∨ is_digit point = true) ∧
      (∀ other ∈ more, is_number other = true) ∧ read_number limits literal = .ok (.float literal)

/-- A value that the reader can give, `depth` arrays and objects deep, with floats of some kind. -/
inductive Writable (limits : Limits) (kept : Text → Prop) : Nat → Json → Prop
  | null depth : Writable limits kept depth .null
  | bool depth value : Writable limits kept depth (.bool value)
  | int depth value (few : (numeral value.natAbs).length ≤ limits.digits) : Writable limits kept depth (.int value)
  | float depth literal (spelled : Spelled limits literal) (same : kept literal) : Writable limits kept depth (.float literal)
  | str depth value (readable : Readable value) : Writable limits kept depth (.str value)
  | arr depth items (fits : depth < limits.depth) (each : ∀ item ∈ items, Writable limits kept (depth + 1) item) :
    Writable limits kept depth (.arr items)
  | obj depth fields (fits : depth < limits.depth) (distinct : (fields.map Prod.fst).Nodup)
    (keys : ∀ field ∈ fields, Readable field.1) (each : ∀ field ∈ fields, Writable limits kept (depth + 1) field.2) :
    Writable limits kept depth (.obj fields)

/-- A float that is written as it was read. -/
def Floats.Keeps (floats : Floats) (literal : Text) : Prop := floats.repr literal = literal

theorem setItem_new {key : Text} (value : Json) {fields : List (Text × Json)} (fresh : key ∉ fields.map Prod.fst) :
    setItem key value fields = fields ++ [(key, value)] := by
  induction fields with
  | nil => rfl
  | cons field fields ih =>
    have other : field.1 ≠ key := fun same => fresh (List.mem_map.mpr ⟨field,List.mem_cons_self,same⟩)
    rw [setItem,if_neg other,ih (fun member => fresh (List.mem_cons_of_mem _ member)),List.cons_append]

theorem stops_cons {point : Nat} (other : is_number point = false) (rest : Text) : Stops (point :: rest) := by
  intro first member
  cases member
  exact other

section
variable {limits : Limits} (floats : Floats)

/-- Reading what the writer makes of a value, with so many arrays and objects open, gives the value. -/
def Reads (limits : Limits) (depth : Nat) (value : Json) : Prop :=
  ∀ (stack : List Frame) (rest : Text), stack.length = depth → Stops rest →
    read limits ⟨.value, stack⟩ (dumps floats value ++ rest) = read limits ⟨.after value, stack⟩ rest

theorem begin_number {point : Nat} (first : point = 45 ∨ is_digit point = true) (stack : List Frame) :
    step limits ⟨.value, stack⟩ point = .ok ⟨.number [point], stack⟩ := by
  rcases first with rfl | digit
  · rfl
  · obtain ⟨least,most⟩ := (is_digit_iff point).mp digit
    interval_cases point <;> rfl

theorem decimal_points (number : Int) :
    ∃ point more, decimal number = point :: more ∧ (point = 45 ∨ is_digit point = true) ∧
      ∀ other ∈ more, is_number other = true := by
  have digits : ∀ other ∈ numeral number.natAbs, is_number other = true := by
    intro other member
    simp [is_number,numeral_digit member]
  unfold decimal
  split_ifs
  · exact ⟨45,_,rfl,.inl rfl,digits⟩
  · cases whole : numeral number.natAbs with
    | nil => exact absurd (List.map_eq_nil_iff.mp whole) Nat.toDigits_ne_nil
    | cons point more =>
      rw [whole] at digits
      exact ⟨point,more,whole,.inr (numeral_digit (whole ▸ List.mem_cons_self)),
        fun other member => digits other (List.mem_cons_of_mem _ member)⟩

theorem reads_int {number : Int} (few : (numeral number.natAbs).length ≤ limits.digits) (depth : Nat) :
    Reads floats limits depth (.int number) := by
  intro stack rest _ stops
  obtain ⟨point,more,whole,first,characters⟩ := decimal_points number
  have value := read_decimal few
  have digits : decimal number ≠ [45] := by
    intro sign
    have found := match_decimal number
    rw [sign] at found
    cases found
  rw [dumps,whole,List.cons_append,read_step (begin_number first stack),read_run _ _ _ characters,
    List.singleton_append,← whole]
  exact read_after value digits stops

theorem reads_float {literal : Text} (spelled : Spelled limits literal) (same : floats.Keeps literal) (depth : Nat) :
    Reads floats limits depth (.float literal) := by
  intro stack rest _ stops
  rw [dumps,same]
  rcases spelled with rfl | rfl | rfl | ⟨point,more,rfl,first,characters,value⟩
  · exact (read_step rfl _).trans (read_word (text "aN") rest)
  · exact (read_step rfl _).trans (read_word (text "nfinity") rest)
  · have sign : step limits ⟨.value, stack⟩ 45 = .ok ⟨.number [45], stack⟩ := rfl
    have word : step limits ⟨.number [45], stack⟩ 73 = .ok ⟨.word (text "nfinity") (.float (text "-Infinity")), stack⟩ := rfl
    exact (read_step sign _).trans ((read_step word _).trans (read_word (text "nfinity") rest))
  · have digits : point :: more ≠ [45] := by
      intro sign
      rw [sign] at value
      cases value
    rw [List.cons_append,read_step (begin_number first stack),read_run _ _ _ characters,List.singleton_append]
    exact read_after value digits stops

/-- The items from one on, with those before in the frame. -/
theorem read_items {depth : Nat} {stack : List Frame} (deep : stack.length = depth) (tail : Text) (rest : List Json)
    (item : Json) (before : List Json) (each : ∀ other ∈ item :: rest, Reads floats limits (depth + 1) other) :
    read limits ⟨.value, .arr before :: stack⟩ (dumps floats item ++ (dumps_items floats [44, 32] rest ++ 93 :: tail)) =
      read limits ⟨.after (.arr (before ++ item :: rest)), stack⟩ tail := by
  have inner : ∀ items, (Frame.arr items :: stack).length = depth + 1 := fun _ => congrArg (· + 1) deep
  induction rest generalizing item before with
  | nil =>
    rw [dumps_items,List.nil_append,each item List.mem_cons_self _ _ (inner before) (stops_cons rfl tail)]
    exact read_step rfl tail
  | cons next rest ih =>
    have comma : step limits ⟨.after item, .arr before :: stack⟩ 44 =
        .ok ⟨.value, .arr (before ++ [item]) :: stack⟩ := rfl
    have space : step limits ⟨.value, .arr (before ++ [item]) :: stack⟩ 32 =
        .ok ⟨.value, .arr (before ++ [item]) :: stack⟩ := rfl
    simp only [dumps_items,List.append_assoc,List.cons_append,List.nil_append]
    rw [each item List.mem_cons_self _ _ (inner before) (stops_cons rfl _),read_step comma,read_step space,
      ih next (before ++ [item]) (fun other member => each other (List.mem_cons_of_mem _ member)),
      List.append_assoc,List.singleton_append]

/-- A field after the quote that begins its key. -/
theorem read_field {depth : Nat} {stack : List Frame} (deep : stack.length = depth) {before : List (Text × Json)}
    {key : Text} {value : Json} (readable : Readable key) (reads : Reads floats limits (depth + 1) value) {rest : Text}
    (stops : Stops rest) :
    read limits ⟨.str (some before) empty_chunk, stack⟩
        (key.flatMap escape ++ 34 :: 58 :: 32 :: (dumps floats value ++ rest)) =
      read limits ⟨.after value, .obj before key :: stack⟩ rest := by
  have inner : (Frame.obj before key :: stack).length = depth + 1 := congrArg (· + 1) deep
  have colon : step limits ⟨.colon before key, stack⟩ 58 = .ok ⟨.value, .obj before key :: stack⟩ := rfl
  have space : step limits ⟨.value, .obj before key :: stack⟩ 32 = .ok ⟨.value, .obj before key :: stack⟩ := rfl
  rw [read_quoted readable,close_string,read_step colon,read_step space,reads _ _ inner stops]

theorem fresh_key {before rest : List (Text × Json)} {field : Text × Json}
    (distinct : ((before ++ field :: rest).map Prod.fst).Nodup) : field.1 ∉ before.map Prod.fst := by
  rw [List.map_append,List.map_cons,List.nodup_middle,List.nodup_cons] at distinct
  exact fun member => distinct.1 (List.mem_append_left _ member)

/-- The fields from one on, with those before as they are. -/
theorem read_fields {depth : Nat} {stack : List Frame} (deep : stack.length = depth) (tail : Text)
    (rest : List (Text × Json)) (field : Text × Json) (before : List (Text × Json))
    (distinct : ((before ++ field :: rest).map Prod.fst).Nodup) (keys : ∀ other ∈ field :: rest, Readable other.1)
    (each : ∀ other ∈ field :: rest, Reads floats limits (depth + 1) other.2) :
    read limits ⟨.str (some before) empty_chunk, stack⟩
        (field.1.flatMap escape ++ 34 :: 58 :: 32 :: (dumps floats field.2 ++ (dumps_fields floats [44, 32] rest ++ 125 :: tail))) =
      read limits ⟨.after (.obj (before ++ field :: rest)), stack⟩ tail := by
  have fresh : field.1 ∉ before.map Prod.fst := fresh_key distinct
  have readable := keys field List.mem_cons_self
  have reads := each field List.mem_cons_self
  induction rest generalizing field before with
  | nil =>
    have closed : step limits ⟨.after field.2, .obj before field.1 :: stack⟩ 125 =
        .ok ⟨.after (.obj (setItem field.1 field.2 before)), stack⟩ := rfl
    rw [dumps_fields,List.nil_append,read_field floats deep readable reads (stops_cons rfl tail),read_step closed,
      setItem_new field.2 fresh]
  | cons next rest ih =>
    have comma : step limits ⟨.after field.2, .obj before field.1 :: stack⟩ 44 =
        .ok ⟨.key (setItem field.1 field.2 before), stack⟩ := rfl
    have space : step limits ⟨.key (before ++ [field]), stack⟩ 32 = .ok ⟨.key (before ++ [field]), stack⟩ := rfl
    have quotation : step limits ⟨.key (before ++ [field]), stack⟩ 34 =
        .ok ⟨.str (some (before ++ [field])) empty_chunk, stack⟩ := rfl
    have moved : before ++ field :: next :: rest = (before ++ [field]) ++ next :: rest := by
      rw [List.append_assoc,List.singleton_append]
    rw [moved] at distinct
    have keys' : ∀ other ∈ next :: rest, Readable other.1 := fun other member => keys other (List.mem_cons_of_mem _ member)
    have each' : ∀ other ∈ next :: rest, Reads floats limits (depth + 1) other.2 :=
      fun other member => each other (List.mem_cons_of_mem _ member)
    simp only [dumps_fields,quote,List.append_assoc,List.cons_append,List.nil_append]
    rw [read_field floats deep readable reads (stops_cons rfl _),read_step comma,setItem_new field.2 fresh,read_step space,
      read_step quotation,moved]
    exact ih next (before ++ [field]) distinct keys' each' (fresh_key distinct) (keys' next List.mem_cons_self)
      (each' next List.mem_cons_self)

theorem first_number {point : Nat} (first : point = 45 ∨ is_digit point = true) :
    is_space point = false ∧ point ≠ 93 := by
  rcases first with rfl | digit
  · decide
  · obtain ⟨least,most⟩ := (is_digit_iff point).mp digit
    refine ⟨?_,by omega⟩
    simp only [is_space,Bool.or_eq_false_iff,decide_eq_false_iff_not]
    omega

/-- What a value begins with is no blank, and is not the end of an array. -/
theorem dumps_begins {depth : Nat} {value : Json} (writable : Writable limits floats.Keeps depth value) :
    ∃ point more, dumps floats value = point :: more ∧ is_space point = false ∧ point ≠ 93 := by
  cases writable with
  | null depth => exact ⟨_,_,rfl,by decide,by decide⟩
  | bool depth value => cases value <;> exact ⟨_,_,rfl,by decide,by decide⟩
  | int depth value few =>
    obtain ⟨point,more,whole,first,_⟩ := decimal_points value
    exact ⟨point,more,by rw [dumps,whole],first_number first⟩
  | float depth literal spelled same =>
    rw [dumps,same]
    rcases spelled with rfl | rfl | rfl | ⟨point,more,rfl,first,_⟩
    · exact ⟨_,_,rfl,by decide,by decide⟩
    · exact ⟨_,_,rfl,by decide,by decide⟩
    · exact ⟨_,_,rfl,by decide,by decide⟩
    · exact ⟨point,more,rfl,first_number first⟩
  | str depth value readable => exact ⟨34,_,rfl,by decide,by decide⟩
  | arr depth items fits each => exact ⟨91,_,rfl,by decide,by decide⟩
  | obj depth fields fits distinct keys each => exact ⟨123,_,rfl,by decide,by decide⟩

/-- The reader gives back what was written, whatever follows. -/
theorem reads_writable {depth : Nat} {value : Json} (writable : Writable limits floats.Keeps depth value) :
    Reads floats limits depth value := by
  induction writable with
  | null depth => exact fun stack rest _ _ => (read_step rfl _).trans (read_word (text "ull") rest)
  | bool depth value =>
    intro stack rest _ _
    cases value
    · exact (read_step rfl _).trans (read_word (text "alse") rest)
    · exact (read_step rfl _).trans (read_word (text "rue") rest)
  | int depth value few => exact reads_int floats few depth
  | float depth literal spelled same => exact reads_float floats spelled same depth
  | str depth value readable =>
    intro stack rest _ _
    rw [dumps,quote,List.cons_append,List.append_assoc]
    have closed : close_string none value stack = ⟨.after (.str value), stack⟩ := rfl
    exact (read_step rfl _).trans (closed ▸ read_quoted readable rest)
  | arr depth items fits each ih =>
    intro stack rest deep _
    have opened : step limits ⟨.value, stack⟩ 91 = .ok ⟨.item, stack⟩ := by
      show (if stack.length < limits.depth then _ else _) = _
      rw [deep,if_pos fits]
    rw [dumps,List.cons_append,read_step opened]
    cases items with
    | nil => exact read_step rfl rest
    | cons item items =>
      obtain ⟨point,more,whole,blank,other⟩ := dumps_begins floats (each item List.mem_cons_self)
      have entered : step limits ⟨.item, stack⟩ point = step limits ⟨.value, .arr [] :: stack⟩ point := by
        simp only [step,blank,other,Bool.false_eq_true,if_false]
      have moved : ∀ text, read limits ⟨.item, stack⟩ (dumps floats item ++ text) =
          read limits ⟨.value, .arr [] :: stack⟩ (dumps floats item ++ text) := by
        intro text
        rw [whole,List.cons_append,read,read,entered]
      simp only [dumps_items,List.append_assoc,List.nil_append,List.cons_append]
      rw [moved]
      exact read_items floats deep rest items item [] ih
  | obj depth fields fits distinct keys each ih =>
    intro stack rest deep _
    have opened : step limits ⟨.value, stack⟩ 123 = .ok ⟨.first_key, stack⟩ := by
      show (if stack.length < limits.depth then _ else _) = _
      rw [deep,if_pos fits]
    rw [dumps,List.cons_append,read_step opened]
    cases fields with
    | nil => exact read_step rfl rest
    | cons field fields =>
      simp only [dumps_fields,quote,List.append_assoc,List.nil_append,List.cons_append]
      exact (read_step rfl _).trans (read_fields floats deep rest fields field [] distinct keys ih)

theorem dumps_head {depth : Nat} {value : Json} (writable : Writable limits floats.Keeps depth value) :
    (dumps floats value).head? ≠ some 65279 := by
  obtain ⟨point,more,whole,_,_⟩ := dumps_begins floats writable
  have printable := dumps_printable floats value
  rw [whole] at printable ⊢
  intro mark
  cases mark
  exact absurd (printable 65279 List.mem_cons_self).2 (by decide)

/-- `json.loads` reads back what `json.dumps` made of a value. -/
theorem loads_dumps {value : Json} (writable : Writable limits floats.Keeps 0 value) :
    loads_text limits (dumps floats value) = .ok value := by
  have back := reads_writable floats writable [] [] rfl (fun _ member => absurd member (by simp))
  rw [List.append_nil] at back
  rw [loads_text,if_neg (dumps_head floats writable),back]
  rfl

end

/-! ### Bytes are read back -/

theorem utf8_ascii_map {value : Text} (ascii : ∀ point ∈ value, point < 128) : value.utf8 = .ok (value.map UInt8.ofNat) := by
  have scalar : ∀ point ∈ value, point.isValidChar := by
    intro point member
    have small := ascii point member
    exact .inl (by omega)
  have valid : value.all (fun point => decide point.isValidChar) = true :=
    List.all_eq_true.mpr (fun point member => decide_eq_true (scalar point member))
  have each : ∀ point ∈ value, String.utf8EncodeChar (Char.ofNat point) = [UInt8.ofNat point] := by
    intro point member
    have code : (Char.ofNat point).val.toNat = point := by
      simp only [Char.ofNat,scalar point member,↓reduceDIte]
      rfl
    have small := ascii point member
    rw [String.utf8EncodeChar,code]
    exact if_pos (by omega)
  have bytes : (value.map Char.ofNat).flatMap String.utf8EncodeChar = value.map UInt8.ofNat := by
    rw [List.flatMap_map,List.map_eq_flatMap]
    exact List.flatMap_congr each
  rw [Text.utf8,Text.encode,if_pos valid]
  show Except.ok (String.ofList (value.map Char.ofNat)).toByteArray.toList = _
  rw [toList_data,String.toByteArray_ofList,List.utf8Encode,List.toList_data_toByteArray,bytes]

/-- Printable ASCII is taken for UTF-8. -/
theorem detect_printable {value : Text} (printable : Printable value) :
    detect_encoding (value.map UInt8.ofNat) = .utf_8 := by
  have inside : ∀ byte ∈ value.map UInt8.ofNat, byte ≠ 0 ∧ byte ≠ 254 ∧ byte ≠ 255 ∧ byte ≠ 239 := by
    intro byte member
    obtain ⟨point,there,rfl⟩ := List.mem_map.mp member
    obtain ⟨least,most⟩ := printable point there
    interval_cases point <;> decide
  generalize value.map UInt8.ofNat = bytes at inside
  have plain : ∀ (first : UInt8) (more : Bytes), first = 0 ∨ first = 254 ∨ first = 255 ∨ first = 239 →
      (first :: more).isPrefixOf bytes = false := by
    intro first more mark
    cases bytes with
    | nil => rfl
    | cons byte rest =>
      obtain ⟨zero,be,le,sig⟩ := inside byte List.mem_cons_self
      have other : (first == byte) = false := by
        rcases mark with rfl | rfl | rfl | rfl
        · exact beq_eq_false_iff_ne.mpr zero.symm
        · exact beq_eq_false_iff_ne.mpr be.symm
        · exact beq_eq_false_iff_ne.mpr le.symm
        · exact beq_eq_false_iff_ne.mpr sig.symm
      rw [List.isPrefixOf_cons_cons,other,Bool.false_and]
  simp only [detect_encoding,plain _ _ (.inl rfl),plain _ _ (.inr (.inl rfl)),plain _ _ (.inr (.inr (.inl rfl))),
    plain _ _ (.inr (.inr (.inr rfl))),Bool.or_self,Bool.false_eq_true,if_false]
  split
  · next a b => rw [if_neg (inside a (by simp)).1,if_neg (inside b (by simp)).1]
  · next a b c d rest => rw [if_neg (inside a (by simp)).1,if_neg (inside b (by simp)).1]
  · rfl

section
variable (limits : Limits) (floats : Floats) (codec : Codec)

/-- Python's `json`, with what is left open: the limits, how floats are written and the other encodings. -/
def python_json : JsonModule where
  loads := loads limits codec
  dumps := dumps floats
  ascii value point member := ((dumps_printable floats value point member).2.trans (by decide))

variable {limits} in
theorem python_json_faithful {value : Json} (writable : Writable limits floats.Keeps 0 value) :
    Faithful (python_json limits floats codec) value := by
  refine ⟨fun bytes encoded => ?_,loads_dumps floats writable⟩
  have printable := dumps_printable floats value
  have ascii : ∀ point ∈ dumps floats value, point < 128 :=
    fun point member => (printable point member).2.trans (by decide)
  have same : bytes = (dumps floats value).map UInt8.ofNat := by
    have mapped := utf8_ascii_map ascii
    exact Except.ok.inj (encoded.symm.trans mapped)
  have decoded : codec.decode (detect_encoding bytes) bytes = .ok (dumps floats value) := by
    rw [same,detect_printable printable,← same]
    exact codec.utf_8 bytes _ (decode_utf8 encoded)
  show (do loads_text limits (← codec.decode (detect_encoding bytes) bytes)) = _
  rw [decoded]
  exact loads_dumps floats writable

end

end AcapyRedis.JsonText
