import AcapyRedis.JsonRoundTrip

/-!
What `json.loads` makes of text without surrogates is well formed: object keys are distinct, no
string holds a high surrogate right before a low one, and numbers and nesting keep to the limits
(`loads_given`). So it can be written (`given_writable`) and is read back. Every step of the
reader keeps its state sound (`step_sound`).
-/
namespace AcapyRedis.JsonText
open AcapyRedis.Python AcapyRedis.Records

/-! ### Strings -/

/-- A code point of decoded text: no surrogate. -/
def Scalar (point : Nat) : Prop := point < 1114112 ∧ is_high point = false ∧ is_low point = false

theorem valid_scalar {point : Nat} (valid : point.isValidChar) : Scalar point := by
  rcases valid with small | ⟨large,limit⟩
  · refine ⟨by omega,not_high (.inl small),?_⟩
    simp only [is_low,Bool.and_eq_false_iff,decide_eq_false_iff_not]
    omega
  · refine ⟨limit,not_high (.inr (by omega)),?_⟩
    simp only [is_low,Bool.and_eq_false_iff,decide_eq_false_iff_not]
    omega

theorem small_scalar {point : Nat} (small : point < 128) : Scalar point := valid_scalar (.inl (by omega))

theorem readable_nil : Readable [] := ⟨fun _ member => absurd member List.not_mem_nil,.nil⟩

theorem readable_left {a b : Text} (readable : Readable (a ++ b)) : Readable a :=
  ⟨fun point member => readable.points point (List.mem_append_left _ member),readable.apart.left_of_append⟩

/-- A low surrogate may not follow a high one. -/
theorem readable_snoc {value : Text} {point : Nat} (readable : Readable value) (small : point < 1114112)
    (follows : is_low point = true → ∀ last ∈ value.getLast?, is_high last = false) : Readable (value ++ [point]) := by
  constructor
  · intro other member
    rcases List.mem_append.mp member with before | here
    · exact readable.points other before
    · exact List.mem_singleton.mp here ▸ small
  · refine List.isChain_append.mpr ⟨readable.apart,.singleton _,?_⟩
    rintro last before first here ⟨high,low⟩
    cases here
    rw [follows low last before] at high
    cases high

/-- The part of a string that has been read. A high surrogate that a low one could complete is
    kept apart. -/
structure Chunk.Sound (chunk : Chunk) : Prop where
  readable : Readable chunk.text
  high : ∀ high ∈ chunk.high, is_high high = true
  closed : chunk.high = none → ∀ last ∈ chunk.points.getLast?, is_high last = false
  digits : ∀ code count, chunk.stage = .unicode code count → count ≤ 3 ∧ code < 16 ^ count

theorem hex_value_small {point digit : Nat} (value : hex_value point = some digit) : digit < 16 := by
  unfold hex_value at value
  split_ifs at value <;> cases value <;> omega

theorem unescape_small {point value : Nat} (meaning : unescape point = some value) : value < 128 := by
  unfold unescape at meaning
  split_ifs at meaning <;> cases meaning <;> omega

section
variable {chunk : Chunk} (sound : chunk.Sound)
include sound

/-- Any other than a low surrogate can follow. -/
theorem sound_point {point : Nat} (scalar : Scalar point) : Chunk.Sound ⟨chunk.text ++ [point], none, .plain⟩ where
  readable := by
    show Readable (chunk.text ++ [point] ++ [])
    rw [List.append_nil]
    exact readable_snoc sound.readable scalar.1 (fun low => absurd low (by simp [scalar.2.2]))
  high _ member := absurd member (by simp)
  closed _ last member := by
    rw [List.getLast?_concat] at member
    cases member
    exact scalar.2.1
  digits _ _ stage := by cases stage

theorem sound_unit {code : Nat} (small : code < 65536) : (chunk.unit code).Sound := by
  obtain ⟨points,high,stage⟩ := chunk
  have apart : ∀ value, Readable (value ++ [code]) → is_high code = true → Chunk.Sound ⟨value, some code, .plain⟩ :=
    fun value readable here => ⟨readable,fun other member => Option.mem_some.mp member ▸ here,
      fun absent => (by cases absent),fun _ _ stage => (by cases stage)⟩
  have joins : ∀ value point, Readable (value ++ [point]) → is_high point = false →
      Chunk.Sound ⟨value ++ [point], none, .plain⟩ := by
    intro value point readable other
    refine ⟨?_,fun _ member => absurd member (by simp),fun _ last member => ?_,fun _ _ stage => by cases stage⟩
    · show Readable (value ++ [point] ++ [])
      rwa [List.append_nil]
    · rw [List.getLast?_concat] at member
      cases member
      exact other
  cases high with
  | none =>
    have same : Chunk.text ⟨points, none, stage⟩ = points := List.append_nil _
    have readable : Readable (points ++ [code]) :=
      readable_snoc (same ▸ sound.readable) (by omega) (fun _ => sound.closed rfl)
    simp only [Chunk.unit]
    split_ifs with high
    · exact apart points readable high
    · exact joins points code readable (Bool.eq_false_iff.mpr high)
  | some before =>
    have is_before : is_high before = true := sound.high before rfl
    simp only [Chunk.unit]
    split_ifs with low high
    · have bounds : 55296 ≤ before ∧ before < 56320 := by simpa [is_high] using is_before
      have bounds' : 56320 ≤ code ∧ code < 57344 := by simpa [is_low] using low
      have scalar : Scalar (join_surrogates before code) := by
        refine valid_scalar (.inr ?_)
        unfold join_surrogates
        omega
      have points_readable : Readable points := readable_left sound.readable
      exact joins points _ (readable_snoc points_readable scalar.1 (fun low => absurd low (by simp [scalar.2.2]))) scalar.2.1
    · exact apart _ (readable_snoc sound.readable (by omega) (fun low' => absurd low' low)) high
    · exact joins _ code (readable_snoc sound.readable (by omega) (fun low' => absurd low' low)) (Bool.eq_false_iff.mpr high)

theorem sound_read {next : Chunk} {point : Nat} (scalar : Scalar point) (advanced : chunk.read point = .ok next) :
    next.Sound := by
  have restaged : ∀ stage, (∀ code count, stage = .unicode code count → count ≤ 3 ∧ code < 16 ^ count) →
      Chunk.Sound { chunk with stage := stage } :=
    fun stage digits => ⟨sound.readable,sound.high,sound.closed,digits⟩
  cases stage : chunk.stage with
  | plain =>
    simp only [Chunk.read,stage] at advanced
    split_ifs at advanced <;> cases advanced
    · exact restaged .escape (fun _ _ other => by cases other)
    · exact sound_point sound scalar
  | escape =>
    simp only [Chunk.read,stage] at advanced
    split_ifs at advanced
    · cases advanced
      exact restaged (.unicode 0 0) (fun _ _ same => by cases same; decide)
    · cases meaning : unescape point with
      | none =>
        rw [meaning] at advanced
        cases advanced
      | some value =>
        rw [meaning] at advanced
        cases advanced
        exact sound_point sound (small_scalar (unescape_small meaning))
  | unicode code count =>
    obtain ⟨few,small⟩ := sound.digits code count stage
    simp only [Chunk.read,stage] at advanced
    cases value : hex_value point with
    | none =>
      rw [value] at advanced
      cases advanced
    | some digit =>
      have digit_small := hex_value_small value
      rw [value] at advanced
      simp only at advanced
      split_ifs at advanced with last
      · cases advanced
        rw [last] at small
        exact sound_unit sound (by omega)
      · cases advanced
        refine restaged _ (fun _ _ same => ?_)
        cases same
        exact ⟨by omega,by rw [Nat.pow_succ]; omega⟩

end

/-! ### Numbers -/

theorem digits_value_small {digits : Text} (decimal : ∀ point ∈ digits, is_digit point = true) :
    digits_value digits < 10 ^ digits.length := by
  induction digits using List.reverseRecOn with
  | nil => decide
  | append_singleton digits point ih =>
    have before := ih (fun other member => decimal other (List.mem_append_left _ member))
    have last := (is_digit_iff point).mp (decimal point (by simp))
    rw [digits_value] at before
    rw [digits_value,List.foldl_append,List.length_append,List.length_singleton,Nat.pow_succ]
    simp only [List.foldl_cons,List.foldl_nil]
    omega

theorem numeral_few {digits : Text} (decimal : ∀ point ∈ digits, is_digit point = true) (some_digit : digits ≠ []) :
    (numeral (digits_value digits)).length ≤ digits.length := by
  rw [numeral,List.length_map]
  exact (Nat.length_toDigits_le_iff (by decide) (List.length_pos_iff.mpr some_digit)).mpr (digits_value_small decimal)

theorem match_natural_digit {value natural rest : Text} (found : match_natural value = some (natural, rest)) :
    natural.filter is_digit ≠ [] := by
  have first : ∀ point more, is_digit point = true → (point :: more).filter is_digit ≠ [] := by
    intro point more digit
    rw [List.filter_cons_of_pos digit]
    exact List.cons_ne_nil _ _
  cases value with
  | nil => cases found
  | cons point value =>
    rw [match_natural] at found
    split_ifs at found with zero digit
    · cases found
      exact first point [] (by rw [zero]; decide)
    · cases found
      exact first point _ digit

theorem match_integer_digit {value integer rest : Text} (found : match_integer value = some (integer, rest)) :
    integer.filter is_digit ≠ [] := by
  cases value with
  | nil => cases found
  | cons point value =>
    rw [match_integer] at found
    split_ifs at found with sign
    · obtain ⟨⟨natural,after⟩,there,same⟩ := Option.map_eq_some_iff.mp found
      cases same
      rw [List.filter_cons_of_neg (by decide)]
      exact match_natural_digit there
    · exact match_natural_digit found

/-- A number is an integer with few digits, or the run is the literal of a float. -/
theorem read_number_cases {limits : Limits} {run : Text} {value : Json} (number : read_number limits run = .ok value) :
    (∃ n : Int, value = .int n ∧ (numeral n.natAbs).length ≤ limits.digits) ∨ value = .float run := by
  unfold read_number at number
  cases found : match_integer run with
  | none =>
    rw [found] at number
    cases number
  | some parts =>
    obtain ⟨integer,rest⟩ := parts
    rw [found] at number
    simp only at number
    by_cases whole : (match_fraction rest).1 = [] ∧ (match_exponent (match_fraction rest).2).1 = []
    · rw [if_pos whole] at number
      obtain ⟨read,there,ended⟩ := bind_ok_iff.mp number
      have same : read = value := by
        split_ifs at ended
        exact Except.ok.inj ended
      have few := numeral_few (fun _ member => (List.mem_filter.mp member).2) (match_integer_digit found)
      rw [← same]
      simp only [read_int] at there
      split_ifs at there with long sign
      · exact .inl ⟨_,(Except.ok.inj there).symm,by rw [Int.natAbs_neg,Int.natAbs_natCast]; omega⟩
      · exact .inl ⟨_,(Except.ok.inj there).symm,by rw [Int.natAbs_natCast]; omega⟩
    · rw [if_neg whole] at number
      split_ifs at number
      exact .inr (Except.ok.inj number).symm

/-! ### The reader -/

/-- A value that the reader can give, whatever its floats are. -/
abbrev Given (limits : Limits) : Nat → Json → Prop := Writable limits (fun _ => True)

structure FieldsSound (limits : Limits) (depth : Nat) (fields : List (Text × Json)) : Prop where
  fits : depth < limits.depth
  distinct : (fields.map Prod.fst).Nodup
  keys : ∀ field ∈ fields, Readable field.1
  each : ∀ field ∈ fields, Given limits (depth + 1) field.2

def FrameSound (limits : Limits) (depth : Nat) : Frame → Prop
  | .arr items => depth < limits.depth ∧ ∀ item ∈ items, Given limits (depth + 1) item
  | .obj fields key => FieldsSound limits depth fields ∧ Readable key

def StackSound (limits : Limits) : List Frame → Prop
  | [] => True
  | frame :: rest => FrameSound limits rest.length frame ∧ StackSound limits rest

def ModeSound (limits : Limits) (depth : Nat) : Mode → Prop
  | .value => True
  | .item => depth < limits.depth
  | .first_key => depth < limits.depth
  | .key fields => FieldsSound limits depth fields
  | .colon fields key => FieldsSound limits depth fields ∧ Readable key
  | .after value => Given limits depth value
  | .str fields chunk => chunk.Sound ∧ ∀ before ∈ fields, FieldsSound limits depth before
  | .number run => ∃ point more, run = point :: more ∧ (point = 45 ∨ is_digit point = true) ∧
      ∀ other ∈ more, is_number other = true
  | .word _ value => Given limits depth value

structure ReaderSound (limits : Limits) (reader : Reader) : Prop where
  mode : ModeSound limits reader.stack.length reader.mode
  stack : StackSound limits reader.stack

theorem setItem_mem {key : Text} {value : Json} {fields : List (Text × Json)} {field : Text × Json}
    (member : field ∈ setItem key value fields) : field = (key, value) ∨ field ∈ fields := by
  induction fields with
  | nil => exact .inl (List.mem_singleton.mp member)
  | cons first rest ih =>
    rw [setItem] at member
    split_ifs at member
    · exact (List.mem_cons.mp member).imp_right (List.mem_cons_of_mem _)
    · rcases List.mem_cons.mp member with rfl | later
      · exact .inr List.mem_cons_self
      · exact (ih later).imp_right (List.mem_cons_of_mem _)

theorem setItem_keys {key : Text} {value : Json} {fields : List (Text × Json)} (distinct : (fields.map Prod.fst).Nodup) :
    ((setItem key value fields).map Prod.fst).Nodup := by
  induction fields with
  | nil => exact List.nodup_singleton _
  | cons first rest ih =>
    obtain ⟨fresh,distinct⟩ := List.nodup_cons.mp distinct
    rw [setItem]
    split_ifs with same
    · exact List.nodup_cons.mpr ⟨same ▸ fresh,distinct⟩
    · refine List.nodup_cons.mpr ⟨fun member => ?_,ih distinct⟩
      obtain ⟨field,there,named⟩ := List.mem_map.mp member
      rcases setItem_mem there with rfl | old
      · exact same named.symm
      · exact fresh (named ▸ List.mem_map_of_mem old)

section
variable {limits : Limits} {depth : Nat} {stack : List Frame} {next : Reader} {value : Json} {point : Nat}

theorem FieldsSound.set {fields : List (Text × Json)} {key : Text} (sound : FieldsSound limits depth fields)
    (readable : Readable key) (given : Given limits (depth + 1) value) :
    FieldsSound limits depth (setItem key value fields) where
  fits := sound.fits
  distinct := setItem_keys sound.distinct
  keys _ member := by
    rcases setItem_mem member with rfl | old
    · exact readable
    · exact sound.keys _ old
  each _ member := by
    rcases setItem_mem member with rfl | old
    · exact given
    · exact sound.each _ old

theorem FieldsSound.obj {fields : List (Text × Json)} (sound : FieldsSound limits depth fields) :
    Given limits depth (.obj fields) := .obj depth fields sound.fits sound.distinct sound.keys sound.each

theorem fields_sound_nil (fits : depth < limits.depth) : FieldsSound limits depth [] :=
  ⟨fits,List.nodup_nil,fun _ member => absurd member List.not_mem_nil,fun _ member => absurd member List.not_mem_nil⟩

theorem empty_chunk_sound : empty_chunk.Sound :=
  ⟨readable_nil,fun _ member => absurd member (by simp [empty_chunk]),fun _ _ member => absurd member (by simp [empty_chunk]),
    fun _ _ stage => by cases stage⟩

theorem begin_value_sound (sound : StackSound limits stack) (began : begin_value limits stack point = .ok next) :
    ReaderSound limits next := by
  unfold begin_value at began
  split_ifs at began with _ _ fits _ fits _ _ _ _ _ first <;> cases began
  · exact ⟨⟨empty_chunk_sound,fun _ member => absurd member (by simp)⟩,sound⟩
  · exact ⟨fits,sound⟩
  · exact ⟨fits,sound⟩
  · exact ⟨.null _,sound⟩
  · exact ⟨.bool _ _,sound⟩
  · exact ⟨.bool _ _,sound⟩
  · exact ⟨.float _ _ (.inl rfl) trivial,sound⟩
  · exact ⟨.float _ _ (.inr (.inl rfl)) trivial,sound⟩
  · exact ⟨⟨point,[],rfl,first,fun _ member => absurd member List.not_mem_nil⟩,sound⟩

theorem end_value_sound (given : Given limits stack.length value) (sound : StackSound limits stack)
    (ended : end_value value stack point = .ok next) : ReaderSound limits next := by
  unfold end_value at ended
  by_cases blank : is_space point = true
  · rw [if_pos blank] at ended
    cases ended
    exact ⟨given,sound⟩
  · rw [if_neg blank] at ended
    cases stack with
    | nil => cases ended
    | cons frame stack =>
      obtain ⟨here,below⟩ := sound
      cases frame with
      | arr items =>
        obtain ⟨fits,each⟩ := here
        have more : ∀ item ∈ items ++ [value], Given limits (stack.length + 1) item := by
          intro item member
          rcases List.mem_append.mp member with old | new
          · exact each item old
          · exact List.mem_singleton.mp new ▸ given
        simp only at ended
        split_ifs at ended <;> cases ended
        · exact ⟨trivial,⟨fits,more⟩,below⟩
        · exact ⟨.arr _ _ fits more,below⟩
      | obj fields key =>
        have more := here.1.set here.2 given
        simp only at ended
        split_ifs at ended <;> cases ended
        · exact ⟨more,below⟩
        · exact ⟨more.obj,below⟩

theorem number_given {first : Nat} {more : Text} (begins : first = 45 ∨ is_digit first = true)
    (characters : ∀ other ∈ more, is_number other = true) (number : read_number limits (first :: more) = .ok value) :
    Given limits depth value := by
  rcases read_number_cases number with ⟨n,rfl,few⟩ | rfl
  · exact .int _ n few
  · exact .float _ _ (.inr (.inr (.inr ⟨first,more,rfl,begins,characters,number⟩))) trivial

theorem close_string_sound {fields : Option (List (Text × Json))} {content : Text} (sound : StackSound limits stack)
    (given : ∀ before ∈ fields, FieldsSound limits stack.length before) (readable : Readable content) :
    ReaderSound limits (close_string fields content stack) := by
  cases fields with
  | none => exact ⟨.str _ _ readable,sound⟩
  | some before => exact ⟨⟨given before rfl,readable⟩,sound⟩

/-- A step keeps the state of the reader sound. -/
theorem step_sound {reader : Reader} (sound : ReaderSound limits reader) (scalar : Scalar point)
    (stepped : step limits reader point = .ok next) : ReaderSound limits next := by
  obtain ⟨mode,stack⟩ := reader
  obtain ⟨here,below⟩ := sound
  cases mode with
  | value =>
    simp only [step] at stepped
    split_ifs at stepped
    · cases stepped
      exact ⟨here,below⟩
    · exact begin_value_sound below stepped
  | item =>
    simp only [step] at stepped
    split_ifs at stepped
    · cases stepped
      exact ⟨here,below⟩
    · cases stepped
      exact ⟨.arr _ _ here (fun _ member => absurd member List.not_mem_nil),below⟩
    · have opened : StackSound limits (.arr [] :: stack) := ⟨⟨here,fun _ member => absurd member List.not_mem_nil⟩,below⟩
      exact begin_value_sound opened stepped
  | first_key =>
    have none := fields_sound_nil here
    simp only [step] at stepped
    split_ifs at stepped <;> cases stepped
    · exact ⟨here,below⟩
    · exact ⟨none.obj,below⟩
    · exact ⟨⟨empty_chunk_sound,fun _ member => Option.mem_some.mp member ▸ none⟩,below⟩
  | key fields =>
    simp only [step] at stepped
    split_ifs at stepped <;> cases stepped
    · exact ⟨here,below⟩
    · exact ⟨⟨empty_chunk_sound,fun _ member => Option.mem_some.mp member ▸ here⟩,below⟩
  | colon fields key =>
    simp only [step] at stepped
    split_ifs at stepped <;> cases stepped
    · exact ⟨here,below⟩
    · exact ⟨trivial,here,below⟩
  | after value => exact end_value_sound here below stepped
  | str fields chunk =>
    obtain ⟨part,before⟩ := here
    simp only [step] at stepped
    split at stepped
    · cases stepped
      exact close_string_sound below before part.readable
    · obtain ⟨chunk',advanced,ended⟩ := bind_ok_iff.mp stepped
      cases ended
      exact ⟨⟨sound_read part scalar advanced,before⟩,below⟩
  | number run =>
    obtain ⟨first,more,rfl,begins,characters⟩ := here
    simp only [step] at stepped
    split_ifs at stepped with continues
    · cases stepped
      refine ⟨⟨first,more ++ [point],rfl,begins,fun other member => ?_⟩,below⟩
      rcases List.mem_append.mp member with old | new
      · exact characters other old
      · exact List.mem_singleton.mp new ▸ continues
    · cases stepped
      exact ⟨.float _ _ (.inr (.inr (.inl rfl))) trivial,below⟩
    · obtain ⟨value,number,ended⟩ := bind_ok_iff.mp stepped
      exact end_value_sound (number_given begins characters number) below ended
  | word left value =>
    cases left with
    | nil => exact end_value_sound here below stepped
    | cons expected left =>
      simp only [step] at stepped
      split_ifs at stepped
      cases stepped
      exact ⟨here,below⟩

theorem finish_given {reader : Reader} (sound : ReaderSound limits reader) (finished : finish limits reader = .ok value) :
    Given limits 0 value := by
  obtain ⟨mode,stack⟩ := reader
  obtain ⟨here,_⟩ := sound
  have whole : ∀ {other}, Given limits stack.length other →
      (if stack.isEmpty then Except.ok other else .error .JSONDecodeError : Except PyError Json) = .ok value →
      Given limits 0 value := by
    intro other given ended
    cases stack with
    | nil =>
      cases ended
      exact given
    | cons frame stack => cases ended
  cases mode with
  | after other => exact whole here finished
  | number run =>
    obtain ⟨first,more,rfl,begins,characters⟩ := here
    obtain ⟨other,number,ended⟩ := bind_ok_iff.mp finished
    exact whole (number_given begins characters number) ended
  | word left other =>
    cases left with
    | nil => exact whole here finished
    | cons => cases finished
  | _ => cases finished

theorem read_given {content : Text} {reader : Reader} (sound : ReaderSound limits reader)
    (scalar : ∀ point ∈ content, Scalar point) (result : read limits reader content = .ok value) : Given limits 0 value := by
  induction content generalizing reader with
  | nil => exact finish_given sound result
  | cons point content ih =>
    obtain ⟨next,stepped,result⟩ := bind_ok_iff.mp result
    exact ih (step_sound sound (scalar point List.mem_cons_self) stepped)
      (fun other member => scalar other (List.mem_cons_of_mem _ member)) result

end

/-- What `json.loads` makes of text without surrogates is well formed. -/
theorem loads_given {limits : Limits} {content : Text} {value : Json} (scalar : ∀ point ∈ content, Scalar point)
    (loaded : loads_text limits content = .ok value) : Given limits 0 value := by
  unfold loads_text at loaded
  split_ifs at loaded
  have initial : ReaderSound limits ⟨.value, []⟩ := ⟨trivial,trivial⟩
  exact read_given initial scalar loaded

/-! ### What was read can be written -/

mutual

/-- The literals of the floats in a value. -/
def float_literals : Json → List Text
  | .float literal => [literal]
  | .arr items => items_literals items
  | .obj fields => fields_literals fields
  | _ => []

def items_literals : List Json → List Text
  | [] => []
  | item :: rest => float_literals item ++ items_literals rest

def fields_literals : List (Text × Json) → List Text
  | [] => []
  | (_, value) :: rest => float_literals value ++ fields_literals rest

end

theorem items_literals_mem {item : Json} {items : List Json} (member : item ∈ items) :
    float_literals item ⊆ items_literals items := by
  induction items with
  | nil => cases member
  | cons first rest ih =>
    rcases List.mem_cons.mp member with rfl | later
    · exact List.subset_append_left _ _
    · exact List.subset_append_of_subset_right _ (ih later)

theorem fields_literals_mem {field : Text × Json} {fields : List (Text × Json)} (member : field ∈ fields) :
    float_literals field.2 ⊆ fields_literals fields := by
  induction fields with
  | nil => cases member
  | cons first rest ih =>
    rcases List.mem_cons.mp member with rfl | later
    · exact List.subset_append_left _ _
    · exact List.subset_append_of_subset_right _ (ih later)

theorem given_writable {limits : Limits} {kept : Text → Prop} {depth : Nat} {value : Json} (given : Given limits depth value)
    (floats : ∀ literal ∈ float_literals value, kept literal) : Writable limits kept depth value := by
  induction given with
  | null depth => exact .null depth
  | bool depth value => exact .bool depth value
  | int depth value few => exact .int depth value few
  | float depth literal spelled _ => exact .float depth literal spelled (floats literal (by simp [float_literals]))
  | str depth value readable => exact .str depth value readable
  | arr depth items fits _ ih =>
    exact .arr depth items fits (fun item member => ih item member (fun literal there =>
      floats literal (by rw [float_literals]; exact items_literals_mem member there)))
  | obj depth fields fits distinct keys _ ih =>
    exact .obj depth fields fits distinct keys (fun field member => ih field member (fun literal there =>
      floats literal (by rw [float_literals]; exact fields_literals_mem member there)))

end AcapyRedis.JsonText
