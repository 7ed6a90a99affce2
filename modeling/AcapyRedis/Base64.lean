import Mathlib.Data.List.DropRight
import AcapyRedis.Utils

/-!
`base64.urlsafe_b64encode` and its round trips: the decoder gives back what was encoded
(`urlsafe_b64decode_encode`), and so does `b64_to_bytes`, also for text whose padding was
left out; text that leaves one character over is refused (`padding_repaired`).
-/
namespace AcapyRedis.Base64
open AcapyRedis.Python AcapyRedis.Utils

/-- The character of the URL-safe alphabet for six bits. -/
def urlsafe_char (n : Nat) : UInt8 :=
  if n < 26 then UInt8.ofNat (n + 65)
  else if n < 52 then UInt8.ofNat (n + 71)
  else if n < 62 then UInt8.ofNat (n - 4)
  else if n = 62 then 45
  else 95

/-- The six bits of every character but the padding. -/
def sextets : Bytes → List Nat
  | [] => []
  | [a] => [a.toNat / 4, a.toNat % 4 * 16]
  | [a, b] => [a.toNat / 4, a.toNat % 4 * 16 + b.toNat / 16, b.toNat % 16 * 4]
  | a :: b :: c :: rest =>
    (a.toNat / 4) :: (a.toNat % 4 * 16 + b.toNat / 16) :: (b.toNat % 16 * 4 + c.toNat / 64) :: (c.toNat % 64) ::
      sextets rest

/-- The number of padding characters. -/
def missing (value : Bytes) : Nat := (3 - value.length % 3) % 3

/-- The encoding without its padding. -/
def unpadded (value : Bytes) : Bytes := (sextets value).map urlsafe_char

def urlsafe_b64encode (value : Bytes) : Bytes := unpadded value ++ List.replicate (missing value) 61

/-- `base64.urlsafe_b64encode(value).decode()`. -/
def b64_text (value : Bytes) : Text := (urlsafe_b64encode value).map UInt8.toNat

/-! ### Characters -/

/-- What `urlsafe_b64decode` makes of a character before it decodes it. -/
def standard (byte : UInt8) : UInt8 := if byte = 45 then 43 else if byte = 95 then 47 else byte

/-- A character stands for the six bits that it was chosen for, and is not the padding. -/
theorem sextet_urlsafe {n : Nat} (small : n < 64) :
    sextet (standard (urlsafe_char n)) = some n ∧ standard (urlsafe_char n) ≠ 61 := by
  have each : ∀ m : Fin 64, sextet (standard (urlsafe_char m)) = some m.val ∧ standard (urlsafe_char m) ≠ 61 := by decide
  exact each ⟨n,small⟩

theorem urlsafe_ascii {n : Nat} (small : n < 64) : (urlsafe_char n).toNat < 128 := by
  have each : ∀ m : Fin 64, (urlsafe_char m).toNat < 128 := by decide
  exact each ⟨n,small⟩

theorem sextets_small (value : Bytes) : ∀ n ∈ sextets value, n < 64 := by
  induction value using sextets.induct with
  | case1 => simp [sextets]
  | case2 a =>
    have bound := a.toNat_lt
    simp only [sextets,List.mem_cons,List.not_mem_nil,or_false]
    rintro n (rfl | rfl) <;> omega
  | case3 a b =>
    have bound := a.toNat_lt
    have bound' := b.toNat_lt
    simp only [sextets,List.mem_cons,List.not_mem_nil,or_false]
    rintro n (rfl | rfl | rfl) <;> omega
  | case4 a b c rest ih =>
    have bound := a.toNat_lt
    have bound' := b.toNat_lt
    have bound'' := c.toNat_lt
    simp only [sextets,List.mem_cons]
    rintro n (rfl | rfl | rfl | rfl | later)
    · omega
    · omega
    · omega
    · omega
    · exact ih n later

theorem missing_step (a b c : UInt8) (rest : Bytes) : missing (a :: b :: c :: rest) = missing rest := by
  simp only [missing,List.length_cons]
  omega

theorem sextets_length (value : Bytes) : (sextets value).length + missing value = (value.length + 2) / 3 * 4 := by
  induction value using sextets.induct with
  | case1 => rfl
  | case2 a => simp [sextets,missing]
  | case3 a b => simp [sextets,missing]
  | case4 a b c rest ih =>
    rw [missing_step]
    simp only [sextets,List.length_cons]
    omega

/-! ### Decoding -/

/-- The characters after the open group, and the padding. -/
def spelled (ns : List Nat) (pads : Nat) : Bytes := ns.map (fun n => standard (urlsafe_char n)) ++ List.replicate pads 61

theorem spelled_cons (n : Nat) (ns : List Nat) (pads : Nat) :
    spelled (n :: ns) pads = standard (urlsafe_char n) :: spelled ns pads := rfl

theorem a2b_open {n : Nat} (small : n < 64) {group : List Nat} (few : group.length < 3) (rest : Bytes) (pads : Nat) :
    a2b_base64 (standard (urlsafe_char n) :: rest) group pads = a2b_base64 rest (group ++ [n]) 0 := by
  obtain ⟨value,other⟩ := sextet_urlsafe small
  rw [a2b_base64,if_neg other,value]
  simp only
  rw [if_neg (by omega)]

theorem a2b_close {n : Nat} (small : n < 64) {group : List Nat} (three : group.length = 3) (rest : Bytes) (pads : Nat) :
    a2b_base64 (standard (urlsafe_char n) :: rest) group pads =
      (a2b_base64 rest [] 0).map (fun later => groupBytes (group ++ [n]) ++ later) := by
  obtain ⟨value,other⟩ := sextet_urlsafe small
  rw [a2b_base64,if_neg other,value]
  simp only
  rw [if_pos three]
  cases a2b_base64 rest [] 0 <;> rfl

/-- Three bytes from their four sextets. -/
theorem groupBytes_three (a b c : UInt8) :
    groupBytes [a.toNat / 4, a.toNat % 4 * 16 + b.toNat / 16, b.toNat % 16 * 4 + c.toNat / 64, c.toNat % 64] = [a, b, c] := by
  have bound := b.toNat_lt
  have bound' := c.toNat_lt
  have first : a.toNat / 4 * 4 + (a.toNat % 4 * 16 + b.toNat / 16) / 16 = a.toNat := by omega
  have second : (a.toNat % 4 * 16 + b.toNat / 16) % 16 * 16 + (b.toNat % 16 * 4 + c.toNat / 64) / 4 = b.toNat := by omega
  have third : (b.toNat % 16 * 4 + c.toNat / 64) % 4 * 64 + c.toNat % 64 = c.toNat := by omega
  simp only [groupBytes,first,second,third,UInt8.ofNat_toNat]

theorem groupBytes_two (a b : UInt8) :
    groupBytes [a.toNat / 4, a.toNat % 4 * 16 + b.toNat / 16, b.toNat % 16 * 4] = [a, b] := by
  have bound := b.toNat_lt
  have first : a.toNat / 4 * 4 + (a.toNat % 4 * 16 + b.toNat / 16) / 16 = a.toNat := by omega
  have second : (a.toNat % 4 * 16 + b.toNat / 16) % 16 * 16 + b.toNat % 16 * 4 / 4 = b.toNat := by omega
  simp only [groupBytes,first,second,UInt8.ofNat_toNat]

theorem groupBytes_one (a : UInt8) : groupBytes [a.toNat / 4, a.toNat % 4 * 16] = [a] := by
  have first : a.toNat / 4 * 4 + a.toNat % 4 * 16 / 16 = a.toNat := by omega
  simp only [groupBytes,first,UInt8.ofNat_toNat]

theorem a2b_spelled (value : Bytes) : a2b_base64 (spelled (sextets value) (missing value)) [] 0 = .ok value := by
  induction value using sextets.induct with
  | case1 => rfl
  | case2 a =>
    have small := sextets_small [a]
    simp only [sextets,List.mem_cons,List.not_mem_nil,or_false,forall_eq_or_imp,forall_eq] at small
    rw [sextets,spelled_cons,spelled_cons,a2b_open small.1 (by simp),a2b_open small.2 (by simp)]
    exact congrArg Except.ok (groupBytes_one a)
  | case3 a b =>
    have small := sextets_small [a, b]
    simp only [sextets,List.mem_cons,List.not_mem_nil,or_false,forall_eq_or_imp,forall_eq] at small
    rw [sextets,spelled_cons,spelled_cons,spelled_cons,a2b_open small.1 (by simp),a2b_open small.2.1 (by simp),
      a2b_open small.2.2 (by simp)]
    exact congrArg Except.ok (groupBytes_two a b)
  | case4 a b c rest ih =>
    have small := sextets_small (a :: b :: c :: rest)
    simp only [sextets,List.mem_cons,forall_eq_or_imp] at small
    rw [sextets,missing_step,spelled_cons,spelled_cons,spelled_cons,spelled_cons,a2b_open small.1 (by simp),
      a2b_open small.2.1 (by simp),a2b_open small.2.2.1 (by simp),a2b_close small.2.2.2.1 (by simp),ih]
    exact congrArg (fun group => Except.ok (group ++ rest)) (groupBytes_three a b c)

/-- The decoder takes the encoding as it stands. -/
theorem urlsafe_b64decode_encode (value : Bytes) : urlsafe_b64decode (urlsafe_b64encode value) = .ok value := by
  have padding : (List.replicate (missing value) (61 : UInt8)).map standard = List.replicate (missing value) 61 := by
    rw [List.map_replicate]
    rfl
  have read : (urlsafe_b64encode value).map standard = spelled (sextets value) (missing value) := by
    simp only [urlsafe_b64encode,unpadded,List.map_append,List.map_map,padding,spelled,Function.comp_def]
  show a2b_base64 ((urlsafe_b64encode value).map standard) [] 0 = .ok value
  rw [read]
  exact a2b_spelled value

/-! ### Text -/

theorem urlsafe_b64encode_ascii (value : Bytes) : ∀ byte ∈ urlsafe_b64encode value, byte.toNat < 128 := by
  intro byte member
  obtain character | padding := List.mem_append.mp member
  · obtain ⟨n,inside,rfl⟩ := List.mem_map.mp character
    exact urlsafe_ascii (sextets_small value n inside)
  · rw [List.eq_of_mem_replicate padding]
    decide

/-- Encoding the text of ASCII bytes gives the bytes. -/
theorem encodeAscii_text {bytes : Bytes} (ascii : ∀ byte ∈ bytes, byte.toNat < 128) :
    Text.encodeAscii (bytes.map UInt8.toNat) = .ok bytes := by
  have small : (bytes.map UInt8.toNat).all (fun point => decide (point < 128)) = true := by
    simpa using ascii
  rw [Text.encodeAscii,if_pos small,List.map_map]
  congr 1
  exact (List.map_congr_left (fun byte _ => UInt8.ofNat_toNat)).trans (List.map_id bytes)

theorem urlsafe_b64encode_length (value : Bytes) : (urlsafe_b64encode value).length % 4 = 0 := by
  have size : (urlsafe_b64encode value).length = (value.length + 2) / 3 * 4 := by
    rw [← sextets_length value]
    simp [urlsafe_b64encode,unpadded]
  omega

/-! ### Padding -/

/-- The padding that `b64_to_bytes` adds. -/
def padded (value : Bytes) : Bytes :=
  if value.length % 4 = 0 then value else value ++ List.replicate (4 - value.length % 4) 61

theorem b64_to_bytes_padded (value : Bytes) : b64_to_bytes (.inr value) true = urlsafe_b64decode (padded value) := rfl

/-- A `str` of ASCII characters is read as its bytes are. -/
theorem b64_to_bytes_text {value : Bytes} (ascii : ∀ byte ∈ value, byte.toNat < 128) :
    b64_to_bytes (.inl (value.map UInt8.toNat)) true = b64_to_bytes (.inr value) true := by
  simp only [b64_to_bytes,encodeAscii_text ascii]

theorem padded_encode (value : Bytes) : padded (urlsafe_b64encode value) = urlsafe_b64encode value :=
  if_pos (urlsafe_b64encode_length value)

/-- What `b64_to_bytes` adds is the padding that was left out. -/
theorem padded_unpadded (value : Bytes) : padded (unpadded value) = urlsafe_b64encode value := by
  have size : (unpadded value).length + missing value = (value.length + 2) / 3 * 4 := by
    rw [← sextets_length value]
    simp [unpadded]
  have few : missing value < 3 := by simp only [missing]; omega
  rw [padded]
  split
  · have none : missing value = 0 := by omega
    simp [urlsafe_b64encode,none]
  · have added : 4 - (unpadded value).length % 4 = missing value := by omega
    rw [added]
    rfl

theorem unpadded_ascii (value : Bytes) : ∀ byte ∈ unpadded value, byte.toNat < 128 := fun byte member =>
  urlsafe_b64encode_ascii value byte (List.mem_append_left _ member)

/-- `b64_to_bytes` undoes the encoding. -/
theorem b64_to_bytes_encoded (value : Bytes) : b64_to_bytes (.inr (urlsafe_b64encode value)) true = .ok value := by
  rw [b64_to_bytes_padded,padded_encode]
  exact urlsafe_b64decode_encode value

theorem b64_to_bytes_encode (value : Bytes) : b64_to_bytes (.inl (b64_text value)) true = .ok value :=
  (b64_to_bytes_text (urlsafe_b64encode_ascii value)).trans (b64_to_bytes_encoded value)

/-- So it does if the padding was left out. -/
theorem b64_to_bytes_bare (value : Bytes) : b64_to_bytes (.inr (unpadded value)) true = .ok value := by
  rw [b64_to_bytes_padded,padded_unpadded]
  exact urlsafe_b64decode_encode value

theorem b64_to_bytes_unpadded (value : Bytes) :
    b64_to_bytes (.inl ((unpadded value).map UInt8.toNat)) true = .ok value :=
  (b64_to_bytes_text (unpadded_ascii value)).trans (b64_to_bytes_bare value)

/-- The encoding without the padding at its end. -/
theorem rdropWhile_encode (value : Bytes) : (urlsafe_b64encode value).rdropWhile (· = 61) = unpadded value := by
  have last : (unpadded value).rdropWhile (· = 61) = unpadded value := by
    refine List.rdropWhile_eq_self_iff.mpr (fun some_char => ?_)
    obtain ⟨n,inside,is⟩ := List.mem_map.mp (List.getLast_mem some_char)
    have other : ∀ m : Fin 64, urlsafe_char m ≠ 61 := by decide
    rw [← is]
    simpa using other ⟨n, sextets_small value n inside⟩
  rw [urlsafe_b64encode]
  induction missing value with
  | zero => rwa [List.replicate_zero,List.append_nil]
  | succ pads ih => rw [List.replicate_succ',← List.append_assoc,List.rdropWhile_concat_pos _ _ _ (by simp),ih]

/-! ### Incomplete groups -/

/-- The characters of the URL-safe alphabet in their order. -/
def urlsafe_alphabet : Text := text "ABCDEFGHIJKLMNOPQRSTUVWXYZabcdefghijklmnopqrstuvwxyz0123456789-_"

theorem urlsafe_alphabet_eq : urlsafe_alphabet = (List.range 64).map (fun n => (urlsafe_char n).toNat) := by decide

/-- A text over the alphabet spells sextets. -/
theorem spells_sextets {val : Text} (inside : ∀ point ∈ val, point ∈ urlsafe_alphabet) :
    ∃ ns : List Nat, (∀ n ∈ ns, n < 64) ∧ val = (ns.map urlsafe_char).map UInt8.toNat := by
  induction val with
  | nil => exact ⟨[], by simp, rfl⟩
  | cons point rest ih =>
    have here := inside point List.mem_cons_self
    rw [urlsafe_alphabet_eq] at here
    obtain ⟨n,small,rfl⟩ := List.mem_map.mp here
    obtain ⟨ns,smalls,rfl⟩ := ih (fun other member => inside other (List.mem_cons_of_mem _ member))
    refine ⟨n :: ns, ?_, rfl⟩
    rintro m (_ | later)
    · exact List.mem_range.mp small
    · exact smalls m (by assumption)

/-- Padding does not complete a group of one character. -/
theorem a2b_single (n pads : Nat) : a2b_base64 (List.replicate pads 61) [n] 0 = .error .BinasciiError := by
  induction pads with
  | zero => rfl
  | succ pads ih =>
    rw [List.replicate_succ,a2b_base64,if_pos rfl,if_neg (by simp)]
    exact ih

/-- Characters that leave one in the last group are no base64, whatever padding follows. -/
theorem a2b_incomplete {ns : List Nat} (smalls : ∀ n ∈ ns, n < 64) {group : List Nat} (few : group.length < 4)
    (one : (group.length + ns.length) % 4 = 1) (pads : Nat) :
    a2b_base64 (spelled ns pads) group 0 = .error .BinasciiError := by
  induction ns generalizing group with
  | nil =>
    have single : group.length = 1 := by simp at one; omega
    obtain ⟨n,rfl⟩ := List.length_eq_one_iff.mp single
    exact a2b_single n pads
  | cons n ns ih =>
    have small := smalls n List.mem_cons_self
    have smalls' : ∀ m ∈ ns, m < 64 := fun m member => smalls m (List.mem_cons_of_mem _ member)
    rw [List.length_cons] at one
    rw [spelled_cons]
    by_cases three : group.length = 3
    · rw [a2b_close small three,ih smalls' (by simp) (by simp; omega)]
      rfl
    · rw [a2b_open small (by omega)]
      exact ih smalls' (by simp; omega) (by simp; omega)

theorem b64_to_bytes_incomplete {ns : List Nat} (smalls : ∀ n ∈ ns, n < 64) (one : ns.length % 4 = 1) :
    b64_to_bytes (.inr (ns.map urlsafe_char)) true = .error .BinasciiError := by
  have size : (ns.map urlsafe_char).length % 4 = 1 := by rwa [List.length_map]
  have added : padded (ns.map urlsafe_char) = ns.map urlsafe_char ++ List.replicate 3 61 := by
    rw [padded,if_neg (by omega),size]
  have read : (padded (ns.map urlsafe_char)).map standard = spelled ns 3 := by
    rw [added,List.map_append,List.map_map]
    rfl
  rw [b64_to_bytes_padded]
  show a2b_base64 ((padded (ns.map urlsafe_char)).map standard) [] 0 = .error .BinasciiError
  rw [read]
  exact a2b_incomplete smalls (by simp) (by simpa using one) 3

/-- `b64_to_bytes` takes back an encoding with or without its padding, as bytes or as a `str`,
    and raises where one character is left over. -/
theorem padding_repaired :
    (∀ value written : Bytes,
      written = urlsafe_b64encode value ∨ written = (urlsafe_b64encode value).rdropWhile (· = 61) →
      b64_to_bytes (.inr written) true = .ok value ∧ b64_to_bytes (.inl (written.map UInt8.toNat)) true = .ok value) ∧
    ∀ val : Text, (∀ point ∈ val, point ∈ urlsafe_alphabet) → val.length % 4 = 1 →
      b64_to_bytes (.inl val) true = .error .BinasciiError ∧
      b64_to_bytes (.inr (val.map UInt8.ofNat)) true = .error .BinasciiError := by
  constructor
  · rintro value written (rfl | rfl)
    · exact ⟨b64_to_bytes_encoded value, b64_to_bytes_encode value⟩
    · rw [rdropWhile_encode]
      exact ⟨b64_to_bytes_bare value, b64_to_bytes_unpadded value⟩
  · intro val inside one
    obtain ⟨ns,smalls,rfl⟩ := spells_sextets inside
    have ascii : ∀ byte ∈ ns.map urlsafe_char, byte.toNat < 128 := by
      intro byte member
      obtain ⟨n,here,rfl⟩ := List.mem_map.mp member
      exact urlsafe_ascii (smalls n here)
    have back : ((ns.map urlsafe_char).map UInt8.toNat).map UInt8.ofNat = ns.map urlsafe_char := by
      rw [List.map_map]
      exact (List.map_congr_left (fun byte _ => UInt8.ofNat_toNat)).trans (List.map_id _)
    have raises := b64_to_bytes_incomplete smalls (by simpa using one)
    rw [b64_to_bytes_text ascii,back]
    exact ⟨raises,raises⟩

/-- One byte without its padding, and a text of five characters. -/
theorem padding_repaired_short :
    b64_to_bytes (.inl (text "YQ")) true = .ok [97] ∧ b64_to_bytes (.inl (text "YWFhY")) true = .error .BinasciiError :=
  ⟨(padding_repaired.1 [97] [89, 81] (.inr (by decide))).2, (padding_repaired.2 (text "YWFhY") (by decide) (by decide)).1⟩

/-! ### Text that is not base64 -/

theorem a2b_base64_error {value : Bytes} {group : List Nat} {pads : Nat} {error : PyError}
    (fails : a2b_base64 value group pads = .error error) : error = .BinasciiError := by
  induction value generalizing group pads with
  | nil =>
    cases group <;> cases fails
    rfl
  | cons byte rest ih =>
    rw [a2b_base64.eq_def] at fails
    dsimp only at fails
    split at fails
    · split at fails
      · split at fails
        · cases fails
        · exact ih fails
      · exact ih fails
    · split at fails
      · exact ih fails
      · split at fails
        · cases later : a2b_base64 rest [] 0 with
          | ok bytes =>
            rw [later] at fails
            cases fails
          | error other =>
            rw [later] at fails
            cases fails
            exact ih later
        · exact ih fails

end AcapyRedis.Base64
