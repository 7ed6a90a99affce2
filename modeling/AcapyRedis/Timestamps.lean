import AcapyRedis.Calendar
import AcapyRedis.Records
import AcapyRedis.Utils
import Mathlib.Algebra.Order.Archimedean.Real.Basic

/-!
The timestamps of `redis_queue/v1_0/utils.py`: an instance writes the time of its last access as
text and `process_payload_recip_key` reads it on another host. Both take the local time of
their host, while the text says that it is UTC: the check finds the seconds that have passed
if the offsets of the hosts from UTC do not reach over the limit (`elapsed_iff`).
-/
namespace AcapyRedis.Timestamps
open AcapyRedis.Python AcapyRedis.Calendar

/-! ### `datetime` -/

/-- A naive `datetime`. -/
structure Datetime where
  date : Date
  hour : Nat
  minute : Nat
  second : Nat
  microsecond : Nat
  valid : date.Valid ∧ (1 ≤ date.year ∧ date.year ≤ 9999) ∧ hour < 24 ∧ minute < 60 ∧ second < 60 ∧ microsecond < 1000000

/-- `datetime.datetime(year, month, ...)`. -/
def datetime (date : Date) (hour minute second microsecond : Nat) : Except PyError Datetime :=
  if valid : date.Valid ∧ (1 ≤ date.year ∧ date.year ≤ 9999) ∧ hour < 24 ∧ minute < 60 ∧ second < 60 ∧ microsecond < 1000000
  then .ok ⟨date, hour, minute, second, microsecond, valid⟩
  else .error .ValueError

/-- The seconds since the year 0. -/
def Datetime.seconds (value : Datetime) : Int := ((value.date.days * 24 + value.hour) * 60 + value.minute) * 60 + value.second

/-- The first of January of 1970, in seconds since the year 0. -/
def epoch : Int := (⟨1970, 1, 1⟩ : Date).days * 86400

/-- `datetime.datetime.now()` on a host with an offset from UTC in seconds, whose clock reads
    microseconds since the epoch. The years before 1 are refused as the year 0. -/
def datetime_now (offset reading : Int) : Except PyError Datetime :=
  let microseconds := reading + (offset + epoch) * 1000000
  let seconds := (microseconds / 1000000).toNat
  datetime (date_of (seconds / 86400)) (seconds / 3600 % 24) (seconds / 60 % 60) (seconds % 60) (microseconds % 1000000).toNat

/-! ### Text -/

/-- The last digits of a number, filled up with zeros. -/
def padded : Nat → Nat → Text
  | 0, _ => []
  | width+1, n => padded width (n / 10) ++ [48 + n % 10]

/-- `strftime("%Y-%m-%dT%H:%M:%SZ")`. -/
def Datetime.strftime (value : Datetime) : Text :=
  padded 4 value.date.year ++ 45 :: (padded 2 value.date.month ++ 45 :: (padded 2 value.date.day ++ 84 ::
    (padded 2 value.hour ++ 58 :: (padded 2 value.minute ++ 58 :: (padded 2 value.second ++ [90])))))

/-- What is before the first stop, and what is after it. -/
def split_at (stops : Nat → Bool) (value : Text) : Except PyError (Text × Text) :=
  match value.dropWhile (fun point => !stops point) with
  | [] => .error .ValueError
  | _ :: rest => .ok (value.takeWhile (fun point => !stops point), rest)

/-- A number of some digits in a range. No digits but those of ASCII are ever written. -/
def numeral (shortest longest low high : Nat) (word : Text) : Except PyError Nat :=
  if word.all (fun point => decide (48 ≤ point) && decide (point ≤ 57)) && decide (shortest ≤ word.length) &&
      decide (word.length ≤ longest) && decide (low ≤ digits_value word) && decide (digits_value word ≤ high) then
    .ok (digits_value word)
  else .error .ValueError

/-- `%d` also takes a blank and a digit. -/
def day_word (word : Text) : Text := if word.length = 2 ∧ word.head? = some 32 then word.drop 1 else word

/-- `strptime(datetime_str, "%Y-%m-%dT%H:%M:%SZ")`; letters match in either case, and all but the
    year may lack the leading zero. -/
def str_to_datetime (datetime_str : Text) : Except PyError Datetime := do
  let (year, rest) ← split_at (· = 45) datetime_str
  let (month, rest) ← split_at (· = 45) rest
  let (day, rest) ← split_at (fun point => point = 84 || point = 116) rest
  let (hour, rest) ← split_at (· = 58) rest
  let (minute, rest) ← split_at (· = 58) rest
  let (second, rest) ← split_at (fun point => point = 90 || point = 122) rest
  if rest ≠ [] then .error .ValueError
  else do
    let year ← numeral 4 4 0 9999 year
    let month ← numeral 1 2 1 12 month
    let day ← numeral 1 2 1 31 (day_word day)
    let hour ← numeral 1 2 0 23 hour
    let minute ← numeral 1 2 0 59 minute
    let second ← numeral 1 2 0 61 second
    datetime ⟨year, month, day⟩ hour minute second 0

def curr_datetime_to_str (offset reading : Int) : Except PyError Text := do
  return (← datetime_now offset reading).strftime

/-- `total_seconds` is a fraction of microseconds; those of a text are 0. -/
def get_timedelta_seconds (offset reading : Int) (rec_datetime : Datetime) : Except PyError Rat := do
  let datetime_now ← str_to_datetime (← curr_datetime_to_str offset reading)
  return (((datetime_now.seconds * 1000000 + datetime_now.microsecond) -
    (rec_datetime.seconds * 1000000 + rec_datetime.microsecond) : Int) : Rat) / 1000000

/-- What an instance writes to `uid_last_access_map`. -/
def access_value (offset reading : Int) : Except PyError Bytes := do
  (← curr_datetime_to_str offset reading).utf8

/-- The stale check of `process_payload_recip_key` on what it has read. -/
def stale_uid_check (offset reading : Int) : Option Bytes → Except PyError Bool
  | none => .ok true
  | some [] => .ok true
  | some last_accessed_map_value => do
    let timedelta_seconds ← get_timedelta_seconds offset reading (← str_to_datetime (← last_accessed_map_value.decode))
    return decide (15 ≤ timedelta_seconds)

/-- The check at one reading of a value written at another, on hosts with their offsets. -/
def decision (offset₀ reading₀ offset₁ reading₁ : Int) : Except PyError Bool := do
  stale_uid_check offset₁ reading₁ (some (← access_value offset₀ reading₀))

/-! ### What was written is read back -/

theorem padded_length (width n : Nat) : (padded width n).length = width := by
  induction width generalizing n with
  | zero => rfl
  | succ width ih => rw [padded,List.length_append,ih,List.length_singleton]

theorem padded_digits {width n point : Nat} (member : point ∈ padded width n) : 48 ≤ point ∧ point ≤ 57 := by
  induction width generalizing n with
  | zero => cases member
  | succ width ih =>
    rcases List.mem_append.mp member with before | last
    · exact ih before
    · rw [List.mem_singleton.mp last]
      omega

theorem padded_value {width n : Nat} (fits : n < 10 ^ width) : digits_value (padded width n) = n := by
  induction width generalizing n with
  | zero =>
    have zero : n = 0 := by simpa using fits
    rw [zero]
    rfl
  | succ width ih =>
    have before : digits_value (padded width (n / 10)) = n / 10 := ih (by omega)
    rw [digits_value] at before
    rw [padded,digits_value,List.foldl_append,before]
    simp only [List.foldl_cons,List.foldl_nil]
    omega

theorem numeral_padded {shortest longest low high width n : Nat} (fits : n < 10 ^ width)
    (long : shortest ≤ width ∧ width ≤ longest) (range : low ≤ n ∧ n ≤ high) :
    numeral shortest longest low high (padded width n) = .ok n := by
  have digits : (padded width n).all (fun point => decide (48 ≤ point) && decide (point ≤ 57)) = true := by
    refine List.all_eq_true.mpr (fun point member => ?_)
    simpa using padded_digits member
  rw [numeral,digits,padded_length,padded_value fits]
  simp [long,range]

theorem split_padded (stops : Nat → Bool) (sep : Nat) (stop : stops sep = true)
    (digits : ∀ point, 48 ≤ point → point ≤ 57 → stops point = false) (width n : Nat) (rest : Text) :
    split_at stops (padded width n ++ sep :: rest) = .ok (padded width n, rest) := by
  have inside : ∀ point ∈ padded width n, (!stops point) = true := by
    intro point member
    obtain ⟨least,most⟩ := padded_digits member
    rw [digits point least most]
    rfl
  rw [split_at,List.dropWhile_append_of_pos inside,List.takeWhile_append_of_pos inside]
  simp [stop]

theorem day_word_padded (width n : Nat) : day_word (padded width n) = padded width n := by
  rw [day_word,if_neg]
  rintro ⟨_,blank⟩
  exact absurd (padded_digits (List.mem_of_mem_head? blank)) (by decide)

theorem datetime_valid (value : Datetime) {microsecond : Nat} (fits : microsecond < 1000000) :
    ∃ read, datetime value.date value.hour value.minute value.second microsecond = .ok read ∧
      read.seconds = value.seconds ∧ read.microsecond = microsecond := by
  obtain ⟨date,years,hour,minute,second,_⟩ := value.valid
  exact ⟨⟨value.date, value.hour, value.minute, value.second, microsecond, date, years, hour, minute, second, fits⟩,
    dif_pos ⟨date, years, hour, minute, second, fits⟩, rfl, rfl⟩

/-- Reading what was written gives the whole seconds. -/
theorem str_to_datetime_strftime (value : Datetime) :
    ∃ read, str_to_datetime value.strftime = .ok read ∧ read.seconds = value.seconds ∧ read.microsecond = 0 := by
  obtain ⟨date,⟨_,year⟩,hour,minute,second,_⟩ := value.valid
  obtain ⟨month,day⟩ := date.bounds
  have dash := split_padded (· = 45) 45 rfl (fun point least _ => by simp; omega)
  have colon := split_padded (· = 58) 58 rfl (fun point _ most => by simp; omega)
  have t := split_padded (fun point => point = 84 || point = 116) 84 rfl (fun point _ most => by simp; omega)
  have z := split_padded (fun point => point = 90 || point = 122) 90 rfl (fun point _ most => by simp; omega)
  obtain ⟨read,made,seconds,microsecond⟩ := datetime_valid value (Nat.zero_lt_succ _)
  refine ⟨read, ?_, seconds, microsecond⟩
  rw [str_to_datetime,Datetime.strftime]
  simp only [dash,colon,t,z,day_word_padded,ok_bind]
  rw [if_neg (fun left => left rfl),numeral_padded (by omega) (by omega) ⟨Nat.zero_le _,year⟩,ok_bind,
    numeral_padded (by omega) (by omega) ⟨date.1,month⟩,ok_bind,
    numeral_padded (by omega) (by omega) ⟨date.2.1,day⟩,ok_bind,
    numeral_padded (by omega) (by omega) ⟨Nat.zero_le _,by omega⟩,ok_bind,
    numeral_padded (by omega) (by omega) ⟨Nat.zero_le _,by omega⟩,ok_bind,
    numeral_padded (by omega) (by omega) ⟨Nat.zero_le _,by omega⟩,ok_bind]
  exact made

theorem strftime_ascii (value : Datetime) {point : Nat} (member : point ∈ value.strftime) : point < 128 := by
  have digit : ∀ {width n : Nat}, point ∈ padded width n → point < 128 := fun digit =>
    (padded_digits digit).2.trans_lt (by decide)
  simp only [Datetime.strftime,List.mem_append,List.mem_cons,List.not_mem_nil,or_false] at member
  rcases member with there | rfl | there | rfl | there | rfl | there | rfl | there | rfl | there | rfl
  all_goals first | exact digit there | decide

/-! ### Readings of the clock -/

theorem epoch_eq : epoch = 62167219200 := by decide +kernel

/-- The local time lies in the years that `datetime` has. -/
def Dated (offset reading : Int) : Prop :=
  -62135596800 ≤ reading / 1000000 + offset ∧ reading / 1000000 + offset < 253402300800

theorem local_seconds (offset reading : Int) :
    (reading + (offset + epoch) * 1000000) / 1000000 = reading / 1000000 + offset + epoch := by
  rw [Int.add_mul_ediv_right _ _ (by decide)]
  omega

theorem datetime_now_dated {offset reading : Int} (dated : Dated offset reading) :
    ∃ now, datetime_now offset reading = .ok now ∧ now.seconds = reading / 1000000 + offset + epoch := by
  obtain ⟨least,most⟩ := dated
  have same := local_seconds offset reading
  have start := epoch_eq
  obtain ⟨seconds,counts⟩ : ∃ seconds : Nat, (reading + (offset + epoch) * 1000000) / 1000000 = seconds :=
    Int.eq_ofNat_of_zero_le (by omega)
  have years : 1 ≤ (date_of (seconds / 86400)).year ∧ (date_of (seconds / 86400)).year ≤ 9999 := by
    rw [(year_date_of _).1,(year_date_of _).2]
    omega
  rw [datetime_now,counts,Int.toNat_natCast]
  refine ⟨_, dif_pos ⟨date_of_valid _, years, Nat.mod_lt _ (by decide), Nat.mod_lt _ (by decide), Nat.mod_lt _ (by decide),
    by omega⟩, ?_⟩
  have days : ((date_of (seconds / 86400)).days : Int) = (seconds / 86400 : Nat) := by rw [days_date_of]
  rw [Datetime.seconds,days]
  push_cast
  omega

theorem datetime_now_undated {offset reading : Int} (undated : ¬ Dated offset reading) :
    datetime_now offset reading = .error .ValueError := by
  have same := local_seconds offset reading
  have start := epoch_eq
  rw [datetime_now]
  refine dif_neg (fun valid => undated ?_)
  obtain ⟨_,⟨first,last⟩,_⟩ := valid
  rw [(year_date_of _).1] at first
  rw [(year_date_of _).2] at last
  rw [Dated]
  omega

/-! ### The check -/

section
variable {offset reading : Int}

theorem curr_datetime_dated (dated : Dated offset reading) : ∃ now : Datetime,
    curr_datetime_to_str offset reading = .ok now.strftime ∧ now.seconds = reading / 1000000 + offset + epoch := by
  obtain ⟨now,shown,seconds⟩ := datetime_now_dated dated
  exact ⟨now, by rw [curr_datetime_to_str,shown]; rfl, seconds⟩

theorem curr_datetime_undated (undated : ¬ Dated offset reading) :
    curr_datetime_to_str offset reading = .error .ValueError := by
  rw [curr_datetime_to_str,datetime_now_undated undated]
  rfl

/-- What an instance writes is the text of its local time. -/
theorem access_value_dated (dated : Dated offset reading) : ∃ (now : Datetime) (value : Bytes),
    access_value offset reading = .ok value ∧ value ≠ [] ∧ value.decode = .ok now.strftime ∧
      now.seconds = reading / 1000000 + offset + epoch := by
  obtain ⟨now,written,seconds⟩ := curr_datetime_dated dated
  obtain ⟨value,encoded⟩ := Records.utf8_ascii (fun _ member => strftime_ascii now member)
  have decoded := decode_utf8 encoded
  refine ⟨now, value, by rw [access_value,written,ok_bind,encoded], fun empty => ?_, decoded, seconds⟩
  rw [empty] at decoded
  exact List.append_ne_nil_of_right_ne_nil _ (List.cons_ne_nil _ _) (Except.ok.inj decoded).symm

theorem get_timedelta_dated (dated : Dated offset reading) {rec_datetime : Datetime} (whole : rec_datetime.microsecond = 0) :
    get_timedelta_seconds offset reading rec_datetime =
      .ok ((reading / 1000000 + offset + epoch - rec_datetime.seconds : Int) : Rat) := by
  obtain ⟨now,written,seconds⟩ := curr_datetime_dated dated
  obtain ⟨read,parsed,same,none⟩ := str_to_datetime_strftime now
  rw [get_timedelta_seconds,written,ok_bind,parsed,ok_bind,same,none,seconds,whole,pure_ok]
  refine congrArg Except.ok ?_
  push_cast
  ring

theorem stale_check_filled {value : Bytes} (filled : value ≠ []) : stale_uid_check offset reading (some value) = (do
    let timedelta_seconds ← get_timedelta_seconds offset reading (← str_to_datetime (← value.decode))
    return decide (15 ≤ timedelta_seconds)) := by
  cases value with
  | nil => exact absurd rfl filled
  | cons first rest => rfl

end

section
variable {offset₀ reading₀ offset₁ reading₁ : Int}

/-- The check compares the local times in whole seconds. -/
theorem decision_dated (dated₀ : Dated offset₀ reading₀) (dated₁ : Dated offset₁ reading₁) :
    decision offset₀ reading₀ offset₁ reading₁ =
      .ok (Utils.stale_uid_check (reading₁ / 1000000 + offset₁) (some (reading₀ / 1000000 + offset₀))) := by
  obtain ⟨now,value,written,filled,decoded,seconds⟩ := access_value_dated dated₀
  obtain ⟨read,parsed,same,none⟩ := str_to_datetime_strftime now
  have cast : ∀ n : Int, (15 : Rat) ≤ n ↔ 15 ≤ n := fun n => by exact_mod_cast Iff.rfl
  rw [decision,written,ok_bind,stale_check_filled filled,decoded,ok_bind,parsed,ok_bind,get_timedelta_dated dated₁ none,
    ok_bind,pure_ok,Utils.stale_uid_check,same,seconds]
  refine congrArg Except.ok (decide_eq_decide.mpr ?_)
  rw [cast]
  omega

theorem decision_undated (undated : ¬ (Dated offset₀ reading₀ ∧ Dated offset₁ reading₁)) :
    decision offset₀ reading₀ offset₁ reading₁ = .error .ValueError := by
  by_cases dated₀ : Dated offset₀ reading₀
  · obtain ⟨now,value,written,filled,decoded,_⟩ := access_value_dated dated₀
    obtain ⟨read,parsed,_,_⟩ := str_to_datetime_strftime now
    rw [decision,written,ok_bind,stale_check_filled filled,decoded,ok_bind,parsed,ok_bind,get_timedelta_seconds,
      curr_datetime_undated (fun dated₁ => undated ⟨dated₀,dated₁⟩)]
    rfl
  · rw [decision,access_value,curr_datetime_undated dated₀]
    rfl

/-- The check finds the seconds between the readings exactly when both local times have a date and
    the offsets do not reach over the limit. -/
theorem decision_iff : decision offset₀ reading₀ offset₁ reading₁ =
      .ok (decide (15 ≤ reading₁ / 1000000 - reading₀ / 1000000)) ↔
    (Dated offset₀ reading₀ ∧ Dated offset₁ reading₁) ∧
      if 15 ≤ reading₁ / 1000000 - reading₀ / 1000000 then
        offset₀ - offset₁ ≤ reading₁ / 1000000 - reading₀ / 1000000 - 15
      else offset₁ - offset₀ < 15 - (reading₁ / 1000000 - reading₀ / 1000000) := by
  by_cases dated : Dated offset₀ reading₀ ∧ Dated offset₁ reading₁
  · rw [decision_dated dated.1 dated.2,Utils.stale_uid_check]
    simp only [dated,true_and,and_self,Except.ok.injEq,decide_eq_decide]
    split <;> omega
  · rw [decision_undated dated]
    exact iff_of_false (fun raised => nomatch raised) (fun both => dated both.1)

end

/-- Hosts whose offsets stay the same are always right exactly when the offsets are equal. -/
theorem always_right_iff {offset₀ offset₁ : Int} (day₀ : -86400 < offset₀ ∧ offset₀ < 86400)
    (day₁ : -86400 < offset₁ ∧ offset₁ < 86400) :
    (∀ reading₀ reading₁, reading₀ ≤ reading₁ → Dated offset₀ reading₀ → Dated offset₁ reading₁ →
        decision offset₀ reading₀ offset₁ reading₁ = .ok (decide (15 ≤ reading₁ / 1000000 - reading₀ / 1000000))) ↔
      offset₀ = offset₁ := by
  constructor
  · intro right
    have dated : Dated offset₀ 0 ∧ Dated offset₁ 14000000 ∧ Dated offset₁ 15000000 := by
      simp only [Dated]
      omega
    -- A second before the limit a relay that is ahead is wrong, and at the limit one that is behind.
    have before := (decision_iff.mp (right 0 14000000 (by decide) dated.1 dated.2.1)).2
    have limit := (decision_iff.mp (right 0 15000000 (by decide) dated.1 dated.2.2)).2
    rw [if_neg (by decide)] at before
    rw [if_pos (by decide)] at limit
    omega
  · rintro rfl reading₀ reading₁ _ dated₀ dated₁
    refine decision_iff.mpr ⟨⟨dated₀,dated₁⟩, ?_⟩
    split <;> omega

/-! ### Instants -/

/-- What a clock reads at an instant: the microseconds that have passed. -/
noncomputable def clock (instant : ℝ) : Int := ⌊instant * 1000000⌋

theorem clock_seconds (instant : ℝ) : clock instant / 1000000 = ⌊instant⌋ := by
  have scaled := Int.mul_cast_floor_div_cancel_of_pos (by decide : (0 : Int) < 1000000) instant
  rwa [Int.cast_ofNat] at scaled

/-- The check finds the whole seconds that have passed between two instants exactly when the local
    times of both hosts have a date and their offsets do not reach over the limit. -/
theorem elapsed_iff (offset₀ offset₁ : Int) (t₀ t₁ : ℝ) :
    decision offset₀ (clock t₀) offset₁ (clock t₁) = .ok (decide (15 ≤ ⌊t₁⌋ - ⌊t₀⌋)) ↔
      (Dated offset₀ (clock t₀) ∧ Dated offset₁ (clock t₁)) ∧
        if 15 ≤ ⌊t₁⌋ - ⌊t₀⌋ then offset₀ - offset₁ ≤ ⌊t₁⌋ - ⌊t₀⌋ - 15 else offset₁ - offset₀ < 15 - (⌊t₁⌋ - ⌊t₀⌋) := by
  rw [← clock_seconds t₀,← clock_seconds t₁]
  exact decision_iff

/-- A relay one hour ahead finds an access stale at the instant at which it is written. -/
theorem stale_at_once : decision 0 (clock 0) 3600 (clock 0) = .ok true ∧ ¬ 15 ≤ ⌊(0 : ℝ)⌋ - ⌊(0 : ℝ)⌋ := by
  have zero : clock 0 = 0 := by simp [clock]
  rw [zero]
  exact ⟨by decide +kernel, by simp⟩

end AcapyRedis.Timestamps
