import AcapyRedis.Threads
import AcapyRedis.Utils

/-!
What the parts of a call issue and let through. Choosing a uid works on the iterator and
reads the uids (`Selects`), the first loop over the keys of a stale uid reads counters
(`Counts`); so neither touches what a discipline follows elsewhere. No call pushes or
pops a message (`process_payload_issues`) or catches the error of a command
(`process_payload_escapes`).
-/
namespace AcapyRedis.Commands
open AcapyRedis.Programs AcapyRedis.Programs.Program AcapyRedis.Python AcapyRedis.RedisStore AcapyRedis.Utils
open AcapyRedis.Threads AcapyRedis.Threads.Discipline

/-! ### Commands -/

/-- The commands of `get_new_valid_uid`. -/
def Selects : Command → Prop
  | .get_round_robin => True
  | .set_round_robin _ => True
  | .hkeys_recip_keys => True
  | .ping => True
  | _ => False

/-- The command of the first loop over the keys of a stale uid. -/
def Counts : Command → Prop
  | .hget_pending _ => True
  | _ => False

/-- The commands of a call: it registers no instance and moves no message. -/
def InCall : Command → Prop
  | .hset_no_recip_keys _ => False
  | .hset_last_access _ _ => False
  | .rpush _ _ => False
  | .blpop _ => False
  | _ => True

/-- The second read of the iterator. -/
def read_again : Redis Int := redis .get_round_robin >>= fun
  | some next_iter => return next_iter
  | none => .raise .AttributeError

theorem read_round_robin_issues : Issues Selects read_round_robin := by
  have again : Issues Selects read_again :=
    issues_bind (issues_call trivial) (fun read => by cases read <;> trivial)
  refine issues_bind (issues_call trivial) (fun present => ?_)
  cases present with
  | some n => exact again
  | none => exact issues_bind (issues_call trivial) (fun _ => again)

theorem get_new_valid_uid_issues (ignored : Option Uid) (patience : Nat) :
    Issues Selects (get_new_valid_uid ignored patience) := by
  induction patience with
  | zero => trivial
  | succ patience ih =>
    refine issues_bind read_round_robin_issues (fun next_iter => issues_bind (issues_call trivial) (fun uid_list => ?_))
    cases candidates ignored uid_list with
    | nil => exact issues_bind (issues_call trivial) (fun _ => ih)
    | cons first rest => exact issues_bind (issues_call trivial) (fun _ => trivial)

theorem any_pending_issues (old : Uid) (ks : List RecipKey) : Issues Counts (any_pending old ks) := by
  induction ks with
  | nil => trivial
  | cons k rest ih =>
    refine issues_bind (issues_call trivial) (fun count => ?_)
    cases count with
    | none => exact ih
    | some count =>
      show Issues Counts (if 1 ≤ count then _ else _)
      split
      · trivial
      · exact ih

theorem selects_inCall (c : Command) (selects : Selects c) : InCall c := by
  cases c <;> first | exact selects.elim | trivial

theorem counts_inCall (c : Command) (counts : Counts c) : InCall c := by
  cases c <;> first | exact counts.elim | trivial

theorem read_list_issues (u : Uid) : Issues InCall (get_recip_keys_list_for_uid u) :=
  issues_bind (issues_call trivial) (fun _ => trivial)

theorem assign_issues (patience : Nat) (k : RecipKey) : Issues InCall (assign_recip_key_to_new_uid patience k) := by
  refine issues_bind ((get_new_valid_uid_issues none patience).mono selects_inCall) (fun u => ?_)
  refine issues_bind (issues_call trivial) (fun _ => issues_bind (read_list_issues u) (fun ks => ?_))
  have finish : Issues InCall (do redis (.hset_pending (uid_recip_key u k) 0); return u : Redis Uid) :=
    issues_bind (issues_call trivial) (fun _ => trivial)
  show Issues InCall (if k ∉ ks.dedup then _ else _)
  split
  · exact issues_bind (issues_call trivial) (fun _ => finish)
  · exact finish

theorem reassign_issues (patience : Nat) (old : Uid) (k : RecipKey) :
    Issues InCall (reassign_recip_key_to_uid patience old k) := by
  refine issues_bind ((get_new_valid_uid_issues (some old) patience).mono selects_inCall) (fun new => ?_)
  refine issues_bind (read_list_issues old) (fun olds => issues_bind (read_list_issues new) (fun news => ?_))
  refine issues_bind (issues_call trivial) (fun _ => issues_bind (issues_call trivial) (fun count => ?_))
  refine issues_bind (issues_call trivial) (fun _ => issues_bind (issues_call trivial) (fun _ => ?_))
  refine issues_bind (issues_call trivial) (fun _ => ?_)
  cases count with
  | some count => exact issues_bind (issues_call trivial) (fun _ => trivial)
  | none => trivial

theorem reassign_all_issues (patience : Nat) (old : Uid) (key : RecipKey) (ks : List RecipKey) :
    ∀ plugin_uid, Issues InCall (reassign_all patience old key plugin_uid ks) := by
  induction ks with
  | nil => exact fun _ => trivial
  | cons k rest ih => exact fun _ => issues_bind (reassign_issues patience old k) (fun _ => ih _)

theorem evacuate_issues (patience : Nat) (old : Uid) (key : RecipKey) : Issues InCall (evacuate patience old key) := by
  refine issues_bind (read_list_issues old) (fun ks => ?_)
  refine issues_bind ((any_pending_issues old ks).mono counts_inCall) (fun pending => ?_)
  cases pending with
  | false => trivial
  | true =>
    refine issues_bind (reassign_all_issues patience old key ks old) (fun u => ?_)
    refine issues_bind (read_list_issues old) (fun left => ?_)
    show Issues InCall (if left.isEmpty then _ else _)
    split
    · exact issues_bind (issues_call trivial) (fun _ => trivial)
    · trivial

theorem find_or_assign_issues (patience : Nat) (k : RecipKey) : Issues InCall (find_or_assign patience k) := by
  refine issues_bind (issues_call trivial) (fun present => ?_)
  cases present with
  | true => exact issues_bind (issues_call trivial) (fun owner => by cases owner <;> trivial)
  | false => exact assign_issues patience k

theorem process_recip_key_issues (patience : Nat) (now : Int) (k : RecipKey) :
    Issues InCall (process_recip_key patience now k) := by
  refine issues_bind (find_or_assign_issues patience k) (fun u => issues_bind (issues_call trivial) (fun access => ?_))
  show Issues InCall (if stale_uid_check now access then _ else _)
  split
  · exact issues_bind (evacuate_issues patience u k) (fun _ => issues_call trivial)
  · exact issues_call trivial

/-- A call pushes and pops nothing. -/
theorem process_payload_issues (json_loads : Bytes ⊕ Text → Except PyError Json) (patience : Nat) (now : Int)
    (payload : Bytes) (topic : String) :
    Issues InCall (process_payload_recip_key json_loads patience now payload topic) := by
  rw [process_payload_recip_key]
  cases recip_key_of json_loads payload with
  | error error => trivial
  | ok k => exact issues_bind (process_recip_key_issues patience now k) (fun _ => trivial)

/-! ### Errors -/

theorem read_round_robin_escapes : read_round_robin.Escapes := by
  have rest : read_again.Escapes :=
    escapes_bind (escapes_call _) (fun again => by cases again <;> trivial)
  refine escapes_bind (escapes_call _) (fun present => ?_)
  cases present with
  | some n => exact rest
  | none => exact escapes_bind (escapes_call _) (fun _ => rest)

theorem get_new_valid_uid_escapes (ignored : Option Uid) (patience : Nat) :
    (get_new_valid_uid ignored patience).Escapes := by
  induction patience with
  | zero => trivial
  | succ patience ih =>
    refine escapes_bind read_round_robin_escapes (fun next_iter => escapes_bind (escapes_call _) (fun uid_list => ?_))
    cases candidates ignored uid_list with
    | nil => exact escapes_bind (escapes_call _) (fun _ => ih)
    | cons first rest => exact escapes_bind (escapes_call _) (fun _ => escapes_done _)

theorem read_list_escapes (u : Uid) : (get_recip_keys_list_for_uid u).Escapes :=
  escapes_bind (escapes_call _) (fun _ => escapes_done _)

theorem assign_escapes (patience : Nat) (k : RecipKey) : (assign_recip_key_to_new_uid patience k).Escapes := by
  refine escapes_bind (get_new_valid_uid_escapes none patience) (fun u => ?_)
  refine escapes_bind (escapes_call _) (fun _ => escapes_bind (read_list_escapes u) (fun ks => ?_))
  have finish : (do redis (.hset_pending (uid_recip_key u k) 0); return u : Redis Uid).Escapes :=
    escapes_bind (escapes_call _) (fun _ => escapes_done u)
  show (if k ∉ ks.dedup then _ else _ : Redis Uid).Escapes
  split
  · exact escapes_bind (escapes_call _) (fun _ => finish)
  · exact finish

theorem reassign_escapes (patience : Nat) (old : Uid) (k : RecipKey) :
    (reassign_recip_key_to_uid patience old k).Escapes := by
  refine escapes_bind (get_new_valid_uid_escapes (some old) patience) (fun new => ?_)
  refine escapes_bind (read_list_escapes old) (fun olds => escapes_bind (read_list_escapes new) (fun news => ?_))
  refine escapes_bind (escapes_call _) (fun _ => escapes_bind (escapes_call _) (fun count => ?_))
  refine escapes_bind (escapes_call _) (fun _ => escapes_bind (escapes_call _) (fun _ => ?_))
  refine escapes_bind (escapes_call _) (fun _ => ?_)
  cases count with
  | some count => exact escapes_bind (escapes_call _) (fun _ => escapes_done new)
  | none => exact escapes_done new

theorem any_pending_escapes (old : Uid) (ks : List RecipKey) : (any_pending old ks).Escapes := by
  induction ks with
  | nil => trivial
  | cons k rest ih =>
    refine escapes_bind (escapes_call _) (fun count => ?_)
    cases count with
    | none => exact ih
    | some count =>
      show (if 1 ≤ count then _ else _ : Redis Bool).Escapes
      split
      · trivial
      · exact ih

theorem reassign_all_escapes (patience : Nat) (old : Uid) (key : RecipKey) (ks : List RecipKey) :
    ∀ plugin_uid, (reassign_all patience old key plugin_uid ks).Escapes := by
  induction ks with
  | nil => exact fun _ => trivial
  | cons k rest ih => exact fun _ => escapes_bind (reassign_escapes patience old k) (fun _ => ih _)

theorem evacuate_escapes (patience : Nat) (old : Uid) (key : RecipKey) : (evacuate patience old key).Escapes := by
  refine escapes_bind (read_list_escapes old) (fun ks => escapes_bind (any_pending_escapes old ks) (fun pending => ?_))
  cases pending with
  | false => trivial
  | true =>
    refine escapes_bind (reassign_all_escapes patience old key ks old) (fun u => ?_)
    refine escapes_bind (read_list_escapes old) (fun left => ?_)
    show (if left.isEmpty then _ else _ : Redis Uid).Escapes
    split
    · exact escapes_bind (escapes_call _) (fun _ => escapes_done u)
    · trivial

theorem find_or_assign_escapes (patience : Nat) (k : RecipKey) : (find_or_assign patience k).Escapes := by
  refine escapes_bind (escapes_call _) (fun present => ?_)
  cases present with
  | true => exact escapes_bind (escapes_call _) (fun owner => by cases owner <;> trivial)
  | false => exact assign_escapes patience k

theorem process_recip_key_escapes (patience : Nat) (now : Int) (k : RecipKey) :
    (process_recip_key patience now k).Escapes := by
  refine escapes_bind (find_or_assign_escapes patience k) (fun u => escapes_bind (escapes_call _) (fun access => ?_))
  show (if stale_uid_check now access then _ else _ : Redis Unit).Escapes
  split
  · exact escapes_bind (evacuate_escapes patience u k) (fun _ => escapes_call _)
  · exact escapes_call _

/-- No part of a call catches the error of a command. -/
theorem process_payload_escapes (json_loads : Bytes ⊕ Text → Except PyError Json) (patience : Nat) (now : Int)
    (payload : Bytes) (topic : String) :
    (process_payload_recip_key json_loads patience now payload topic).Escapes := by
  rw [process_payload_recip_key]
  cases recip_key_of json_loads payload with
  | error error => trivial
  | ok k => exact escapes_bind (process_recip_key_escapes patience now k) (fun _ => escapes_done _)

/-! ### Disciplines that leave calls alone -/

section
variable {G : Type} {D : Discipline Command Command.Reply G} {fails : PyError → Prop}

/-- A call keeps what its commands keep of a ghost state, whichever of them raise, and returns
    the list of the key. -/
theorem process_payload_endures (inv : G → Prop)
    (alone : ∀ g c, inv g → InCall c → D.may g c ∧ ∀ reply, inv (D.next g ⟨c, reply⟩))
    (json_loads : Bytes ⊕ Text → Except PyError Json) (patience : Nat) (now : Int) (payload : Bytes) (topic : String)
    {g : G} (start : inv g) :
    D.Endures fails
      (fun outcome g' => ∀ called, outcome = .ok called → inv g' ∧ called.2 = .inbound payload none ∧
        ∃ k, recip_key_of json_loads payload = .ok k ∧ called.1 = topic_list topic k)
      (process_payload_recip_key json_loads patience now payload topic) g := by
  rw [process_payload_recip_key]
  cases key : recip_key_of json_loads payload with
  | error error =>
    intro called returned
    cases returned
  | ok k =>
    have same : D.Endures fails (fun outcome g' => ∀ value, outcome = .ok value →
      inv g') (process_recip_key patience now k) g :=
      endures_of_escapes (process_recip_key_escapes patience now k) (fun _ _ _ _ returned => by cases returned)
        (follows_mono ((process_recip_key_issues patience now k).keeps alone start) (fun _ _ kept _ _ => kept))
    refine endures_bind (fun _ g' => inv g') (endures_mono same (fun outcome g' holds => ?_))
      (fun _ g' held called returned => ?_)
    · cases outcome with
      | ok value => exact holds value rfl
      | error error =>
        intro called returned
        cases returned
    · cases returned
      exact ⟨held,rfl,k,rfl,rfl⟩

end

end AcapyRedis.Commands
