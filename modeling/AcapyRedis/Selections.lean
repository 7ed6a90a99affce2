import AcapyRedis.RoundRobin
import AcapyRedis.Inbound

/-!
`get_new_valid_uid` under concurrency. Selections run at the same time as each other and as
anything else that instances and calls do, single commands being atomic and without errors.
The iterator and the uids are read by commands of their own, so both can be out of date; the
index is in range or the first uid is taken, and what is written is never negative
(`selections_valid`).
-/
namespace AcapyRedis.Selections
open AcapyRedis.Programs AcapyRedis.Programs.Program AcapyRedis.Python AcapyRedis.RedisStore AcapyRedis.Utils
open AcapyRedis.Threads AcapyRedis.Threads.Discipline AcapyRedis.RoundRobin AcapyRedis.Inbound

/-! ### Selections and the rest -/

/-- What a thread returns: the uid that a selection was to ignore and the one that it chose. -/
inductive Returned
  | selected (to_ignore_uid : Option Uid) (uid : Uid)
  | other

def select (to_ignore_uid : Option Uid) (patience : Nat) : Redis Returned := do
  return .selected to_ignore_uid (← get_new_valid_uid to_ignore_uid patience)

/-- Any other program, however it ends. -/
def other (p : Redis Unit) : Redis Returned := do
  let _ ← p.attempt
  return .other

/-- The commands of everything else: they write no iterator and look for no uids. -/
def Elsewhere : Command → Prop
  | .set_round_robin _ => False
  | .hkeys_recip_keys => False
  | _ => True

inductive IsActor : Redis Returned → Prop
  | selects (to_ignore_uid : Option Uid) (patience : Nat) : IsActor (select to_ignore_uid patience)
  | others (p : Redis Unit) : Issues Elsewhere p → IsActor (other p)

abbrev Selecting := Pool Command Command.Reply PyError Returned Store

/-- What the last `HKEYS` of a thread has listed. -/
def listed (log : List (Event Command Command.Reply)) : Option (List Uid) :=
  log.foldl (fun last event => match event with
    | ⟨.hkeys_recip_keys, uid_list⟩ => some uid_list
    | _ => last) none

theorem register_elsewhere (uid : Uid) : Issues Elsewhere (register uid) :=
  issues_bind (issues_call trivial) (fun _ => issues_call trivial)

/-- A uid is removed. -/
theorem remove_elsewhere (uid : Uid) : Issues Elsewhere (redis (.hdel_recip_keys uid)) := issues_call trivial

/-! ### What a selection knows -/

inductive Stage
  /-- No uid was listed, and the iterator is known to be there or not. -/
  | asking (present : Bool)
  /-- Uids were listed. -/
  | found (uid_list : List Uid)
  /-- The iterator was moved on after that. -/
  | moved (uid_list : List Uid)

namespace Stage

def next (g : Stage) : Event Command Command.Reply → Stage
  | ⟨.hkeys_recip_keys, []⟩ => match g with
    | .asking present => .asking present
    | _ => .asking false
  | ⟨.hkeys_recip_keys, first :: rest⟩ => .found (first :: rest)
  | ⟨.get_round_robin, some _⟩ => match g with
    | .asking _ => .asking true
    | _ => g
  | ⟨.set_round_robin _, _⟩ => match g with
    | .asking _ => .asking true
    | .found uid_list => .moved uid_list
    | .moved uid_list => .moved uid_list
  | _ => g

/-- After uids were listed only the iterator is written, once. -/
def may : Stage → Command → Prop
  | .moved _, _ => False
  | _, .set_round_robin value => 0 ≤ value
  | .asking _, _ => True
  | .found _, _ => False

def answers : Stage → Event Command Command.Reply → Prop
  | g, ⟨.get_round_robin, reply⟩ => (g = .asking true → reply ≠ none) ∧ ∀ n, reply = some n → 0 ≤ n
  | _, ⟨.hkeys_recip_keys, uid_list⟩ => uid_list.Nodup
  | _, _ => True

/-- How a thread may end. -/
def ends : Except PyError Returned → Stage → Prop
  | .ok (.selected to_ignore_uid uid), .moved uid_list => Choosable to_ignore_uid uid_list uid
  | .ok .other, .asking _ => True
  | _, _ => False

/-- A selection is only still in its loop when no uid was listed. -/
def idle : Stage → Prop
  | .asking _ => True
  | _ => False

end Stage

def chooser : Discipline Command Command.Reply Stage := ⟨.asking false, Stage.next, Stage.may, Stage.answers⟩

/-- The property of the programs. -/
def Chooses (p : Redis Returned) (g : Stage) : Prop := chooser.Proceeds Stage.idle Stage.ends p g

/-! ### Programs -/

/-- Taking a uid from a listing: the iterator is written and then a uid of it is returned. -/
theorem take_uid_chooses {ignored : Option Uid} {uid_list : List Uid} (distinct : uid_list.Nodup) {next_iter : Int}
    (nonneg : 0 ≤ next_iter) {first : Uid} {rest : List Uid} (chosen : candidates ignored uid_list = first :: rest) :
    Chooses (do return .selected ignored (← take_uid next_iter first rest)) (.found uid_list) := by
  have member : (subscript (first :: rest) next_iter).getD first ∈ candidates ignored uid_list := by
    rw [chosen]
    exact picked_mem (show picked next_iter (first :: rest) = some _ from rfl)
  refine ⟨?_, fun _ _ => candidates_choosable distinct member⟩
  show 0 ≤ moved_on next_iter (first :: rest).length
  exact moved_on_nonneg nonneg _

/-- The iterator is read as one that is not negative, and is there then. -/
theorem read_round_robin_chooses {rest : Int → Redis Returned} (later : ∀ n, 0 ≤ n → Chooses (rest n) (.asking true))
    (present : Bool) : Chooses (read_round_robin >>= rest) (.asking present) := by
  have again : Chooses (Commands.read_again >>= rest) (.asking true) := by
    refine ⟨trivial, fun reply admitted => ?_⟩
    cases reply with
    | none => exact absurd rfl (admitted.1 rfl)
    | some n => exact later n (admitted.2 n rfl)
  refine ⟨trivial, fun reply admitted => ?_⟩
  cases reply with
  | none => exact ⟨le_refl (0 : Int), fun _ _ => again⟩
  | some n => exact again

theorem select_chooses (ignored : Option Uid) (patience : Nat) :
    ∀ present, Chooses (select ignored patience) (.asking present) := by
  induction patience with
  | zero => exact fun _ => trivial
  | succ patience ih =>
    intro present
    rw [select,get_new_valid_uid,bind_bind]
    refine read_round_robin_chooses (fun n nonneg => ?_) present
    refine ⟨trivial, fun uid_list distinct => ?_⟩
    cases uid_list with
    | nil => cases ignored <;> exact ⟨trivial, fun _ _ => ih true⟩
    | cons head tail =>
      obtain ⟨first,rest,chosen⟩ : ∃ first rest, candidates ignored (head :: tail) = first :: rest :=
        List.exists_cons_of_ne_nil (candidates_ne_nil (List.cons_ne_nil head tail))
      simp only [Program.bind,chosen]
      exact take_uid_chooses distinct nonneg chosen

theorem others_choose {p : Redis Unit} (elsewhere : Issues Elsewhere p) :
    ∀ present, Chooses (other p) (.asking present) := by
  induction p with
  | done value => exact fun _ => trivial
  | raise error => exact fun _ => trivial
  | waiting => exact fun _ => trivial
  | command c next ih =>
    intro present
    have rest := fun reply => ih (.ok reply) (elsewhere.2 reply trivial)
    have issued := elsewhere.1
    cases c with
    | set_round_robin value => exact issued.elim
    | hkeys_recip_keys => exact issued.elim
    | get_round_robin =>
      refine ⟨trivial, fun reply _ => ?_⟩
      cases reply with
      | none => exact rest none present
      | some n => exact rest (some n) true
    | _ => exact ⟨trivial, fun reply _ => rest reply present⟩

theorem actor_chooses {p : Redis Returned} (actor : IsActor p) : Chooses p chooser.first := by
  cases actor with
  | selects ignored patience => exact select_chooses ignored patience false
  | others p elsewhere => exact others_choose elsewhere false

/-! ### One command -/

/-- The iterator is not negative, and it is there for whoever knows that. -/
structure Counted (s : Store) (gs : List Stage) : Prop where
  iterator : ∀ n, s.round_robin_iterator = some n → 0 ≤ n
  present : .asking true ∈ gs → s.round_robin_iterator ≠ none

section
variable {s : Store} {gs : List Stage} {g : Stage}

theorem counted_answers (counted : Counted s gs) (here : g ∈ gs) (c : Command) (choice : Choice) :
    g.answers ⟨c, (exec c choice s).1⟩ := by
  cases c with
  | get_round_robin => exact ⟨fun knows => counted.present (knows ▸ here), counted.iterator⟩
  | hkeys_recip_keys =>
    exact (arranged_perm choice.uids s.uid_recip_keys_map.keys).nodup_iff.mpr s.uid_recip_keys_map.keys_nodup
  | _ => cases g <;> trivial

/-- A thread that knows that the iterator is there knew it, has read it or has written it. -/
theorem next_present {event : Event Command Command.Reply} (knows : g.next event = .asking true) :
    g = .asking true ∨ (∃ n, event = ⟨.get_round_robin, some n⟩) ∨ ∃ value reply, event = ⟨.set_round_robin value, reply⟩ := by
  obtain ⟨c,reply⟩ := event
  cases c with
  | get_round_robin =>
    cases reply with
    | none => exact .inl (by cases g <;> exact knows)
    | some n => exact .inr (.inl ⟨n,rfl⟩)
  | set_round_robin value => exact .inr (.inr ⟨value,reply,rfl⟩)
  | hkeys_recip_keys =>
    cases reply with
    | nil => cases g <;> simp_all [Stage.next]
    | cons first rest => cases knows
  | _ => exact .inl knows

theorem step_counted (counted : Counted s gs) {i : Nat} (here : gs[i]? = some g) {c : Command} (choice : Choice)
    (may : g.may c) : Counted (exec c choice s).2 (gs.set i (g.next ⟨c, (exec c choice s).1⟩)) := by
  have written : ∀ value, c = .set_round_robin value → 0 ≤ value := by
    rintro value rfl
    cases g with
    | asking present => exact may
    | found uid_list => exact may
    | moved uid_list => exact may.elim
  have kept : (∀ value, c ≠ .set_round_robin value) →
      (exec c choice s).2.round_robin_iterator = s.round_robin_iterator := by
    intro other
    cases c <;> first | rfl | exact absurd rfl (other _)
  constructor
  · intro n stored
    by_cases writes : ∃ value, c = .set_round_robin value
    · obtain ⟨value,rfl⟩ := writes
      cases stored
      exact written _ rfl
    · rw [kept (fun value same => writes ⟨value,same⟩)] at stored
      exact counted.iterator n stored
  · intro known
    by_cases writes : ∃ value, c = .set_round_robin value
    · obtain ⟨value,rfl⟩ := writes
      exact fun none => by cases none
    · rw [kept (fun value same => writes ⟨value,same⟩)]
      rcases List.mem_or_eq_of_mem_set known with old | new
      · exact counted.present old
      · rcases next_present new.symm with knew | ⟨n,read⟩ | ⟨value,_,wrote⟩
        · exact counted.present (knew ▸ List.mem_of_getElem? here)
        · obtain ⟨rfl,reply⟩ := Sigma.mk.inj read
          rw [show s.round_robin_iterator = some n from eq_of_heq reply]
          exact Option.some_ne_none n
        · exact absurd ⟨value, (Sigma.mk.inj wrote).1⟩ writes

end

/-! ### Whole runs -/

theorem reach_counted {init : Store} {pool : Selecting} (start : ∀ n, init.round_robin_iterator = some n → 0 ≤ n)
    (reach : Reach exec IsActor anyOrder init pool) :
    Counted pool.store (chooser.ghosts pool) ∧
    ∀ thread ∈ pool.threads, Chooses thread.program (chooser.ghost thread.log) := by
  apply Discipline.reach_lasting chooser Chooses (proceeds_lasting _ _ _) Counted _ _ _ _ _ reach
  · exact ⟨start, fun knows => by cases knows⟩
  · intro s gs counted
    refine ⟨counted.iterator, fun knows => ?_⟩
    rcases List.mem_append.mp knows with old | new
    · exact counted.present old
    · cases List.mem_singleton.mp new
  · exact fun _ actor => actor_chooses actor
  · exact fun s gs log c choice counted here _ => counted_answers counted here c choice
  · exact fun s gs i log c choice counted here may _ => step_counted counted here choice may

/-- Only another listing takes back that uids were listed. -/
theorem next_listed {g : Stage} {uid_list : List Uid} (known : g = .found uid_list ∨ g = .moved uid_list) (c : Command)
    (reply : c.Reply) (silent : c ≠ .hkeys_recip_keys) :
    g.next ⟨c, reply⟩ = .found uid_list ∨ g.next ⟨c, reply⟩ = .moved uid_list := by
  cases c with
  | hkeys_recip_keys => exact absurd rfl silent
  | set_round_robin value =>
    right
    rcases known with rfl | rfl <;> rfl
  | get_round_robin =>
    rcases known with rfl | rfl
    · exact .inl (by cases reply <;> rfl)
    · exact .inr (by cases reply <;> rfl)
  | _ => exact known

/-- A thread whose last `HKEYS` has listed uids is at the write of the iterator or past it. -/
theorem listed_stage (log : List (Event Command Command.Reply)) {uid_list : List Uid} (last : listed log = some uid_list)
    (some_uid : uid_list ≠ []) : chooser.ghost log = .found uid_list ∨ chooser.ghost log = .moved uid_list := by
  induction log using List.reverseRecOn with
  | nil => cases last
  | append_singleton log event ih =>
    rw [Discipline.ghost_snoc]
    obtain ⟨c,reply⟩ := event
    rw [listed,List.foldl_append] at last
    by_cases lists : c = .hkeys_recip_keys
    · subst lists
      cases last
      cases uid_list with
      | nil => exact absurd rfl some_uid
      | cons first rest => exact .inl rfl
    · refine next_listed (ih ?_) c reply lists
      cases c <;> first | exact last | exact absurd rfl lists

/-- A thread that knows a listing has chosen from it, or does so with its next command. -/
theorem chooses_listed {p : Redis Returned} {g : Stage} {uid_list : List Uid} (chooses : Chooses p g)
    (known : g = .found uid_list ∨ g = .moved uid_list) :
    ∃ ignored uid, Choosable ignored uid_list uid ∧ (p = .done (.selected ignored uid) ∨
      ∃ n next, 0 ≤ n ∧ p = .command (.set_round_robin n) next ∧ next (.ok ()) = .done (.selected ignored uid)) := by
  have last : ∀ {q : Redis Returned}, Chooses q (.moved uid_list) →
      ∃ ignored uid, Choosable ignored uid_list uid ∧ q = .done (.selected ignored uid) := by
    intro q settled
    cases q with
    | done value =>
      cases value with
      | selected ignored uid => exact ⟨ignored,uid,settled,rfl⟩
      | other => exact settled.elim
    | raise error => exact settled.elim
    | waiting => exact settled.elim
    | command c next => exact settled.1.elim
  rcases known with rfl | rfl
  · cases p with
    | done value => cases value <;> exact chooses.elim
    | raise error => exact chooses.elim
    | waiting => exact chooses.elim
    | command c next =>
      obtain ⟨may,rest⟩ := chooses
      cases c with
      | set_round_robin n =>
        obtain ⟨ignored,uid,choosable,returns⟩ := last (rest () trivial)
        exact ⟨ignored, uid, choosable, .inr ⟨n,next,may,rfl,returns⟩⟩
      | _ => exact may.elim
  · obtain ⟨ignored,uid,choosable,returned⟩ := last chooses
    exact ⟨ignored, uid, choosable, .inl returned⟩

/-- In every reachable state the iterator is absent or not negative, no thread has raised,
    and a thread whose `HKEYS` has listed uids has returned one of them, or does so after
    the next command, which writes the iterator; it is the ignored one only if it is alone. -/
theorem selections_valid {init : Store} {pool : Selecting} (start : ∀ n, init.round_robin_iterator = some n → 0 ≤ n)
    (reach : Reach exec IsActor anyOrder init pool) :
    (∀ n, pool.store.round_robin_iterator = some n → 0 ≤ n) ∧
    ∀ thread ∈ pool.threads, (∀ error, thread.program ≠ .raise error) ∧
      ∀ uid_list, listed thread.log = some uid_list → uid_list ≠ [] →
        ∃ ignored uid, Choosable ignored uid_list uid ∧ (thread.program = .done (.selected ignored uid) ∨
          ∃ n next, 0 ≤ n ∧ thread.program = .command (.set_round_robin n) next ∧
            next (.ok ()) = .done (.selected ignored uid)) := by
  obtain ⟨counted,choose⟩ := reach_counted start reach
  refine ⟨counted.iterator, fun thread there => ⟨fun error raised => ?_, fun uid_list last some_uid => ?_⟩⟩
  · have chooses := choose thread there
    rw [raised] at chooses
    cases stage : chooser.ghost thread.log <;> rw [stage] at chooses <;> exact chooses
  · exact chooses_listed (choose thread there) (listed_stage thread.log last some_uid)

/-! ### A uid that is removed meanwhile -/

/-- Two instances register, a selection that is to ignore the first lists both, and the second is removed
    before the selection has moved the iterator on. -/
def removal : List (Move Command Command.Reply PyError Returned Choice) :=
  [.start (other (register uid_a)), .start (other (register uid_b)), .start (select (some uid_a) 1),
    .start (other (redis (.hdel_recip_keys uid_b)))] ++
  [0, 0, 1, 1, 2, 2, 2, 2, 3].map (fun thread => .step thread default)

theorem selections_valid_removal : ∃ pool : Selecting, Reach exec IsActor anyOrder Store.empty pool ∧
    pool.store.uid_recip_keys_map.keys = [uid_a] ∧ (∀ n, pool.store.round_robin_iterator = some n → 0 ≤ n) ∧
    ∃ thread ∈ pool.threads, ∃ uid_list ignored uid, listed thread.log = some uid_list ∧ uid_list.length = 2 ∧
      Choosable ignored uid_list uid := by
  have ran : ((⟨Store.empty, []⟩ : Selecting).moves exec (fun _ _ _ => true) removal).any (fun pool =>
      decide (pool.store.uid_recip_keys_map.keys = [uid_a]) &&
      pool.threads.any (fun thread => (listed thread.log).any (fun uid_list => uid_list.length == 2))) = true := by
    decide
  have starts : ∀ program ∈ started removal, IsActor program := by
    intro program member
    simp only [removal,started,List.cons_append,List.nil_append,List.map_cons,List.map_nil,List.mem_cons,
      List.not_mem_nil,or_false] at member
    rcases member with rfl | rfl | rfl | rfl
    · exact .others _ (register_elsewhere uid_a)
    · exact .others _ (register_elsewhere uid_b)
    · exact .selects (some uid_a) 1
    · exact .others _ (remove_elsewhere uid_b)
  obtain ⟨pool,reach,tested⟩ := reach_of_test (fun _ _ _ _ => trivial) removal _ ran starts
  simp only [Bool.and_eq_true,decide_eq_true_eq,List.any_eq_true,Option.any_eq_true,beq_iff_eq] at tested
  obtain ⟨left,thread,there,uid_list,last,two⟩ := tested
  obtain ⟨nonneg,each⟩ := selections_valid (fun n none => by cases none) reach
  have some_uid : uid_list ≠ [] := fun none => by simp [none] at two
  obtain ⟨ignored,uid,choosable,_⟩ := (each thread there).2 uid_list last some_uid
  exact ⟨pool, reach, left, nonneg, thread, there, uid_list, ignored, uid, last, two, choosable⟩

end AcapyRedis.Selections
