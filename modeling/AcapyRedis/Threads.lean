import Mathlib.Data.List.Basic
import AcapyRedis.Programs

/-!
Client programs that run concurrently against one server, single commands being
atomic and interleaved in any order (`Pool`, `Reach`). Each thread keeps the log
of its own commands and replies. A `Discipline` follows a log with a ghost state;
`Discipline.Follows` says that a program keeps to it whatever the admitted
replies are, and `Discipline.reach_invariant` turns "one command of a disciplined
thread preserves the invariant" into "the invariant holds in every reachable
pool". `Discipline.follows_runs` and `Discipline.follows_fails` say the same of one
program that runs alone, also when one of its commands fails. In a `Guarded` pool the
check of a command may look at all threads, and commands may raise unexecuted;
`Discipline.guarded_invariant` is the rule for these.
-/
namespace AcapyRedis.Threads
open AcapyRedis.Programs

variable {C : Type} {R : C → Type} {E α S H G : Type}

/-- Writing what is there already. -/
theorem set_same {V : Type} {items : List V} {n : Nat} {item : V} (here : items[n]? = some item) :
    items.set n item = items := by
  obtain ⟨inside,rfl⟩ := List.getElem?_eq_some_iff.mp here
  exact List.set_getElem_self inside

/-- A program in progress and the events of its commands so far, oldest first. -/
structure Thread (C : Type) (R : C → Type) (E α : Type) where
  program : Program C R E α
  log : List (Event C R)

/-- The server and the threads that were started, in the order they were. -/
structure Pool (C : Type) (R : C → Type) (E α S : Type) where
  store : S
  threads : List (Thread C R E α)

/-- What the scheduler can do: start a program or let a thread issue its next command. -/
inductive Move (C : Type) (R : C → Type) (E α H : Type) where
  | start (program : Program C R E α)
  | step (thread : Nat) (choice : H)

namespace Pool

def start (pool : Pool C R E α S) (program : Program C R E α) : Pool C R E α S :=
  { pool with threads := pool.threads ++ [⟨program, []⟩] }

/-- The pool after thread `i` issued `c` and goes on with `next`. -/
def issue (exec : (c : C) → H → S → R c × S) (pool : Pool C R E α S) (i : Nat) (c : C)
    (next : Except E (R c) → Program C R E α) (log : List (Event C R)) (choice : H) : Pool C R E α S :=
  ⟨(exec c choice pool.store).2,
    pool.threads.set i ⟨next (.ok (exec c choice pool.store).1), log ++ [⟨c, (exec c choice pool.store).1⟩]⟩⟩

/-- The pool after a command of thread `i` raised without being executed. -/
def refuse (pool : Pool C R E α S) (i : Nat) (c : C) (next : Except E (R c) → Program C R E α)
    (log : List (Event C R)) (error : E) : Pool C R E α S :=
  { pool with threads := pool.threads.set i ⟨next (.error error), log⟩ }

/-- Every started program has returned or raised. -/
def quiet (pool : Pool C R E α S) : Bool := pool.threads.all (fun thread => thread.program.finished)

/-- One move, when it is possible and the command passes a check. -/
def move (exec : (c : C) → H → S → R c × S) (check : List (Event C R) → S → C → Bool) (pool : Pool C R E α S) :
    Move C R E α H → Option (Pool C R E α S)
  | .start program => some (pool.start program)
  | .step i choice =>
    match pool.threads[i]? with
    | some ⟨.command c next, log⟩ => if check log pool.store c then some (pool.issue exec i c next log choice) else none
    | _ => none

def moves (exec : (c : C) → H → S → R c × S) (check : List (Event C R) → S → C → Bool) (pool : Pool C R E α S) :
    List (Move C R E α H) → Option (Pool C R E α S)
  | [] => some pool
  | m :: rest => (pool.move exec check m).bind (fun next => next.moves exec check rest)

/-- One move, when it is possible and the command passes a check on the pool. -/
def guardedMove (exec : (c : C) → H → S → R c × S) (check : Pool C R E α S → Nat → C → Bool) (pool : Pool C R E α S) :
    Move C R E α H → Option (Pool C R E α S)
  | .start program => some (pool.start program)
  | .step i choice =>
    match pool.threads[i]? with
    | some ⟨.command c next, log⟩ => if check pool i c then some (pool.issue exec i c next log choice) else none
    | _ => none

def guardedMoves (exec : (c : C) → H → S → R c × S) (check : Pool C R E α S → Nat → C → Bool) (pool : Pool C R E α S) :
    List (Move C R E α H) → Option (Pool C R E α S)
  | [] => some pool
  | m :: rest => (pool.guardedMove exec check m).bind (fun next => next.guardedMoves exec check rest)

end Pool

/-- The pools reached from an initial server state without threads, when only
    `allowed` programs start and a thread whose log is `log` issues a command `c`
    in a server state `s` only if `permitted log s c`. -/
inductive Reach (exec : (c : C) → H → S → R c × S) (allowed : Program C R E α → Prop)
    (permitted : List (Event C R) → S → C → Prop) (init : S) : Pool C R E α S → Prop
  | initial : Reach exec allowed permitted init ⟨init, []⟩
  | start {pool program} : Reach exec allowed permitted init pool → allowed program →
      Reach exec allowed permitted init (pool.start program)
  | step {pool i c next log} (choice : H) : Reach exec allowed permitted init pool →
      pool.threads[i]? = some ⟨.command c next, log⟩ → permitted log pool.store c →
      Reach exec allowed permitted init (pool.issue exec i c next log choice)

/-- No restriction on the order of commands. -/
def anyOrder (_ : List (Event C R)) (_ : S) (_ : C) : Prop := True

/-- The programs that a list of moves starts. -/
def started : List (Move C R E α H) → List (Program C R E α)
  | [] => []
  | .start program :: rest => program :: started rest
  | .step _ _ :: rest => started rest

/-- A list of moves that runs under a check is a way to reach its last pool. -/
theorem reach_of_moves {exec : (c : C) → H → S → R c × S} {allowed : Program C R E α → Prop}
    {permitted : List (Event C R) → S → C → Prop} {check : List (Event C R) → S → C → Bool} {init : S}
    (sound : ∀ log s c, check log s c = true → permitted log s c) (ms : List (Move C R E α H))
    {pool last : Pool C R E α S} (reach : Reach exec allowed permitted init pool)
    (ran : pool.moves exec check ms = some last) (starts : ∀ program ∈ started ms, allowed program) :
    Reach exec allowed permitted init last := by
  induction ms generalizing pool with
  | nil => cases ran; exact reach
  | cons m rest ih =>
    obtain ⟨middle,moved,later⟩ := Option.bind_eq_some_iff.mp ran
    cases m with
    | start program =>
      cases moved
      exact ih (.start reach (starts program (by simp [started]))) later
        (fun other member => starts other (by simp [started,member]))
    | step i choice =>
      simp only [Pool.move] at moved
      split at moved
      · next found =>
        split at moved
        · next passed =>
          cases moved
          exact ih (.step choice reach found (sound _ _ _ passed)) later starts
        · cases moved
      · cases moved

/-- A list of moves whose last pool passes a test reaches a pool that passes it. -/
theorem reach_of_test {exec : (c : C) → H → S → R c × S} {allowed : Program C R E α → Prop}
    {permitted : List (Event C R) → S → C → Prop} {check : List (Event C R) → S → C → Bool} {init : S}
    (sound : ∀ log s c, check log s c = true → permitted log s c) (ms : List (Move C R E α H))
    (test : Pool C R E α S → Bool)
    (passes : ((⟨init, []⟩ : Pool C R E α S).moves exec check ms).any test = true)
    (starts : ∀ program ∈ started ms, allowed program) :
    ∃ pool, Reach exec allowed permitted init pool ∧ test pool = true := by
  obtain ⟨last,ran,passed⟩ := (Option.any_eq_true test _).mp passes
  exact ⟨last, reach_of_moves sound ms .initial ran starts, passed⟩

/-- The pools reached from an initial server state without threads, when only
    `allowed` programs start, thread `i` issues a command `c` in a pool only if
    `guard pool i c`, and a command may raise, unexecuted, an error that `fails` admits. -/
inductive Guarded (exec : (c : C) → H → S → R c × S) (allowed : Program C R E α → Prop)
    (guard : Pool C R E α S → Nat → C → Prop) (fails : E → Prop) (init : S) : Pool C R E α S → Prop
  | initial : Guarded exec allowed guard fails init ⟨init, []⟩
  | start {pool program} : Guarded exec allowed guard fails init pool → allowed program →
      Guarded exec allowed guard fails init (pool.start program)
  | step {pool i c next log} (choice : H) : Guarded exec allowed guard fails init pool →
      pool.threads[i]? = some ⟨.command c next, log⟩ → guard pool i c →
      Guarded exec allowed guard fails init (pool.issue exec i c next log choice)
  | fail {pool i c next log} (error : E) : Guarded exec allowed guard fails init pool →
      pool.threads[i]? = some ⟨.command c next, log⟩ → fails error →
      Guarded exec allowed guard fails init (pool.refuse i c next log error)

/-- No restriction on the commands that are issued. -/
def unguarded (_ : Pool C R E α S) (_ : Nat) (_ : C) : Prop := True

/-- A list of moves that runs under a check of the pool is a way to reach its last pool. -/
theorem guarded_of_moves {exec : (c : C) → H → S → R c × S} {allowed : Program C R E α → Prop}
    {guard : Pool C R E α S → Nat → C → Prop} {fails : E → Prop} {check : Pool C R E α S → Nat → C → Bool} {init : S}
    (sound : ∀ pool i c, check pool i c = true → guard pool i c) (ms : List (Move C R E α H))
    {pool last : Pool C R E α S} (reach : Guarded exec allowed guard fails init pool)
    (ran : pool.guardedMoves exec check ms = some last) (starts : ∀ program ∈ started ms, allowed program) :
    Guarded exec allowed guard fails init last := by
  induction ms generalizing pool with
  | nil => cases ran; exact reach
  | cons m rest ih =>
    obtain ⟨middle,moved,later⟩ := Option.bind_eq_some_iff.mp ran
    cases m with
    | start program =>
      cases moved
      exact ih (.start reach (starts program (by simp [started]))) later
        (fun other member => starts other (by simp [started,member]))
    | step i choice =>
      simp only [Pool.guardedMove] at moved
      split at moved
      · next found =>
        split at moved
        · next passed =>
          cases moved
          exact ih (.step choice reach found (sound _ _ _ passed)) later starts
        · cases moved
      · cases moved

/-- A list of moves whose last pool passes a test reaches a pool that passes it. -/
theorem guarded_of_test {exec : (c : C) → H → S → R c × S} {allowed : Program C R E α → Prop}
    {guard : Pool C R E α S → Nat → C → Prop} {fails : E → Prop} {check : Pool C R E α S → Nat → C → Bool} {init : S}
    (sound : ∀ pool i c, check pool i c = true → guard pool i c) (ms : List (Move C R E α H))
    (test : Pool C R E α S → Bool)
    (passes : ((⟨init, []⟩ : Pool C R E α S).guardedMoves exec check ms).any test = true)
    (starts : ∀ program ∈ started ms, allowed program) :
    ∃ pool, Guarded exec allowed guard fails init pool ∧ test pool = true := by
  obtain ⟨last,ran,passed⟩ := (Option.any_eq_true test _).mp passes
  exact ⟨last, guarded_of_moves sound ms .initial ran starts, passed⟩

/-! ### Disciplines -/

/-- Ghost states that follow the commands of a thread: where a thread begins, how
    an event moves it on, which commands it may issue and which replies these get. -/
structure Discipline (C : Type) (R : C → Type) (G : Type) where
  first : G
  next : G → Event C R → G
  may : G → C → Prop
  answers : G → Event C R → Prop

namespace Discipline

/-- The ghost state after a log. -/
def ghost (D : Discipline C R G) (log : List (Event C R)) : G := log.foldl D.next D.first

@[simp] theorem ghost_nil (D : Discipline C R G) : D.ghost [] = D.first := rfl
@[simp] theorem ghost_snoc (D : Discipline C R G) (log : List (Event C R)) (event : Event C R) :
    D.ghost (log ++ [event]) = D.next (D.ghost log) event := by simp [ghost]

/-- The program issues only commands that the discipline allows and ends in `post`,
    as long as its commands succeed with admitted replies. -/
def Follows (D : Discipline C R G) (post : Except E α → G → Prop) : Program C R E α → G → Prop
  | .done value, g => post (.ok value) g
  | .raise error, g => post (.error error) g
  | .waiting, _ => True
  | .command c next, g => D.may g c ∧
      ∀ reply, D.answers g ⟨c, reply⟩ → D.Follows post (next (.ok reply)) (D.next g ⟨c, reply⟩)

section
variable {D : Discipline C R G} {β : Type}

@[simp] theorem follows_done (post : Except E α → G → Prop) (value : α) (g : G) :
    D.Follows post (.done value) g ↔ post (.ok value) g := Iff.rfl
@[simp] theorem follows_raise (post : Except E α → G → Prop) (error : E) (g : G) :
    D.Follows post (.raise error) g ↔ post (.error error) g := Iff.rfl
@[simp] theorem follows_waiting (post : Except E α → G → Prop) (g : G) : D.Follows post .waiting g ↔ True := Iff.rfl
@[simp] theorem follows_command (post : Except E α → G → Prop) (c : C) (next : Except E (R c) → Program C R E α)
    (g : G) : D.Follows post (.command c next) g ↔
      D.may g c ∧ ∀ reply, D.answers g ⟨c, reply⟩ → D.Follows post (next (.ok reply)) (D.next g ⟨c, reply⟩) := Iff.rfl

/-- What a program continued by `rest` has to keep to after an outcome. -/
def Continues (D : Discipline C R G) (post : Except E β → G → Prop) (rest : α → Program C R E β) :
    Except E α → G → Prop
  | .ok value, g => D.Follows post (rest value) g
  | .error error, g => post (.error error) g

@[simp] theorem continues_ok (post : Except E β → G → Prop) (rest : α → Program C R E β) (value : α) (g : G) :
    D.Continues post rest (.ok value) g ↔ D.Follows post (rest value) g := Iff.rfl
@[simp] theorem continues_error (post : Except E β → G → Prop) (rest : α → Program C R E β) (error : E) (g : G) :
    D.Continues post rest (.error error) g ↔ post (.error error) g := Iff.rfl

@[simp] theorem follows_bind (post : Except E β → G → Prop) (p : Program C R E α) (rest : α → Program C R E β)
    (g : G) : D.Follows post (p >>= rest) g ↔ D.Follows (D.Continues post rest) p g := by
  induction p generalizing g with
  | done value => rfl
  | raise error => rfl
  | waiting => rfl
  | command c next ih =>
    exact and_congr_right (fun _ => forall_congr' (fun reply => imp_congr_right (fun _ => ih _ _)))

theorem follows_mono {post other : Except E α → G → Prop} {p : Program C R E α} {g : G}
    (follows : D.Follows post p g) (implies : ∀ outcome g', post outcome g' → other outcome g') :
    D.Follows other p g := by
  induction p generalizing g with
  | done value => exact implies _ _ follows
  | raise error => exact implies _ _ follows
  | waiting => trivial
  | command c next ih => exact ⟨follows.1, fun reply admitted => ih _ (follows.2 reply admitted)⟩

/-- What every event keeps holds after any program, when the discipline allows all commands. -/
theorem follows_always (inv : G → Prop) (may : ∀ g c, D.may g c) (kept : ∀ g event, inv g → inv (D.next g event))
    (p : Program C R E α) {g : G} (start : inv g) : D.Follows (fun _ g' => inv g') p g := by
  induction p generalizing g with
  | done value => exact start
  | raise error => exact start
  | waiting => trivial
  | command c next ih => exact ⟨may g c, fun reply _ => ih _ (kept g _ start)⟩

/-- Sequencing keeps a transitive relation between the ghost states before and after. -/
theorem follows_bind_rel (rel : G → G → Prop) (trans : ∀ {g g' g''}, rel g g' → rel g' g'' → rel g g'')
    {p : Program C R E α} {rest : α → Program C R E β} {g : G} (first : D.Follows (fun _ g' => rel g g') p g)
    (later : ∀ value g', rel g g' → D.Follows (fun _ g'' => rel g' g'') (rest value) g') :
    D.Follows (fun _ g'' => rel g g'') (p >>= rest) g := by
  rw [follows_bind]
  refine follows_mono first (fun outcome g' near => ?_)
  cases outcome with
  | ok value => exact follows_mono (later value g' near) (fun _ _ far => trans near far)
  | error error => exact near

/-- The discipline that only says which commands a program may issue. -/
def only (issues : C → Prop) : Discipline C R Unit := ⟨(), fun _ _ => (), fun _ c => issues c, fun _ _ => True⟩

/-- The program issues only such commands, also when it raises. -/
def Issues (issues : C → Prop) (p : Program C R E α) : Prop := (only issues).Follows (fun _ _ => True) p ()

section
variable {issues : C → Prop} {p : Program C R E α}

theorem issues_call {c : C} (such : issues c) : Issues issues (Program.call c : Program C R E (R c)) :=
  ⟨such, fun _ _ => trivial⟩

theorem issues_bind {rest : α → Program C R E β} (first : Issues issues p)
    (later : ∀ value, Issues issues (rest value)) : Issues issues (p >>= rest) :=
  follows_bind_rel (fun _ _ => True) (fun _ _ => trivial) first (fun value _ _ => later value)

/-- What none of the commands of a program writes is the same after a run of it. -/
theorem Issues.frame {exec : (c : C) → H → S → R c × S} (read : S → β)
    (frame : ∀ c choice s, issues c → read (exec c choice s).2 = read s) {s s' : S} {log : List (Event C R)}
    {outcome : Except E α} (such : Issues issues p) (run : Runs exec p s log outcome s') : read s' = read s := by
  induction run with
  | done => rfl
  | raise => rfl
  | command choice _ ih => rw [ih (such.2 _ trivial),frame _ choice _ such.1]

theorem Issues.runs {exec : (c : C) → H → S → R c × S} {s s' : S} {log : List (Event C R)} {outcome : Except E α}
    (such : Issues issues p) (run : Runs exec p s log outcome s') : ∀ event ∈ log, issues event.1 := by
  induction run with
  | done => simp
  | raise => simp
  | command choice _ ih =>
    rintro event (_ | later)
    · exact such.1
    · exact ih (such.2 _ trivial) event (by assumption)

/-- What such commands keep of the ghost state holds at the end of a program of them. -/
theorem Issues.keeps {inv : G → Prop}
    (each : ∀ g c, inv g → issues c → D.may g c ∧ ∀ reply, inv (D.next g ⟨c, reply⟩)) (such : Issues issues p) {g : G}
    (start : inv g) : D.Follows (fun _ g' => inv g') p g := by
  induction p generalizing g with
  | done value => exact start
  | raise error => exact start
  | waiting => trivial
  | command c next ih =>
    obtain ⟨may,kept⟩ := each g c start such.1
    exact ⟨may, fun reply _ => ih _ (such.2 reply trivial) (kept reply)⟩

/-- A program without selected commands, whose errors escape, leaves all the errors to what
    comes after it. -/
theorem faulted_bind {selects : C → Bool} {rest : α → Program C R E β} (escapes : p.Escapes)
    (unselected : Issues (fun c => selects c = false) p) (errors : List E) :
    (p >>= rest).faulted selects errors = p >>= fun value => (rest value).faulted selects errors := by
  induction p with
  | done value => rfl
  | raise error => simp
  | waiting => simp
  | command c next ih =>
    rw [Program.command_bind,Program.faulted_command unselected.1,Program.command_bind]
    congr 1
    funext reply
    cases reply with
    | ok reply => exact ih _ (escapes.2 reply) (unselected.2 reply trivial)
    | error error =>
      rw [escapes.1 error]
      simp

theorem Issues.mono {other : C → Prop} (such : Issues issues p) (implies : ∀ c, issues c → other c) :
    Issues other p :=
  such.keeps (fun _ c _ issued => ⟨implies c issued, fun _ => trivial⟩) trivial

end

/-- The ghost states of the threads of a pool. -/
def ghosts (D : Discipline C R G) (pool : Pool C R E α S) : List G :=
  pool.threads.map (fun thread => D.ghost thread.log)

/-- `Follows` for a program that may only be waiting in ghost states that `idle` admits. -/
def Proceeds (D : Discipline C R G) (idle : G → Prop) (post : Except E α → G → Prop) : Program C R E α → G → Prop
  | .done value, g => post (.ok value) g
  | .raise error, g => post (.error error) g
  | .waiting, g => idle g
  | .command c next, g => D.may g c ∧
      ∀ reply, D.answers g ⟨c, reply⟩ → D.Proceeds idle post (next (.ok reply)) (D.next g ⟨c, reply⟩)

/-- A property of programs in ghost states that goes over to what is left of a program after
    an admitted reply, and says that the commands are allowed. -/
def Lasting (D : Discipline C R G) (keeps : Program C R E α → G → Prop) : Prop :=
  ∀ c next g, keeps (.command c next) g → D.may g c ∧
    ∀ reply, D.answers g ⟨c, reply⟩ → keeps (next (.ok reply)) (D.next g ⟨c, reply⟩)

theorem follows_lasting (D : Discipline C R G) (post : Except E α → G → Prop) : D.Lasting (D.Follows post) :=
  fun _ _ _ follows => follows

theorem proceeds_lasting (D : Discipline C R G) (idle : G → Prop) (post : Except E α → G → Prop) :
    D.Lasting (D.Proceeds idle post) := fun _ _ _ proceeds => proceeds

/-- When every started program has a lasting property and every permitted command of a
    thread that has it preserves the invariant, the invariant holds and every thread has
    the property in every reachable pool. -/
theorem reach_lasting {exec : (c : C) → H → S → R c × S} {allowed : Program C R E α → Prop}
    {permitted : List (Event C R) → S → C → Prop} {init : S} {pool : Pool C R E α S}
    (D : Discipline C R G) (keeps : Program C R E α → G → Prop) (lasting : D.Lasting keeps) (inv : S → List G → Prop)
    (begins : inv init []) (spawns : ∀ s gs, inv s gs → inv s (gs ++ [D.first]))
    (disciplined : ∀ program, allowed program → keeps program D.first)
    (answered : ∀ s gs log c choice, inv s gs → D.ghost log ∈ gs → permitted log s c →
      D.answers (D.ghost log) ⟨c, (exec c choice s).1⟩)
    (preserved : ∀ s gs i log c choice, inv s gs → gs[i]? = some (D.ghost log) → D.may (D.ghost log) c →
      permitted log s c →
      inv (exec c choice s).2 (gs.set i (D.next (D.ghost log) ⟨c, (exec c choice s).1⟩)))
    (reach : Reach exec allowed permitted init pool) :
    inv pool.store (D.ghosts pool) ∧ ∀ thread ∈ pool.threads, keeps thread.program (D.ghost thread.log) := by
  induction reach with
  | initial => exact ⟨begins, by simp⟩
  | @start pool program _ allow ih =>
    refine ⟨by simpa [ghosts,Pool.start] using spawns _ _ ih.1, fun thread member => ?_⟩
    rcases List.mem_append.mp member with old | new
    · exact ih.2 thread old
    · cases List.mem_singleton.mp new
      exact disciplined program allow
  | @step pool i c next log choice _ found permit ih =>
    have member := List.mem_of_getElem? found
    obtain ⟨may,rest⟩ := lasting _ _ _ (ih.2 _ member)
    have here : (D.ghosts pool)[i]? = some (D.ghost log) := by simp [ghosts,found]
    have admitted := answered _ _ log c choice ih.1 (List.mem_of_getElem? here) permit
    constructor
    · have kept := preserved _ _ i log c choice ih.1 here may permit
      simpa [ghosts,Pool.issue,List.map_set] using kept
    · intro thread touched
      rcases List.mem_or_eq_of_mem_set touched with old | new
      · exact ih.2 thread old
      · subst new
        simpa using rest _ admitted

/-- When every started program keeps to the discipline and every permitted command
    of a disciplined thread preserves the invariant, the invariant holds and every
    thread keeps to the discipline in every reachable pool. -/
theorem reach_invariant {exec : (c : C) → H → S → R c × S} {allowed : Program C R E α → Prop}
    {permitted : List (Event C R) → S → C → Prop} {init : S} {pool : Pool C R E α S}
    (D : Discipline C R G) (post : Except E α → G → Prop) (inv : S → List G → Prop)
    (begins : inv init []) (spawns : ∀ s gs, inv s gs → inv s (gs ++ [D.first]))
    (disciplined : ∀ program, allowed program → D.Follows post program D.first)
    (answered : ∀ s gs log c choice, inv s gs → permitted log s c → D.answers (D.ghost log) ⟨c, (exec c choice s).1⟩)
    (preserved : ∀ s gs i log c choice, inv s gs → gs[i]? = some (D.ghost log) → D.may (D.ghost log) c →
      permitted log s c →
      inv (exec c choice s).2 (gs.set i (D.next (D.ghost log) ⟨c, (exec c choice s).1⟩)))
    (reach : Reach exec allowed permitted init pool) :
    inv pool.store (D.ghosts pool) ∧ ∀ thread ∈ pool.threads, D.Follows post thread.program (D.ghost thread.log) :=
  reach_lasting D (D.Follows post) (follows_lasting D post) inv begins spawns disciplined
    (fun s gs log c choice holds _ permit => answered s gs log c choice holds permit) preserved reach

/-- In a quiet pool every thread has ended as `post` says. -/
theorem quiet_post {post : Except E α → G → Prop} {settled : G → Prop} {pool : Pool C R E α S}
    (ended : ∀ outcome g, post outcome g → settled g) (quiet : pool.quiet = true)
    (follows : ∀ thread ∈ pool.threads, D.Follows post thread.program (D.ghost thread.log)) :
    ∀ g ∈ D.ghosts pool, settled g := by
  intro g member
  obtain ⟨thread,there,rfl⟩ := List.mem_map.mp member
  have kept := follows thread there
  have finished : thread.program.finished = true := List.all_eq_true.mp quiet thread there
  cases ended' : thread.program with
  | done value => rw [ended'] at kept; exact ended _ _ kept
  | raise error => rw [ended'] at kept; exact ended _ _ kept
  | waiting => rw [ended'] at finished; cases finished
  | command c next => rw [ended'] at finished; cases finished

end

/-! ### Failing commands and guarded pools -/

section
variable {D : Discipline C R G} {fails : E → Prop} {β : Type}

/-- `Follows` for a program whose commands may also raise an admitted error. A command
    that raises is not executed and leaves the ghost state as it is. -/
def Endures (D : Discipline C R G) (fails : E → Prop) (post : Except E α → G → Prop) : Program C R E α → G → Prop
  | .done value, g => post (.ok value) g
  | .raise error, g => post (.error error) g
  | .waiting, _ => True
  | .command c next, g => D.may g c ∧
      (∀ reply, D.answers g ⟨c, reply⟩ → D.Endures fails post (next (.ok reply)) (D.next g ⟨c, reply⟩)) ∧
      ∀ error, fails error → D.Endures fails post (next (.error error)) g

theorem endures_mono {post other : Except E α → G → Prop} {p : Program C R E α} {g : G}
    (endures : D.Endures fails post p g) (implies : ∀ outcome g', post outcome g' → other outcome g') :
    D.Endures fails other p g := by
  induction p generalizing g with
  | done value => exact implies _ _ endures
  | raise error => exact implies _ _ endures
  | waiting => trivial
  | command c next ih =>
    obtain ⟨may,answered,refused⟩ := endures
    exact ⟨may, fun reply admitted => ih _ (answered reply admitted), fun error fail => ih _ (refused error fail)⟩

/-- A program that goes on after some errors does so when fewer of them are raised. -/
theorem endures_fewer {fewer : E → Prop} {post : Except E α → G → Prop} {p : Program C R E α} {g : G}
    (endures : D.Endures fails post p g) (implies : ∀ error, fewer error → fails error) : D.Endures fewer post p g := by
  induction p generalizing g with
  | done value => exact endures
  | raise error => exact endures
  | waiting => trivial
  | command c next ih =>
    obtain ⟨may,answered,refused⟩ := endures
    exact ⟨may, fun reply admitted => ih _ (answered reply admitted),
      fun error fail => ih _ (refused error (implies error fail))⟩

theorem endures_bind (middle : α → G → Prop) {post : Except E β → G → Prop} {p : Program C R E α}
    {rest : α → Program C R E β} {g : G}
    (first : D.Endures fails (fun outcome g' => match outcome with
      | .ok value => middle value g'
      | .error error => post (.error error) g') p g)
    (later : ∀ value g', middle value g' → D.Endures fails post (rest value) g') :
    D.Endures fails post (p >>= rest) g := by
  induction p generalizing g with
  | done value => exact later value g first
  | raise error => exact first
  | waiting => trivial
  | command c next ih =>
    obtain ⟨may,answered,refused⟩ := first
    exact ⟨may, fun reply admitted => ih _ (answered reply admitted), fun error fail => ih _ (refused error fail)⟩

/-- A program that lets the errors of its commands escape keeps to the discipline also
    when one of them raises. -/
theorem endures_of_escapes {post : Except E α → G → Prop} {p : Program C R E α} {g : G} (escapes : p.Escapes)
    (raised : ∀ error g', fails error → post (.error error) g') (follows : D.Follows post p g) :
    D.Endures fails post p g := by
  induction p generalizing g with
  | done value => exact follows
  | raise error => exact follows
  | waiting => trivial
  | command c next ih =>
    refine ⟨follows.1, fun reply admitted => ih _ (escapes.2 reply) (follows.2 reply admitted), fun error fail => ?_⟩
    rw [escapes.1 error]
    exact raised error g fail

theorem endures_of_follows {post : Except E α → G → Prop} {p : Program C R E α} {g : G} (never : ∀ error, ¬ fails error)
    (follows : D.Follows post p g) : D.Endures fails post p g := by
  induction p generalizing g with
  | done value => exact follows
  | raise error => exact follows
  | waiting => trivial
  | command c next ih =>
    obtain ⟨may,answered⟩ := follows
    exact ⟨may, fun reply admitted => ih _ (answered reply admitted), fun error fail => absurd fail (never error)⟩

/-- When every started program keeps to the discipline and every guarded command of a
    disciplined thread preserves the invariant, the invariant holds and every thread
    keeps to the discipline in every guarded pool. -/
theorem guarded_invariant {exec : (c : C) → H → S → R c × S} {allowed : Program C R E α → Prop}
    {guard : Pool C R E α S → Nat → C → Prop} {init : S} {pool : Pool C R E α S}
    (D : Discipline C R G) (post : Except E α → G → Prop) (inv : S → List G → Prop)
    (begins : inv init []) (spawns : ∀ s gs, inv s gs → inv s (gs ++ [D.first]))
    (disciplined : ∀ program, allowed program → D.Endures fails post program D.first)
    (answered : ∀ s gs (i : Nat) g c choice, inv s gs → gs[i]? = some g → D.may g c → D.answers g ⟨c, (exec c choice s).1⟩)
    (preserved : ∀ (pool : Pool C R E α S) (i : Nat) g c choice, inv pool.store (D.ghosts pool) → (D.ghosts pool)[i]? = some g →
      D.may g c → guard pool i c →
      inv (exec c choice pool.store).2 ((D.ghosts pool).set i (D.next g ⟨c, (exec c choice pool.store).1⟩)))
    (reach : Guarded exec allowed guard fails init pool) :
    inv pool.store (D.ghosts pool) ∧
    ∀ thread ∈ pool.threads, D.Endures fails post thread.program (D.ghost thread.log) := by
  induction reach with
  | initial => exact ⟨begins, by simp⟩
  | @start pool program _ allow ih =>
    refine ⟨by simpa [ghosts,Pool.start] using spawns _ _ ih.1, fun thread member => ?_⟩
    rcases List.mem_append.mp member with old | new
    · exact ih.2 thread old
    · cases List.mem_singleton.mp new
      exact disciplined program allow
  | @step pool i c next log choice _ found safe ih =>
    obtain ⟨may,continues,_⟩ := ih.2 _ (List.mem_of_getElem? found)
    have here : (D.ghosts pool)[i]? = some (D.ghost log) := by simp [ghosts,found]
    constructor
    · have kept := preserved _ i _ c choice ih.1 here may safe
      simpa [ghosts,Pool.issue,List.map_set] using kept
    · intro thread touched
      rcases List.mem_or_eq_of_mem_set touched with old | new
      · exact ih.2 thread old
      · subst new
        simpa using continues _ (answered _ _ i _ c choice ih.1 here may)
  | @fail pool i c next log error _ found fail ih =>
    obtain ⟨_,_,refused⟩ := ih.2 _ (List.mem_of_getElem? found)
    have here : (D.ghosts pool)[i]? = some (D.ghost log) := by simp [ghosts,found]
    have same : D.ghosts (pool.refuse i c next log error) = D.ghosts pool := by
      have replaced : D.ghosts (pool.refuse i c next log error) = (D.ghosts pool).set i (D.ghost log) := by
        simp [ghosts,Pool.refuse,List.map_set]
      rw [replaced,set_same here]
    constructor
    · rw [same]
      exact ih.1
    · intro thread touched
      rcases List.mem_or_eq_of_mem_set touched with old | new
      · exact ih.2 thread old
      · subst new
        exact refused error fail

end

/-! ### One program that runs alone -/

section
variable {D : Discipline C R G} {exec : (c : C) → H → S → R c × S} {post : Except E α → G → Prop}

/-- An invariant that every command of a disciplined program preserves holds in the
    state that a run of it leaves. -/
theorem follows_runs (inv : G → S → Prop)
    (preserved : ∀ g s c choice, inv g s → D.may g c →
      D.answers g ⟨c, (exec c choice s).1⟩ ∧ inv (D.next g ⟨c, (exec c choice s).1⟩) (exec c choice s).2)
    {p : Program C R E α} {g : G} {s s' : S} {log : List (Event C R)} {outcome : Except E α}
    (follows : D.Follows post p g) (start : inv g s) (run : Runs exec p s log outcome s') :
    inv (log.foldl D.next g) s' ∧ post outcome (log.foldl D.next g) := by
  induction run generalizing g with
  | done => exact ⟨start, follows⟩
  | raise => exact ⟨start, follows⟩
  | command choice _ ih =>
    obtain ⟨admitted,kept⟩ := preserved _ _ _ choice start follows.1
    exact ih (follows.2 _ admitted) kept

/-- It also holds in the state that is left when one command raises unexecuted and the
    program lets the error escape. -/
theorem follows_fails (inv : G → S → Prop)
    (preserved : ∀ g s c choice, inv g s → D.may g c →
      D.answers g ⟨c, (exec c choice s).1⟩ ∧ inv (D.next g ⟨c, (exec c choice s).1⟩) (exec c choice s).2)
    {p : Program C R E α} {g : G} {s s' : S} {log : List (Event C R)} {outcome : Except E α} (error : E) (n : Nat)
    (follows : D.Follows post p g) (escapes : p.Escapes) (start : inv g s)
    (run : Runs exec (p.failAt error n) s log outcome s') : inv (log.foldl D.next g) s' := by
  induction p generalizing g s n log with
  | done value => cases n <;> cases run <;> exact start
  | raise other => cases n <;> cases run <;> exact start
  | waiting => cases n <;> cases run
  | command c next ih =>
    cases n with
    | zero =>
      simp only [Program.failAt,escapes.1 error] at run
      cases run
      exact start
    | succ n =>
      cases run with
      | command choice run =>
        obtain ⟨admitted,kept⟩ := preserved _ _ _ choice start follows.1
        rw [List.foldl_cons]
        exact ih _ n (follows.2 _ admitted) (escapes.2 _) kept run
end

end Discipline

end AcapyRedis.Threads
