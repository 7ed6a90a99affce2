import Mathlib.Logic.Basic

/-!
Programs of a client that talks to a server one command at a time. A program is
a tree: it ends with a value, raises an error, or issues a command and goes on
with what the command answered (`Program`). The server is any function from a
command and a choice of the environment to a reply and a new server state. `Runs`
is one error-free run of a program against the server (`leaves` computes one), `Ends`
says that every such run ends and meets a postcondition, `Leads` that every run that ends
does. `failAt` is the program whose `n`-th command raises without being executed, in
`faulted` the first commands of a kind raise, and in `raising` those that a function names.
-/
namespace AcapyRedis.Programs

/-- A client program over commands `C` with replies `R`, errors `E` and results
    `α`. The continuation of a command gets the reply or the error it raised;
    `waiting` is a program that is still in a loop when its bound runs out. -/
inductive Program (C : Type) (R : C → Type) (E α : Type) : Type
  | done (value : α)
  | raise (error : E)
  | waiting
  | command (c : C) (next : Except E (R c) → Program C R E α)

/-- A command together with the reply it got. -/
abbrev Event (C : Type) (R : C → Type) := (c : C) × R c

variable {C : Type} {R : C → Type} {E S H α β G : Type}

namespace Program

def bind : Program C R E α → (α → Program C R E β) → Program C R E β
  | .done value, rest => rest value
  | .raise error, _ => .raise error
  | .waiting, _ => .waiting
  | .command c next, rest => .command c (fun reply => (next reply).bind rest)

instance : Monad (Program C R E) where
  pure := .done
  bind := bind

/-- Issues one command; an error of the command is raised. -/
@[simp] def call (c : C) : Program C R E (R c) :=
  .command c fun
    | .ok reply => .done reply
    | .error error => .raise error

/-- `try` around a program: its error becomes its result. -/
def attempt : Program C R E α → Program C R E (Except E α)
  | .done value => .done (.ok value)
  | .raise error => .done (.error error)
  | .waiting => .waiting
  | .command c next => .command c (fun reply => (next reply).attempt)

/-- The program whose `n`-th command, counted from 0, raises and is not executed. -/
def failAt (error : E) : Nat → Program C R E α → Program C R E α
  | _, .done value => .done value
  | _, .raise other => .raise other
  | _, .waiting => .waiting
  | 0, .command _ next => next (.error error)
  | n+1, .command c next => .command c fun
    | .ok reply => failAt error n (next (.ok reply))
    | .error other => next (.error other)

/-- The program whose first selected commands raise the errors of a list, in order, and
    are not executed. -/
def faulted (selects : C → Bool) : List E → Program C R E α → Program C R E α
  | _, .done value => .done value
  | _, .raise error => .raise error
  | _, .waiting => .waiting
  | [], .command c next => .command c next
  | error :: errors, .command c next =>
    if selects c then faulted selects errors (next (.error error))
    else .command c (fun reply => faulted selects (error :: errors) (next reply))

/-- The program in which the commands that a function names an error for raise it and are
    not executed. -/
def raising (raises : C → Option E) : Program C R E α → Program C R E α
  | .done value => .done value
  | .raise error => .raise error
  | .waiting => .waiting
  | .command c next =>
    match raises c with
    | some error => raising raises (next (.error error))
    | none => .command c (fun reply => raising raises (next reply))

/-- Fails or goes on with a value that was computed without a command. -/
def ofExcept : Except E α → Program C R E α
  | .ok value => .done value
  | .error error => .raise error

/-- Every error of a command escapes from the program at once. -/
def Escapes : Program C R E α → Prop
  | .done _ => True
  | .raise _ => True
  | .waiting => True
  | .command _ next => (∀ error, next (.error error) = .raise error) ∧ ∀ reply, (next (.ok reply)).Escapes

/-- The program never waits. -/
def Awake : Program C R E α → Prop
  | .done _ => True
  | .raise _ => True
  | .waiting => False
  | .command _ next => ∀ reply, (next reply).Awake

/-- Whether the program has returned or raised. -/
def finished : Program C R E α → Bool
  | .done _ => true
  | .raise _ => true
  | .waiting => false
  | .command _ _ => false

/-- Whether the program has returned a value. -/
def returned : Program C R E α → Bool
  | .done _ => true
  | _ => false

theorem returned_iff {p : Program C R E α} : p.returned = true ↔ ∃ value, p = .done value := by
  constructor
  · intro ended
    cases p with
    | done value => exact ⟨value,rfl⟩
    | _ => cases ended
  · rintro ⟨value,rfl⟩
    rfl

@[simp] theorem pure_eq (value : α) : (pure value : Program C R E α) = .done value := rfl
@[simp] theorem done_bind (value : α) (rest : α → Program C R E β) :
    (.done value : Program C R E α) >>= rest = rest value := rfl
@[simp] theorem raise_bind (error : E) (rest : α → Program C R E β) :
    (.raise error : Program C R E α) >>= rest = .raise error := rfl
@[simp] theorem waiting_bind (rest : α → Program C R E β) :
    (.waiting : Program C R E α) >>= rest = .waiting := rfl
@[simp] theorem command_bind (c : C) (next : Except E (R c) → Program C R E α) (rest : α → Program C R E β) :
    (.command c next : Program C R E α) >>= rest = .command c (fun reply => next reply >>= rest) := rfl

@[simp] theorem bind_bind {γ : Type} (p : Program C R E α) (rest : α → Program C R E β)
    (last : β → Program C R E γ) : (p >>= rest) >>= last = p >>= fun value => rest value >>= last := by
  induction p with
  | done value => rfl
  | raise error => rfl
  | waiting => rfl
  | command c next ih => exact congrArg (Program.command c) (funext fun reply => ih reply)

@[simp] theorem ofExcept_ok (value : α) : (ofExcept (.ok value) : Program C R E α) = .done value := rfl
@[simp] theorem ofExcept_error (error : E) : (ofExcept (.error error) : Program C R E α) = .raise error := rfl

@[simp] theorem faulted_nil (selects : C → Bool) (p : Program C R E α) : p.faulted selects [] = p := by
  cases p <;> rfl

@[simp] theorem faulted_done (selects : C → Bool) (errors : List E) (value : α) :
    (.done value : Program C R E α).faulted selects errors = .done value := by cases errors <;> rfl
@[simp] theorem faulted_raise (selects : C → Bool) (errors : List E) (error : E) :
    (.raise error : Program C R E α).faulted selects errors = .raise error := by cases errors <;> rfl
@[simp] theorem faulted_waiting (selects : C → Bool) (errors : List E) :
    (.waiting : Program C R E α).faulted selects errors = .waiting := by cases errors <;> rfl

theorem faulted_command {selects : C → Bool} {c : C} (other : selects c = false) (errors : List E)
    (next : Except E (R c) → Program C R E α) :
    (.command c next : Program C R E α).faulted selects errors =
      .command c (fun reply => (next reply).faulted selects errors) := by
  cases errors with
  | nil => simp
  | cons error errors => simp [faulted,other]

section
variable {raises : C → Option E}

theorem raising_none {c : C} (kept : raises c = none) (next : Except E (R c) → Program C R E α) :
    (.command c next : Program C R E α).raising raises = .command c (fun reply => (next reply).raising raises) := by
  rw [raising,kept]

theorem raising_some {c : C} {error : E} (fails : raises c = some error) (next : Except E (R c) → Program C R E α) :
    (.command c next : Program C R E α).raising raises = (next (.error error)).raising raises := by
  rw [raising,fails]

@[simp] theorem raising_bind (p : Program C R E α) (rest : α → Program C R E β) :
    (p >>= rest).raising raises = p.raising raises >>= fun value => (rest value).raising raises := by
  induction p with
  | done value => rfl
  | raise error => rfl
  | waiting => rfl
  | command c next ih =>
    rw [command_bind]
    cases fails : raises c with
    | some error => rw [raising_some fails,raising_some fails,ih]
    | none =>
      rw [raising_none fails,raising_none fails,command_bind]
      exact congrArg (Program.command c) (funext fun reply => ih reply)

/-- Where no command raises the program stays as it is. -/
theorem raising_nothing (p : Program C R E α) : p.raising (fun _ => none) = p := by
  induction p with
  | done value => rfl
  | raise error => rfl
  | waiting => rfl
  | command c next ih => exact congrArg (Program.command c) (funext fun reply => ih reply)

end

@[simp] theorem escapes_done (value : α) : (.done value : Program C R E α).Escapes := trivial
@[simp] theorem escapes_raise (error : E) : (.raise error : Program C R E α).Escapes := trivial
@[simp] theorem escapes_waiting : (.waiting : Program C R E α).Escapes := trivial
@[simp] theorem escapes_call (c : C) : (call c : Program C R E (R c)).Escapes := ⟨fun _ => rfl, fun _ => trivial⟩

theorem escapes_bind {p : Program C R E α} {rest : α → Program C R E β} (first : p.Escapes)
    (later : ∀ value, (rest value).Escapes) : (p >>= rest).Escapes := by
  induction p with
  | done value => exact later value
  | raise error => trivial
  | waiting => trivial
  | command c next ih =>
    refine ⟨fun error => ?_, fun reply => ih _ (first.2 reply)⟩
    show (next (.error error)).bind rest = .raise error
    rw [first.1 error]
    rfl

theorem awake_bind {p : Program C R E α} {rest : α → Program C R E β} (first : p.Awake)
    (later : ∀ value, (rest value).Awake) : (p >>= rest).Awake := by
  induction p with
  | done value => exact later value
  | raise error => trivial
  | waiting => exact first.elim
  | command c next ih => exact fun reply => ih reply (first reply)

end Program

open Program

/-- One error-free run: the events of the commands in order, the outcome and the
    final state of the server. -/
inductive Runs (exec : (c : C) → H → S → R c × S) :
    Program C R E α → S → List (Event C R) → Except E α → S → Prop
  | done {value s} : Runs exec (.done value) s [] (.ok value) s
  | raise {error s} : Runs exec (.raise error) s [] (.error error) s
  | command {c next s log outcome s'} (choice : H) :
      Runs exec (next (.ok (exec c choice s).1)) (exec c choice s).2 log outcome s' →
      Runs exec (.command c next) s (⟨c, (exec c choice s).1⟩ :: log) outcome s'

/-- A run of a sequence is a run of the first program that raises, or one that returns and
    then a run of the rest. -/
theorem runs_bind {exec : (c : C) → H → S → R c × S} {p : Program C R E α} {rest : α → Program C R E β} {s s' : S}
    {log : List (Event C R)} {outcome : Except E β} (run : Runs exec (p >>= rest) s log outcome s') :
    (∃ error, outcome = .error error ∧ Runs exec p s log (.error error) s') ∨
    ∃ value middle first later, log = first ++ later ∧ Runs exec p s first (.ok value) middle ∧
      Runs exec (rest value) middle later outcome s' := by
  induction p generalizing s log with
  | done value => exact .inr ⟨value, s, [], log, rfl, .done, run⟩
  | raise error =>
    cases run
    exact .inl ⟨error, rfl, .raise⟩
  | waiting => cases run
  | command c next ih =>
    cases run with
    | command choice run =>
      obtain ⟨error,ended,raised⟩ | ⟨value,middle,first,later,rfl,returned,continued⟩ := ih _ run
      · exact .inl ⟨error, ended, .command choice raised⟩
      · exact .inr ⟨value, middle, _, later, rfl, .command choice returned, continued⟩

/-- The state that the run with the default choices leaves, and its outcome if it ends. -/
def Program.leaves [Inhabited H] (exec : (c : C) → H → S → R c × S) : Program C R E α → S → S × Option (Except E α)
  | .done value, s => (s, some (.ok value))
  | .raise error, s => (s, some (.error error))
  | .waiting, s => (s, none)
  | .command c next, s => (next (.ok (exec c default s).1)).leaves exec (exec c default s).2

/-- What that run issued. -/
def Program.log [Inhabited H] (exec : (c : C) → H → S → R c × S) : Program C R E α → S → List (Event C R)
  | .done _, _ => []
  | .raise _, _ => []
  | .waiting, _ => []
  | .command c next, s =>
    ⟨c, (exec c default s).1⟩ :: (next (.ok (exec c default s).1)).log exec (exec c default s).2

theorem leaves_log [Inhabited H] {exec : (c : C) → H → S → R c × S} {p : Program C R E α} {s : S}
    {outcome : Except E α} (ended : (p.leaves exec s).2 = some outcome) :
    Runs exec p s (p.log exec s) outcome (p.leaves exec s).1 := by
  induction p generalizing s with
  | done value => cases ended; exact .done
  | raise error => cases ended; exact .raise
  | waiting => cases ended
  | command c next ih => exact .command default (ih _ ended)

theorem leaves_runs [Inhabited H] {exec : (c : C) → H → S → R c × S} {p : Program C R E α} {s : S}
    {outcome : Except E α} (ended : (p.leaves exec s).2 = some outcome) :
    ∃ log, Runs exec p s log outcome (p.leaves exec s).1 := ⟨_, leaves_log ended⟩

/-! ### Total correctness of error-free runs -/

/-- Every error-free run from `s` ends, whatever the environment chooses, in an
    outcome and a state that meet `post`. -/
def Ends (exec : (c : C) → H → S → R c × S) (post : Except E α → S → Prop) : Program C R E α → S → Prop
  | .done value, s => post (.ok value) s
  | .raise error, s => post (.error error) s
  | .waiting, _ => False
  | .command c next, s => ∀ choice, Ends exec post (next (.ok (exec c choice s).1)) (exec c choice s).2

section
variable {exec : (c : C) → H → S → R c × S} {post other : Except E α → S → Prop}

@[simp] theorem ends_done (value : α) (s : S) : Ends exec post (.done value) s ↔ post (.ok value) s := Iff.rfl
@[simp] theorem ends_raise (error : E) (s : S) : Ends exec post (.raise error) s ↔ post (.error error) s := Iff.rfl
@[simp] theorem ends_command (c : C) (next : Except E (R c) → Program C R E α) (s : S) :
    Ends exec post (.command c next) s ↔
      ∀ choice, Ends exec post (next (.ok (exec c choice s).1)) (exec c choice s).2 := Iff.rfl

/-- What a program continued by `rest` still has to establish after an outcome. -/
def Continues (exec : (c : C) → H → S → R c × S) (post : Except E β → S → Prop) (rest : α → Program C R E β) :
    Except E α → S → Prop
  | .ok value, s => Ends exec post (rest value) s
  | .error error, s => post (.error error) s

@[simp] theorem continues_ok {post : Except E β → S → Prop} (rest : α → Program C R E β) (value : α) (s : S) :
    Continues exec post rest (.ok value) s ↔ Ends exec post (rest value) s := Iff.rfl
@[simp] theorem continues_error {post : Except E β → S → Prop} (rest : α → Program C R E β) (error : E) (s : S) :
    Continues exec post rest (.error error) s ↔ post (.error error) s := Iff.rfl

@[simp] theorem ends_bind {post : Except E β → S → Prop} (p : Program C R E α) (rest : α → Program C R E β) (s : S) :
    Ends exec post (p >>= rest) s ↔ Ends exec (Continues exec post rest) p s := by
  induction p generalizing s with
  | done value => rfl
  | raise error => rfl
  | waiting => rfl
  | command c next ih => exact forall_congr' (fun choice => ih _ _)

@[simp] theorem ends_attempt {post : Except E (Except E α) → S → Prop} (p : Program C R E α) (s : S) :
    Ends exec post p.attempt s ↔ Ends exec (fun outcome s' => post (.ok outcome) s') p s := by
  induction p generalizing s with
  | done value => rfl
  | raise error => rfl
  | waiting => rfl
  | command c next ih => exact forall_congr' (fun choice => ih _ _)

theorem ends_call_fails {raises : C → Option E} {c : C} {error : E} (fails : raises c = some error)
    (rest : R c → Program C R E α) (s : S) :
    Ends exec post ((call c >>= rest).raising raises) s ↔ post (.error error) s := by
  rw [call,command_bind,raising_some fails]
  rfl

theorem ends_call_kept {raises : C → Option E} {c : C} (kept : raises c = none) (rest : R c → Program C R E α) (s : S) :
    Ends exec post ((call c >>= rest).raising raises) s ↔
      ∀ choice, Ends exec post ((rest (exec c choice s).1).raising raises) (exec c choice s).2 := by
  rw [call,command_bind,raising_none kept]
  rfl

theorem Ends.mono {p : Program C R E α} {s : S} (ends : Ends exec post p s)
    (implies : ∀ outcome s', post outcome s' → other outcome s') : Ends exec other p s := by
  induction p generalizing s with
  | done value => exact implies _ _ ends
  | raise error => exact implies _ _ ends
  | waiting => exact ends
  | command c next ih => exact fun choice => ih _ (ends choice)

theorem Ends.post_of_runs {p : Program C R E α} {s s' : S} {log : List (Event C R)} {outcome : Except E α}
    (ends : Ends exec post p s) (run : Runs exec p s log outcome s') : post outcome s' := by
  induction run with
  | done => exact ends
  | raise => exact ends
  | command choice _ ih => exact ih (ends choice)

/-- A program that ends from `s` has a run from `s`. -/
theorem Ends.runs [Inhabited H] {p : Program C R E α} {s : S} (ends : Ends exec post p s) :
    ∃ log outcome s', Runs exec p s log outcome s' := by
  induction p generalizing s with
  | done value => exact ⟨[], _, s, .done⟩
  | raise error => exact ⟨[], _, s, .raise⟩
  | waiting => exact ends.elim
  | command c next ih =>
    obtain ⟨log,outcome,s',run⟩ := ih _ (ends default)
    exact ⟨_, outcome, s', .command default run⟩

/-- Two postconditions of a program meet after some run. -/
theorem Ends.meet [Inhabited H] {p : Program C R E α} {s : S} (ends : Ends exec post p s) (ends' : Ends exec other p s) :
    ∃ outcome s', post outcome s' ∧ other outcome s' := by
  obtain ⟨_,outcome,s',run⟩ := ends.runs
  exact ⟨outcome, s', ends.post_of_runs run, ends'.post_of_runs run⟩
end

/-! ### Partial correctness -/

/-- Every error-free run from `s` that ends, ends in an outcome and a state that meet `post`. -/
def Leads (exec : (c : C) → H → S → R c × S) (post : Except E α → S → Prop) : Program C R E α → S → Prop
  | .done value, s => post (.ok value) s
  | .raise error, s => post (.error error) s
  | .waiting, _ => True
  | .command c next, s => ∀ choice, Leads exec post (next (.ok (exec c choice s).1)) (exec c choice s).2

section
variable {exec : (c : C) → H → S → R c × S} {post : Except E α → S → Prop}

@[simp] theorem leads_done (value : α) (s : S) : Leads exec post (.done value) s ↔ post (.ok value) s := Iff.rfl
@[simp] theorem leads_raise (error : E) (s : S) : Leads exec post (.raise error) s ↔ post (.error error) s := Iff.rfl
@[simp] theorem leads_waiting (s : S) : Leads exec post .waiting s ↔ True := Iff.rfl
@[simp] theorem leads_command (c : C) (next : Except E (R c) → Program C R E α) (s : S) :
    Leads exec post (.command c next) s ↔
      ∀ choice, Leads exec post (next (.ok (exec c choice s).1)) (exec c choice s).2 := Iff.rfl

/-- What holds after an outcome of a program that is continued by `rest`. -/
def Onward (exec : (c : C) → H → S → R c × S) (post : Except E β → S → Prop) (rest : α → Program C R E β) :
    Except E α → S → Prop
  | .ok value, s => Leads exec post (rest value) s
  | .error error, s => post (.error error) s

@[simp] theorem onward_ok {post : Except E β → S → Prop} (rest : α → Program C R E β) (value : α) (s : S) :
    Onward exec post rest (.ok value) s ↔ Leads exec post (rest value) s := Iff.rfl
@[simp] theorem onward_error {post : Except E β → S → Prop} (rest : α → Program C R E β) (error : E) (s : S) :
    Onward exec post rest (.error error) s ↔ post (.error error) s := Iff.rfl

@[simp] theorem leads_bind {post : Except E β → S → Prop} (p : Program C R E α) (rest : α → Program C R E β) (s : S) :
    Leads exec post (p >>= rest) s ↔ Leads exec (Onward exec post rest) p s := by
  induction p generalizing s with
  | done value => rfl
  | raise error => rfl
  | waiting => rfl
  | command c next ih => exact forall_congr' (fun choice => ih _ _)

theorem Leads.post_of_runs {p : Program C R E α} {s s' : S} {log : List (Event C R)} {outcome : Except E α}
    (leads : Leads exec post p s) (run : Runs exec p s log outcome s') : post outcome s' := by
  induction run with
  | done => exact leads
  | raise => exact leads
  | command choice _ ih => exact ih (leads choice)
end

end AcapyRedis.Programs
