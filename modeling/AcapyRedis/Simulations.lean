import AcapyRedis.Threads
import Mathlib.Data.List.Forall2

/-!
Client programs of two servers that run in lock-step. A `Correspondence` says which commands of
the servers stand for each other and which replies then do; two programs are `Similar` when they
issue commands that correspond and go on with similar programs after corresponding replies, and
after the same errors. If the servers keep a relation between their states (`Refines`), every pool
of programs of the one is matched by a pool of similar programs of the other (`pool_refines`).
-/
namespace AcapyRedis.Simulations
open AcapyRedis.Programs AcapyRedis.Programs.Program AcapyRedis.Threads

variable {C C' : Type} {R : C → Type} {R' : C' → Type} {E α α' β β' S S' H H' : Type}

/-- The commands of two servers that stand for each other, and the replies that then do. -/
structure Correspondence (C C' : Type) (R : C → Type) (R' : C' → Type) where
  commands : C → C' → Prop
  replies : (c : C) → (c' : C') → R c → R' c' → Prop

/-- The programs run in lock-step, and `values` holds of what they return. -/
inductive Similar (K : Correspondence C C' R R') (values : α → α' → Prop) :
    Program C R E α → Program C' R' E α' → Prop
  | done {value : α} {value' : α'} : values value value' → Similar K values (.done value) (.done value')
  | raise (error : E) : Similar K values (.raise error) (.raise error)
  | waiting : Similar K values .waiting .waiting
  | command {c : C} {c' : C'} {next : Except E (R c) → Program C R E α} {next' : Except E (R' c') → Program C' R' E α'} :
      K.commands c c' →
      (∀ reply reply', K.replies c c' reply reply' → Similar K values (next (.ok reply)) (next' (.ok reply'))) →
      (∀ error, Similar K values (next (.error error)) (next' (.error error))) →
      Similar K values (.command c next) (.command c' next')

section
variable {K : Correspondence C C' R R'} {values : α → α' → Prop} {results : β → β' → Prop}

theorem similar_bind {p : Program C R E α} {p' : Program C' R' E α'} {rest : α → Program C R E β}
    {rest' : α' → Program C' R' E β'} (first : Similar K values p p')
    (later : ∀ value value', values value value' → Similar K results (rest value) (rest' value')) :
    Similar K results (p >>= rest) (p' >>= rest') := by
  induction first with
  | done returned => exact later _ _ returned
  | raise error => exact .raise error
  | waiting => exact .waiting
  | command sent _ _ answered refused => exact .command sent answered refused

/-- A command and the commands that stand for it. -/
theorem similar_call {c : C} {c' : C'} (sent : K.commands c c') :
    Similar K (K.replies c c') (Program.call c : Program C R E (R c)) (Program.call c') :=
  .command sent (fun _ _ replied => .done replied) (fun error => .raise error)

/-- A command whose errors are caught. -/
theorem similar_attempt {c : C} {c' : C'} {rest : Except E (R c) → Program C R E β}
    {rest' : Except E (R' c') → Program C' R' E β'} (sent : K.commands c c')
    (answered : ∀ reply reply', K.replies c c' reply reply' → Similar K results (rest (.ok reply)) (rest' (.ok reply')))
    (refused : ∀ error, Similar K results (rest (.error error)) (rest' (.error error))) :
    Similar K results ((Program.call c).attempt >>= rest) ((Program.call c').attempt >>= rest') :=
  .command sent answered refused

/-- What was computed without a command. -/
theorem similar_ofExcept {result : Except E α} {value : α} {p' : Program C' R' E β'} {rest : α → Program C R E β}
    (computed : result = .ok value) (later : Similar K results (rest value) p') :
    Similar K results (ofExcept result >>= rest) p' := by
  rw [computed]
  exact later

end

/-! ### Pools -/

/-- Corresponding commands take related states to related states, with corresponding replies. -/
def Refines (K : Correspondence C C' R R') (exec : (c : C) → H → S → R c × S) (exec' : (c : C') → H' → S' → R' c × S')
    (guard : S → C → Prop) (related : S → S' → Prop) : Prop :=
  ∀ s s' c c' choice, related s s' → K.commands c c' → guard s c → ∃ choice',
    K.replies c c' (exec c choice s).1 (exec' c' choice' s').1 ∧ related (exec c choice s).2 (exec' c' choice' s').2

/-- Events that stand for each other. -/
def Correspondence.events (K : Correspondence C C' R R') (event : Event C R) (event' : Event C' R') : Prop :=
  K.commands event.1 event'.1 ∧ K.replies event.1 event'.1 event.2 event'.2

/-- Threads in lock-step: what they have still to do is similar, and what they have done corresponds. -/
structure InStep (K : Correspondence C C' R R') (values : α → α' → Prop) (thread : Thread C R E α)
    (thread' : Thread C' R' E α') : Prop where
  program : Similar K values thread.program thread'.program
  log : List.Forall₂ K.events thread.log thread'.log

theorem forall₂_set {A B : Type} {rel : A → B → Prop} {items : List A} {items' : List B}
    (each : List.Forall₂ rel items items') (n : Nat) {item : A} {item' : B} (here : rel item item') :
    List.Forall₂ rel (items.set n item) (items'.set n item') := by
  induction each generalizing n with
  | nil => exact .nil
  | cons first rest ih =>
    cases n with
    | zero => exact .cons here rest
    | succ n => exact .cons first (ih n)

theorem forall₂_getElem? {A B : Type} {rel : A → B → Prop} {items : List A} {items' : List B}
    (each : List.Forall₂ rel items items') {n : Nat} {item : A} (here : items[n]? = some item) :
    ∃ item', items'[n]? = some item' ∧ rel item item' := by
  induction each generalizing n with
  | nil => cases here
  | cons first rest ih =>
    cases n with
    | zero =>
      cases here
      exact ⟨_,rfl,first⟩
    | succ n => exact ih here

/-- Every pool of the programs of a server is matched by a pool of similar programs of a server that
    it refines, in lock-step and with the same commands failing. -/
theorem pool_refines {K : Correspondence C C' R R'} {values : α → α' → Prop} {exec : (c : C) → H → S → R c × S}
    {exec' : (c : C') → H' → S' → R' c × S'} {allowed : Program C R E α → Prop} {allowed' : Program C' R' E α' → Prop}
    {guard : S → C → Prop} {fails : E → Prop} {related : S → S' → Prop} {init : S} {init' : S'} {pool : Pool C R E α S}
    (refines : Refines K exec exec' guard related) (begins : related init init')
    (programs : ∀ p, allowed p → ∃ p', allowed' p' ∧ Similar K values p p')
    (reach : Guarded exec allowed (fun pool _ c => guard pool.store c) fails init pool) :
    ∃ pool', Guarded exec' allowed' unguarded fails init' pool' ∧ related pool.store pool'.store ∧
      List.Forall₂ (InStep K values) pool.threads pool'.threads := by
  induction reach with
  | initial => exact ⟨_,.initial,begins,.nil⟩
  | @start pool program _ allow ih =>
    obtain ⟨pool',reach',states,threads⟩ := ih
    obtain ⟨program',allow',similar⟩ := programs program allow
    exact ⟨_,.start reach' allow',states,List.rel_append threads (.cons ⟨similar,.nil⟩ .nil)⟩
  | @step pool i c next log choice _ found safe ih =>
    obtain ⟨pool',reach',states,threads⟩ := ih
    obtain ⟨⟨program',log'⟩,found',similar,logs⟩ := forall₂_getElem? threads found
    cases similar with
    | @command _ c' _ next' sent answered _ =>
      obtain ⟨choice',replied,states'⟩ := refines _ _ c c' choice states sent safe
      refine ⟨_,.step choice' reach' found' trivial,states',forall₂_set threads i ⟨answered _ _ replied,?_⟩⟩
      exact List.rel_append logs (.cons ⟨sent,replied⟩ .nil)
  | @fail pool i c next log error _ found fail ih =>
    obtain ⟨pool',reach',states,threads⟩ := ih
    obtain ⟨⟨program',log'⟩,found',similar,logs⟩ := forall₂_getElem? threads found
    cases similar with
    | @command _ c' _ next' sent _ refused =>
      exact ⟨_,.fail error reach' found' fail,states,forall₂_set threads i ⟨refused error,logs⟩⟩

end AcapyRedis.Simulations
