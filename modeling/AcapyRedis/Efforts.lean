import Mathlib

/-!
Systems that settle. Steps that leave the state as it is are idle; every other step does some of the
work that a measure says is left (`Settling`). Then no run has more working steps than there was
work, and as long as the system has not settled there is one to make (`effort_settles`).
-/
namespace AcapyRedis.Efforts

variable {S : Type}

/-- Some steps from a state, with the number of those that are not idle. -/
inductive Effort (step : S → S → Prop) (s : S) : Nat → S → Prop
  | start : Effort step s 0 s
  | idle {n t} : Effort step s n t → step t t → Effort step s n t
  | work {n t t'} : Effort step s n t → step t t' → t' ≠ t → Effort step s (n + 1) t'

/-- Every step is idle or does some work, and a state that has not settled has work to do. -/
structure Settling (step : S → S → Prop) (settled : S → Prop) (work : S → Int) : Prop where
  least : ∀ s, 0 ≤ work s
  works : ∀ s s', step s s' → s' = s ∨ work s' < work s
  progress : ∀ s, settled s ∨ ∃ s', step s s' ∧ work s' < work s

variable {step : S → S → Prop} {settled : S → Prop} {work : S → Int} {s t : S} {n : Nat}

theorem effort_work (system : Settling step settled work) (effort : Effort step s n t) : n + work t ≤ work s := by
  induction effort with
  | start => simp
  | idle _ _ ih => exact ih
  | @work n t t' _ stepped changed ih =>
    have less : work t' < work t := (system.works t t' stepped).resolve_left changed
    push_cast
    omega

/-- From every state there is a way to settle. -/
theorem can_settle (system : Settling step settled work) (left : Nat) :
    ∀ s, work s ≤ left → ∃ n t, Effort step s n t ∧ settled t := by
  have longer : ∀ {s s' t : S} {n : Nat}, step s s' → s' ≠ s → Effort step s' n t → Effort step s (n + 1) t := by
    intro s s' t n first changed later
    induction later with
    | start => exact .work .start first changed
    | idle _ stepped ih => exact .idle ih stepped
    | work _ stepped other ih => exact .work ih stepped other
  induction left with
  | zero =>
    intro s none_left
    rcases system.progress s with done | ⟨s',_,less⟩
    · exact ⟨0,s,.start,done⟩
    · have nonneg := system.least s'
      omega
  | succ left ih =>
    intro s bound
    rcases system.progress s with done | ⟨s',stepped,less⟩
    · exact ⟨0,s,.start,done⟩
    · obtain ⟨n,t,effort,done⟩ := ih s' (by omega)
      have changed : s' ≠ s := by
        rintro rfl
        omega
      exact ⟨n + 1,t,longer stepped changed effort,done⟩

/-- No run does more than the work there was, in every state of it there is something to do or the
    system has settled, and it can still settle. -/
theorem effort_settles (system : Settling step settled work) (effort : Effort step s n t) :
    n ≤ work s ∧ (settled t ∨ ∃ t', step t t' ∧ t' ≠ t) ∧ ∃ m u, Effort step t m u ∧ settled u := by
  have bound := effort_work system effort
  have nonneg := system.least t
  refine ⟨by omega,?_,can_settle system (work t).toNat t (by omega)⟩
  rcases system.progress t with done | ⟨t',stepped,less⟩
  · exact .inl done
  · refine .inr ⟨t',stepped,?_⟩
    rintro rfl
    omega

end AcapyRedis.Efforts
