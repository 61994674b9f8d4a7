import Mathlib.Logic.Basic

/-!
# Steps that may be stopped

Steps on a state that is changed as they go, and that is kept when they are stopped. The state may itself be
the state of a process that goes on forever.
-/

namespace Patchboard

variable {m : Type → Type} [Monad m] [LawfulMonad m] {σ ε α β : Type} {s s' : σ}

/-- Steps follow steps that come to an end. -/
theorem run_bind_of_ok {steps : ExceptT ε (StateT σ m) α} {next : α → ExceptT ε (StateT σ m) β} {a : α}
    (h : steps.run.run s = pure (.ok a, s')) :
  (steps >>= next).run.run s = (next a).run.run s'
  := by
  rw [ExceptT.run_bind, StateT.run_bind, h, pure_bind]

/-- Steps do not follow steps that are stopped. -/
theorem run_bind_of_error {steps : ExceptT ε (StateT σ m) α} {next : α → ExceptT ε (StateT σ m) β} {d : ε}
    (h : steps.run.run s = pure (.error d, s')) :
  (steps >>= next).run.run s = pure (.error d, s')
  := by
  rw [ExceptT.run_bind, StateT.run_bind, h, pure_bind]
  rfl

/-- Steps do not follow steps that go on forever. -/
theorem run_bind_of_none {steps : ExceptT ε (StateT σ Option) α} {next : α → ExceptT ε (StateT σ Option) β}
    (h : steps.run.run s = none) :
  (steps >>= next).run.run s = none
  := by
  rw [ExceptT.run_bind, StateT.run_bind, h]
  rfl

end Patchboard
