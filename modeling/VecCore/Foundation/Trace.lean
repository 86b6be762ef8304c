/-
  Foundation/Trace.lean --- replies to a sequence of calls.

  A machine answers a call in a state with a reply and a next state, or is
  undefined there.  Two machines that answer alike wherever a condition holds give
  the same replies and reach the same state on every sequence of calls that keeps
  to the condition.
-/
import Mathlib.Tactic.Common

set_option autoImplicit false

namespace VecCore.Foundation

variable {κ ρ σ : Type*}

/-- Answers the calls in order, collecting the replies. -/
def runCalls (step : κ → σ → Option (ρ × σ)) : List κ → σ → Option (List ρ × σ)
  | [], s => some ([], s)
  | c :: calls, s => (step c s).bind fun a =>
      (runCalls step calls a.2).map fun b => (a.1 :: b.1, b.2)

/-- Every call that is reached meets the condition in the state it is made in. -/
def Along (step : κ → σ → Option (ρ × σ)) (P : κ → σ → Prop) : List κ → σ → Prop
  | [], _ => True
  | c :: calls, s => P c s ∧ ∀ a, step c s = some a → Along step P calls a.2

/-- A condition on the calls alone is met along every run. -/
theorem Along.of_forall {step : κ → σ → Option (ρ × σ)} {P : κ → σ → Prop} :
    ∀ {calls : List κ}, (∀ c ∈ calls, ∀ s, P c s) → ∀ s, Along step P calls s
  | [], _, _ => trivial
  | c :: _, h, s => ⟨h c List.mem_cons_self s, fun a _ =>
      Along.of_forall (fun c' hc' => h c' (List.mem_cons_of_mem c hc')) a.2⟩

/-- Machines that answer alike under a condition answer alike along every run that
meets it. -/
theorem runCalls_congr {step step' : κ → σ → Option (ρ × σ)} {P : κ → σ → Prop}
    (hstep : ∀ c s, P c s → step' c s = step c s) :
    ∀ (calls : List κ) (s : σ), Along step P calls s →
      runCalls step' calls s = runCalls step calls s
  | [], _, _ => rfl
  | c :: calls, s, ⟨hc, hrest⟩ => by
      rw [runCalls, runCalls, hstep c s hc]
      cases hans : step c s with
      | none => rfl
      | some a =>
        rw [Option.bind_some, Option.bind_some,
          runCalls_congr hstep calls a.2 (hrest a hans)]

end VecCore.Foundation
