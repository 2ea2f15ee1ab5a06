import Uzel.Foundation.Runs

/-! # Simulations between event-driven systems

A system simulates another one when each of its steps, seen from outside, is a run of the other.  What
holds in all states that the abstract system reaches then holds of what is seen of the concrete one.
-/

namespace Uzel.Foundation

variable {σ τ ε δ : Type*}

theorem exec_append {step : σ → ε → Option σ} {s : σ} {first second : List ε} :
    exec step s (first ++ second) = (exec step s first).bind fun t => exec step t second := by
  induction first generalizing s with
  | nil => rfl
  | cons e first inductionHypothesis =>
    simp only [List.cons_append, exec, Option.bind_assoc]
    exact congrArg _ (funext fun t => inductionHypothesis)

theorem exec_append_some {step : σ → ε → Option σ} {s t : σ} {first second : List ε} :
    exec step s (first ++ second) = some t ↔
      ∃ u, exec step s first = some u ∧ exec step u second = some t := by
  rw [exec_append, Option.bind_eq_some_iff]

theorem exec_singleton {step : σ → ε → Option σ} {s : σ} {e : ε} : exec step s [e] = step s e := by
  cases next : step s e <;> simp [exec, next]

/-- A predicate holds along a run when it holds after each of its beginnings. -/
theorem always_of_exec {step : σ → ε → Option σ} {P : σ → Prop} {s : σ} {es : List ε}
    (each : ∀ first t, first <+: es → exec step s first = some t → P t) : Always step P s es := by
  induction es generalizing s with
  | nil => exact each [] s List.prefix_rfl rfl
  | cons e es inductionHypothesis =>
    refine ⟨each [] s List.nil_prefix rfl, fun t next => inductionHypothesis ?_⟩
    intro first u isPart executed
    exact each (e :: first) u (List.cons_prefix_cons.mpr ⟨rfl, isPart⟩) (exec_cons.mpr ⟨t, next, executed⟩)

/-- Every step of the concrete system from a state that stands for `t` is a run of the abstract one that
begins in `t`. -/
def Simulates (concrete : σ → ε → Option σ) (abstract : τ → δ → Option τ) (R : σ → τ → Prop) : Prop :=
  ∀ {s s' t e}, R s t → concrete s e = some s' → ∃ es t', exec abstract t es = some t' ∧ R s' t'

namespace Simulates

variable {concrete : σ → ε → Option σ} {abstract : τ → δ → Option τ} {R : σ → τ → Prop}

theorem exec (simulates : Simulates concrete abstract R) {s s' : σ} {t : τ} {es : List ε} (related : R s t)
    (executed : Foundation.exec concrete s es = some s') :
    ∃ ds t', Foundation.exec abstract t ds = some t' ∧ R s' t' := by
  induction es generalizing s t with
  | nil =>
    cases executed
    exact ⟨[], t, rfl, related⟩
  | cons e es inductionHypothesis =>
    obtain ⟨u, first, rest⟩ := exec_cons.mp executed
    obtain ⟨before, t', reached, related'⟩ := simulates related first
    obtain ⟨after, t'', reached', related''⟩ := inductionHypothesis related' rest
    exact ⟨before ++ after, t'', exec_append_some.mpr ⟨t', reached, reached'⟩, related''⟩

/-- An invariant of the abstract system holds of the states behind a run of the concrete one. -/
theorem always (simulates : Simulates concrete abstract R) {P : τ → Prop} {s : σ} {t : τ}
    (related : R s t) (invariant : ∀ ds, Always abstract P t ds) (es : List ε) :
    Always concrete (fun s' => ∃ t', R s' t' ∧ P t') s es := by
  apply always_of_exec
  intro first s' _ executed
  obtain ⟨ds, t', reached, related'⟩ := simulates.exec related executed
  exact ⟨t', related', (invariant ds).last reached⟩

end Simulates

end Uzel.Foundation
