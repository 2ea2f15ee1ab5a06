import Mathlib.Tactic.TypeStar

/-! # Outcomes of a call

A call on a state returns, leaves by an exception, or never returns.  An exception does not undo what
the call has done to the state before.  `Outcome.All` is the rule by which an invariant of the state
is carried through a sequence of calls whichever way each of them ends.
-/

namespace Uzel.Foundation

inductive Outcome (σ : Type*) where
  | done (state : σ)
  | raised (state : σ)
  | hung
deriving DecidableEq, Repr

namespace Outcome

variable {σ τ : Type*}

/-- Go on with the next call if this one has returned. -/
def andThen (outcome : Outcome σ) (next : σ → Outcome σ) : Outcome σ :=
  match outcome with
  | done state => next state
  | raised state => raised state
  | hung => hung

/-- `try { .. } catch (...) { }` -/
def attempt (outcome : Outcome σ) : Outcome σ :=
  match outcome with
  | done state => done state
  | raised state => done state
  | hung => hung

def map (f : σ → τ) : Outcome σ → Outcome τ
  | done state => done (f state)
  | raised state => raised (f state)
  | hung => hung

/-- One call after the other for the elements of a list. -/
def forEach {α : Type*} (call : α → σ → Outcome σ) : List α → σ → Outcome σ
  | [], state => done state
  | a :: as, state => (call a state).andThen (forEach call as)

/-- The state that the call leaves, by return or by exception. -/
def final : Outcome σ → Option σ
  | done state => some state
  | raised state => some state
  | hung => none

/-- `P` holds in the state that the call leaves. -/
def All (P : σ → Prop) : Outcome σ → Prop
  | done state => P state
  | raised state => P state
  | hung => True

/-- The call does not hang. -/
def Ends (outcome : Outcome σ) : Prop := outcome ≠ hung

@[simp] theorem andThen_done (state : σ) (next : σ → Outcome σ) :
    (done state).andThen next = next state := rfl
@[simp] theorem andThen_raised (state : σ) (next : σ → Outcome σ) :
    (raised state).andThen next = raised state := rfl
@[simp] theorem andThen_hung (next : σ → Outcome σ) : (hung : Outcome σ).andThen next = hung := rfl
theorem andThen_assoc (outcome : Outcome σ) (second third : σ → Outcome σ) :
    (outcome.andThen second).andThen third = outcome.andThen fun state => (second state).andThen third := by
  cases outcome <;> rfl

@[simp] theorem attempt_done (state : σ) : (done state).attempt = done state := rfl
@[simp] theorem attempt_raised (state : σ) : (raised state).attempt = done state := rfl
@[simp] theorem attempt_hung : (hung : Outcome σ).attempt = hung := rfl
@[simp] theorem map_done (f : σ → τ) (state : σ) : (done state).map f = done (f state) := rfl
@[simp] theorem map_raised (f : σ → τ) (state : σ) : (raised state).map f = raised (f state) := rfl
@[simp] theorem map_hung (f : σ → τ) : (hung : Outcome σ).map f = hung := rfl
@[simp] theorem final_done (state : σ) : (done state).final = some state := rfl
@[simp] theorem final_raised (state : σ) : (raised state).final = some state := rfl
@[simp] theorem final_hung : (hung : Outcome σ).final = none := rfl
@[simp] theorem all_done {P : σ → Prop} {state : σ} : (done state).All P ↔ P state := Iff.rfl
@[simp] theorem all_raised {P : σ → Prop} {state : σ} : (raised state).All P ↔ P state := Iff.rfl
@[simp] theorem all_hung {P : σ → Prop} : (hung : Outcome σ).All P := trivial

theorem All.of_final {P : σ → Prop} {outcome : Outcome σ} {state : σ} (all : outcome.All P)
    (left : outcome.final = some state) : P state := by
  cases outcome with
  | done _ => cases left; exact all
  | raised _ => cases left; exact all
  | hung => cases left

theorem all_of_final {P : σ → Prop} {outcome : Outcome σ}
    (each : ∀ state, outcome.final = some state → P state) : outcome.All P := by
  cases outcome with
  | done state => exact each state rfl
  | raised state => exact each state rfl
  | hung => trivial

theorem All.mono {P Q : σ → Prop} {outcome : Outcome σ} (all : outcome.All P)
    (weaker : ∀ state, P state → Q state) : outcome.All Q := by
  cases outcome with
  | done state => exact weaker state all
  | raised state => exact weaker state all
  | hung => trivial

theorem All.and {P Q : σ → Prop} {outcome : Outcome σ} (first : outcome.All P) (second : outcome.All Q) :
    outcome.All fun state => P state ∧ Q state := by
  cases outcome with
  | done state | raised state => exact ⟨first, second⟩
  | hung => trivial

theorem All.andThen {P : σ → Prop} {outcome : Outcome σ} {next : σ → Outcome σ}
    (first : outcome.All P) (second : ∀ state, P state → (next state).All P) :
    (outcome.andThen next).All P := by
  cases outcome with
  | done state => exact second state first
  | raised state => exact first
  | hung => trivial

theorem All.attempt {P : σ → Prop} {outcome : Outcome σ} (all : outcome.All P) :
    outcome.attempt.All P := by
  cases outcome with
  | done state => exact all
  | raised state => exact all
  | hung => trivial

/-- A guarded call returns in the state that the call leaves, unless it hangs. -/
theorem attempt_cases (outcome : Outcome σ) :
    (∃ state, outcome.final = some state ∧ outcome.attempt = done state) ∨
      (outcome.final = none ∧ outcome.attempt = hung) := by
  cases outcome with
  | done state => exact .inl ⟨state, rfl, rfl⟩
  | raised state => exact .inl ⟨state, rfl, rfl⟩
  | hung => exact .inr ⟨rfl, rfl⟩

@[simp] theorem final_map (f : σ → τ) (outcome : Outcome σ) :
    (outcome.map f).final = outcome.final.map f := by
  cases outcome <;> rfl

theorem all_map {P : τ → Prop} {f : σ → τ} {outcome : Outcome σ} :
    (outcome.map f).All P ↔ outcome.All fun state => P (f state) := by
  cases outcome <;> rfl

theorem All.forEach {α : Type*} {P : σ → Prop} {call : α → σ → Outcome σ} {as : List α}
    (each : ∀ a ∈ as, ∀ state, P state → (call a state).All P) {state : σ} (initial : P state) :
    (forEach call as state).All P := by
  induction as generalizing state with
  | nil => exact initial
  | cons a as inductionHypothesis =>
    apply All.andThen (each a List.mem_cons_self state initial)
    intro state holds
    exact inductionHypothesis (fun b member => each b (List.mem_cons_of_mem a member)) holds

/-! A change of the state that the calls do not see can be made before them or after them. -/

@[simp] theorem map_map {υ : Type*} (f : σ → τ) (g : τ → υ) (outcome : Outcome σ) :
    (outcome.map f).map g = outcome.map fun state => g (f state) := by
  cases outcome <;> rfl

theorem map_andThen {f : σ → τ} {outcome : Outcome σ} {next : σ → Outcome σ} {next' : τ → Outcome τ}
    (same : ∀ state, next' (f state) = (next state).map f) :
    (outcome.andThen next).map f = (outcome.map f).andThen next' := by
  cases outcome with
  | done state => exact (same state).symm
  | raised state => rfl
  | hung => rfl

theorem map_attempt (f : σ → τ) (outcome : Outcome σ) : (outcome.map f).attempt = outcome.attempt.map f := by
  cases outcome <;> rfl

theorem map_forEach {α : Type*} {f : σ → σ} {call : α → σ → Outcome σ}
    (same : ∀ a state, call a (f state) = (call a state).map f) (as : List α) (state : σ) :
    forEach call as (f state) = (forEach call as state).map f := by
  induction as generalizing state with
  | nil => rfl
  | cons a as inductionHypothesis =>
    rw [forEach, same, forEach, map_andThen inductionHypothesis]

@[simp] theorem ends_done (state : σ) : (done state).Ends := nofun
@[simp] theorem ends_raised (state : σ) : (raised state).Ends := nofun

theorem Ends.map {outcome : Outcome σ} (ends : outcome.Ends) (f : σ → τ) : (outcome.map f).Ends := by
  cases outcome with
  | done state => exact ends_done _
  | raised state => exact ends_raised _
  | hung => exact absurd rfl ends

theorem Ends.andThen {outcome : Outcome σ} {next : σ → Outcome σ} (first : outcome.Ends)
    (second : ∀ state, (next state).Ends) : (outcome.andThen next).Ends := by
  cases outcome with
  | done state => exact second state
  | raised state => exact ends_raised _
  | hung => exact absurd rfl first

theorem Ends.forEach {α : Type*} {call : α → σ → Outcome σ} (each : ∀ a state, (call a state).Ends)
    (as : List α) (state : σ) : (forEach call as state).Ends := by
  induction as generalizing state with
  | nil => exact ends_done _
  | cons a as inductionHypothesis => exact (each a state).andThen inductionHypothesis

theorem Ends.attempt {outcome : Outcome σ} (ends : outcome.Ends) :
    ∃ state, outcome.final = some state ∧ outcome.attempt = done state := by
  rcases outcome.attempt_cases with returned | ⟨hangs, _⟩
  · exact returned
  · cases outcome with
    | done state => cases hangs
    | raised state => cases hangs
    | hung => exact absurd rfl ends

end Outcome

end Uzel.Foundation
