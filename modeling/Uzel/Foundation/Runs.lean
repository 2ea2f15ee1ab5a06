import Mathlib.Tactic.ByContra
import Mathlib.Tactic.TypeStar

/-! # Runs of an event-driven system

A system is a partial step function: `step s e = some t` when the handler of the event `e`, run in
the state `s`, returns with the state `t`.  `none` stands for an event that cannot happen in `s` and
for a handler that never returns, so that a run ends there.

The two predicates over a run are `Always`, which holds of every state the run visits, and `Meets`,
which restricts the states in which an event may happen.  `always_of_meets` and `always_iff_meets`
are the rules by which an invariant is carried along a run: the first for a condition that is enough
to keep the invariant, the second for a condition whose first violation also breaks the property.
-/

namespace Uzel.Foundation

section Runs

variable {σ ε : Type*} (step : σ → ε → Option σ)

/-- The state after the events `es`, if all of their handlers return. -/
def exec : σ → List ε → Option σ
  | s, [] => some s
  | s, e :: es => (step s e).bind fun t => exec t es

/-- `P` holds in every state that the run `es` visits. -/
def Always (P : σ → Prop) : σ → List ε → Prop
  | s, [] => P s
  | s, e :: es => P s ∧ ∀ t, step s e = some t → Always P t es

/-- Every step of the run `es` is made in a state in which `cond` admits it. -/
def Meets (cond : σ → ε → Prop) : σ → List ε → Prop
  | _, [] => True
  | s, e :: es => ∀ t, step s e = some t → cond s e ∧ Meets cond t es

variable {step}

theorem exec_cons {s t : σ} {e : ε} {es : List ε} :
    exec step s (e :: es) = some t ↔ ∃ u, step s e = some u ∧ exec step u es = some t := by
  simp [exec, Option.bind_eq_some_iff]

theorem Always.first {P : σ → Prop} {s : σ} {es : List ε} (always : Always step P s es) : P s := by
  cases es with
  | nil => exact always
  | cons e es => exact always.1

theorem Always.mono {P Q : σ → Prop} (weaker : ∀ s, P s → Q s) {s : σ} {es : List ε}
    (always : Always step P s es) : Always step Q s es := by
  induction es generalizing s with
  | nil => exact weaker s always
  | cons e es inductionHypothesis =>
    exact ⟨weaker s always.1, fun t next => inductionHypothesis (always.2 t next)⟩

/-- The state in which a run ends is one of the states it visits. -/
theorem Always.last {P : σ → Prop} {s t : σ} {es : List ε} (always : Always step P s es)
    (executed : exec step s es = some t) : P t := by
  induction es generalizing s with
  | nil => cases executed; exact always
  | cons e es inductionHypothesis =>
    obtain ⟨u, first, rest⟩ := exec_cons.mp executed
    exact inductionHypothesis (always.2 u first) rest

/-- An invariant of the single steps holds all along every run. -/
theorem always_of_invariant {I : σ → Prop} (preserved : ∀ {s t e}, I s → step s e = some t → I t)
    {s : σ} (initial : I s) (es : List ε) : Always step I s es := by
  induction es generalizing s with
  | nil => exact initial
  | cons e es inductionHypothesis =>
    exact ⟨initial, fun t next => inductionHypothesis (preserved initial next)⟩

/-- An invariant that every admitted step keeps holds all along a run of admitted steps. -/
theorem always_of_meets {I : σ → Prop} {cond : σ → ε → Prop}
    (preserved : ∀ {s t e}, I s → step s e = some t → cond s e → I t)
    {s : σ} {es : List ε} (initial : I s) (meets : Meets step cond s es) : Always step I s es := by
  induction es generalizing s with
  | nil => exact initial
  | cons e es inductionHypothesis =>
    refine ⟨initial, fun t next => ?_⟩
    obtain ⟨admitted, rest⟩ := meets t next
    exact inductionHypothesis (preserved initial next admitted) rest

/-- A run whose steps each take off from a rank has no more steps than the rank has to give. -/
theorem length_le_rank {I : σ → Prop} (rank : σ → Nat) {admitted : ε → Prop}
    (lowers : ∀ {s t e}, I s → admitted e → step s e = some t → I t ∧ rank t < rank s)
    {s t : σ} {es : List ε} (initial : I s) (only : ∀ e ∈ es, admitted e)
    (executed : exec step s es = some t) : I t ∧ es.length + rank t ≤ rank s := by
  induction es generalizing s with
  | nil =>
    cases executed
    exact ⟨initial, by simp⟩
  | cons e es inductionHypothesis =>
    obtain ⟨u, first, rest⟩ := exec_cons.mp executed
    obtain ⟨kept, lower⟩ := lowers initial (only e List.mem_cons_self) first
    obtain ⟨last, fewer⟩ := inductionHypothesis kept (fun e member => only e (List.mem_cons_of_mem _ member)) rest
    exact ⟨last, by rw [List.length_cons]; omega⟩

/-- A run in two parts. -/
theorem meets_append {cond : σ → ε → Prop} {s : σ} {first second : List ε} :
    Meets step cond s (first ++ second) ↔ Meets step cond s first ∧
      ∀ t, exec step s first = some t → Meets step cond t second := by
  induction first generalizing s with
  | nil => simp [Meets, exec]
  | cons e first inductionHypothesis =>
    simp only [List.cons_append, Meets, inductionHypothesis, exec_cons]
    constructor
    · intro meets
      refine ⟨fun u next => ⟨(meets u next).1, (meets u next).2.1⟩, ?_⟩
      rintro t ⟨u, next, rest⟩
      exact (meets u next).2.2 t rest
    · rintro ⟨before, later⟩ u next
      exact ⟨(before u next).1, (before u next).2, fun t rest => later t ⟨u, next, rest⟩⟩

theorem meets_of_all {cond : σ → ε → Prop} {es : List ε} (admitted : ∀ e ∈ es, ∀ s, cond s e) (s : σ) :
    Meets step cond s es := by
  induction es generalizing s with
  | nil => trivial
  | cons e es inductionHypothesis =>
    rw [List.forall_mem_cons] at admitted
    exact fun t _ => ⟨admitted.1 s, inductionHypothesis admitted.2 t⟩

/-- Where moreover a step that is not admitted leads to a state without `P`, the runs that keep `P`
are exactly the runs of admitted steps. -/
theorem always_iff_meets {I P : σ → Prop} {cond : σ → ε → Prop}
    (sound : ∀ {s}, I s → P s)
    (preserved : ∀ {s t e}, I s → step s e = some t → cond s e → I t)
    (violated : ∀ {s t e}, I s → step s e = some t → ¬ cond s e → ¬ P t)
    {s : σ} {es : List ε} (initial : I s) : Always step P s es ↔ Meets step cond s es := by
  constructor
  · intro always
    induction es generalizing s with
    | nil => trivial
    | cons e es inductionHypothesis =>
      intro t next
      have visited := always.2 t next
      have admitted : cond s e := by
        by_contra refused
        exact violated initial next refused visited.first
      exact ⟨admitted, inductionHypothesis (preserved initial next admitted) visited⟩
  · intro meets
    exact (always_of_meets preserved initial meets).mono fun _ => sound

end Runs

end Uzel.Foundation
