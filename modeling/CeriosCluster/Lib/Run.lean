import Mathlib.Logic.Basic

/-!
# Runs of an event-driven machine

A machine is a partial step function: `step s e` is the state after event `e`, or `none` if `e`
cannot happen in `s`. A run is a list of events, followed as far as it goes. `AllStates` speaks of
every state a run reaches and `AllSteps` of every step it takes.
-/

namespace CeriosCluster.Lib

variable {σ ι : Type} (step : σ → ι → Option σ)

/-- `P` holds of every state the run reaches, the first one included. -/
def AllStates (P : σ → Prop) : σ → List ι → Prop
  | s, [] => P s
  | s, e :: es => P s ∧ ∀ s', step s e = some s' → AllStates P s' es

/-- `C` holds of every step the run takes: of the state before it and its event. -/
def AllSteps (C : σ → ι → Prop) : σ → List ι → Prop
  | _, [] => True
  | s, e :: es => ∀ s', step s e = some s' → C s e ∧ AllSteps C s' es

/-- The state at the end of a run all of whose events can happen. -/
def runFrom : σ → List ι → Option σ
  | s, [] => some s
  | s, e :: es => (step s e).bind fun s' => runFrom s' es

variable {step} {P Q I : σ → Prop} {C D : σ → ι → Prop} {s s' : σ} {e : ι} {es es' : List ι}

theorem runFrom_cons (h : step s e = some s') : runFrom step s (e :: es) = runFrom step s' es := by
  simp [runFrom, h]

theorem runFrom_cons_some {t : σ} (h : runFrom step s (e :: es) = some t) :
    ∃ s', step s e = some s' ∧ runFrom step s' es = some t :=
  Option.bind_eq_some_iff.mp h

theorem runFrom_append : runFrom step s (es ++ es') = (runFrom step s es).bind fun t => runFrom step t es' := by
  induction es generalizing s with
  | nil => rfl
  | cons e es ih =>
    simp only [List.cons_append, runFrom]
    cases step s e with
    | none => rfl
    | some t => simpa using ih

theorem AllStates.first (h : AllStates step P s es) : P s := by
  cases es with
  | nil => exact h
  | cons e es => exact h.1

theorem AllStates.mono (hPQ : ∀ s, P s → Q s) (h : AllStates step P s es) : AllStates step Q s es := by
  induction es generalizing s with
  | nil => exact hPQ s h
  | cons e es ih => exact ⟨hPQ s h.1, fun t ht => ih (h.2 t ht)⟩

theorem AllSteps.mono (hCD : ∀ s e, C s e → D s e) (h : AllSteps step C s es) : AllSteps step D s es := by
  induction es generalizing s with
  | nil => trivial
  | cons e es ih =>
    intro s' hs'
    obtain ⟨hc, hrest⟩ := h s' hs'
    exact ⟨hCD s e hc, ih hrest⟩

/-- A decidable condition can be checked along a run. -/
instance AllSteps.decidable [∀ s e, Decidable (C s e)] : ∀ s es, Decidable (AllSteps step C s es)
  | _, [] => isTrue trivial
  | s, e :: es =>
    match h : step s e with
    | none => isTrue fun s' hs' => by rw [h] at hs'; cases hs'
    | some t =>
      have := AllSteps.decidable t es
      decidable_of_iff (C s e ∧ AllSteps step C t es)
        ⟨fun hall s' hs' => by rw [h] at hs'; exact Option.some.inj hs' ▸ hall, fun hall => hall t h⟩

theorem AllStates.last {t : σ} (h : AllStates step P s es) (hrun : runFrom step s es = some t) : P t := by
  induction es generalizing s with
  | nil =>
    obtain rfl : s = t := Option.some.inj hrun
    exact h
  | cons e es ih =>
    obtain ⟨s', hs', hrun'⟩ := runFrom_cons_some hrun
    exact ih (h.2 s' hs') hrun'

/-- **Invariant rule.** What every step meeting `C` preserves holds along every run whose steps meet
`C`. -/
theorem allStates_of_inv (hstep : ∀ s e s', I s → C s e → step s e = some s' → I s') (h₀ : I s)
    (hC : AllSteps step C s es) : AllStates step I s es := by
  induction es generalizing s with
  | nil => exact h₀
  | cons e es ih =>
    refine ⟨h₀, fun s' hs' => ?_⟩
    obtain ⟨hc, hrest⟩ := hC s' hs'
    exact ih (hstep s e s' h₀ hc hs') hrest

/-- The invariant rule for a property of the steps: `D` holds of a step taken from the invariant. -/
theorem allSteps_of_inv (hstep : ∀ s e s', I s → C s e → step s e = some s' → I s')
    (hD : ∀ s e s', I s → C s e → step s e = some s' → D s e) (h₀ : I s)
    (hC : AllSteps step C s es) : AllSteps step D s es := by
  induction es generalizing s with
  | nil => trivial
  | cons e es ih =>
    intro s' hs'
    obtain ⟨hc, hrest⟩ := hC s' hs'
    exact ⟨hD s e s' h₀ hc hs', ih (hstep s e s' h₀ hc hs') hrest⟩

theorem AllSteps.last {t t' : σ} (h : AllSteps step C s (es ++ [e])) (hrun : runFrom step s es = some t)
    (hstep : step t e = some t') : C t e := by
  induction es generalizing s with
  | nil =>
    obtain rfl : s = t := Option.some.inj hrun
    exact (h t' hstep).1
  | cons a es ih =>
    obtain ⟨s', hs', hrun'⟩ := runFrom_cons_some hrun
    exact ih (h s' hs').2 hrun'

/-- A condition no step can fail holds of every run. -/
theorem allSteps_of_forall (h : ∀ s e, C s e) : AllSteps step C s es := by
  induction es generalizing s with
  | nil => trivial
  | cons e es ih => exact fun s' _ => ⟨h s e, ih⟩

/-- **Exact conditions.** If steps meeting `C` keep the invariant, the invariant gives `P`, and a step
from the invariant that fails `C` ends outside `P`, then `P` holds along a run exactly when all its
steps meet `C`. -/
theorem allStates_iff_allSteps (hstep : ∀ s e s', I s → C s e → step s e = some s' → I s')
    (hP : ∀ s, I s → P s) (hbad : ∀ s e s', I s → ¬ C s e → step s e = some s' → ¬ P s')
    (h₀ : I s) : AllStates step P s es ↔ AllSteps step C s es := by
  refine ⟨fun h => ?_, fun h => (allStates_of_inv hstep h₀ h).mono hP⟩
  induction es generalizing s with
  | nil => trivial
  | cons e es ih =>
    intro s' hs'
    have hrest := h.2 s' hs'
    have hc : C s e := Classical.byContradiction fun hn => hbad s e s' h₀ hn hs' hrest.first
    exact ⟨hc, ih (hstep s e s' h₀ hc hs') hrest⟩

end CeriosCluster.Lib
