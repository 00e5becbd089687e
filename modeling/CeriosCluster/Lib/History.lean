import Mathlib.Logic.Basic

/-!
# Histories made of turns

A machine is told by its turns: `T s as t` says that from `s` it may do `as`, in this order, and is then in `t`. A
history is one turn after another. What each turn keeps of the state and of all that was done before it holds of
every history.
-/

namespace CeriosCluster.Lib

variable {σ τ α β : Type}

/-- One turn after another. -/
inductive History (T : σ → List α → σ → Prop) : σ → List α → σ → Prop
  | nil (s : σ) : History T s [] s
  | cons {s t u : σ} {as bs : List α} (h : T s as t) (hrest : History T t bs u) : History T s (as ++ bs) u

namespace History

variable {T T' : σ → List α → σ → Prop} {s t u : σ} {as bs : List α}

theorem single (h : T s as t) : History T s as t := by
  have hone := History.cons h (.nil t)
  rwa [List.append_nil] at hone

theorem append (h : History T s as t) (h' : History T t bs u) : History T s (as ++ bs) u := by
  induction h with
  | nil s => exact h'
  | cons hturn _ ih =>
    rw [List.append_assoc]
    exact .cons hturn (ih h')

theorem mono (hT : ∀ s as t, T s as t → T' s as t) (h : History T s as t) : History T' s as t := by
  induction h with
  | nil s => exact .nil s
  | cons hturn _ ih => exact .cons (hT _ _ _ hturn) ih

/-- **Simulation rule.** A machine that only sees some of what is done, and of the state. -/
theorem filterMap {U : τ → List β → τ → Prop} (f : σ → τ) (see : α → Option β)
    (hturn : ∀ s as t, T s as t → U (f s) (as.filterMap see) (f t)) (h : History T s as t) :
    History U (f s) (as.filterMap see) (f t) := by
  induction h with
  | nil s => exact .nil _
  | cons hfirst _ ih =>
    rw [List.filterMap_append]
    exact .cons (hturn _ _ _ hfirst) ih

/-- **Invariant rule.** `I` is about what has been done so far and the state it has led to. -/
theorem keeps {I : List α → σ → Prop} (hturn : ∀ done s as t, I done s → T s as t → I (done ++ as) t) {done : List α}
    (h₀ : I done s) (h : History T s as t) : I (done ++ as) t := by
  induction h generalizing done with
  | nil s => rwa [List.append_nil]
  | cons hfirst _ ih =>
    rw [← List.append_assoc]
    exact ih (hturn _ _ _ _ h₀ hfirst)

/-- The invariant rule from the start. -/
theorem keeps_nil {I : List α → σ → Prop} (hturn : ∀ done s as t, I done s → T s as t → I (done ++ as) t) (h₀ : I [] s)
    (h : History T s as t) : I as t := h.keeps hturn h₀

/-- What every turn relates, with what is done in it, a history relates. -/
theorem collects {R : σ → List α → σ → Prop} (hnil : ∀ s, R s [] s)
    (happend : ∀ s as t bs u, R s as t → R t bs u → R s (as ++ bs) u) (hturn : ∀ s as t, T s as t → R s as t)
    (h : History T s as t) : R s as t := by
  induction h with
  | nil s => exact hnil s
  | cons hfirst _ ih => exact happend _ _ _ _ _ (hturn _ _ _ hfirst) ih

theorem relates {R : σ → σ → Prop} (hrefl : ∀ s, R s s) (htrans : ∀ s t u, R s t → R t u → R s u)
    (hturn : ∀ s as t, T s as t → R s t) (h : History T s as t) : R s t := by
  induction h with
  | nil s => exact hrefl s
  | cons hfirst _ ih => exact htrans _ _ _ (hturn _ _ _ hfirst) ih

end History

end CeriosCluster.Lib
