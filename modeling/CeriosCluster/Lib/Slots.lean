import Mathlib.Logic.Function.Basic

/-!
# Slots that own objects

A table says which object each slot holds, if it holds one. It is exclusive when no object is in two
slots: then the object that leaves a slot is in none, so whoever empties or overwrites a slot may free
what was in it.
-/

namespace CeriosCluster.Lib

variable {σ ι : Type}

def Exclusive (held : σ → Option ι) : Prop := ∀ s t i, held s = some i → held t = some i → s = t

def Unheld (held : σ → Option ι) (i : ι) : Prop := ∀ s, held s ≠ some i

variable [DecidableEq σ] {held : σ → Option ι} {s t : σ} {i j : ι} {p : Option ι}

/-- What is held after a write was written, or was held elsewhere. -/
theorem held_of_update (h : Function.update held s p t = some i) : t = s ∧ p = some i ∨ t ≠ s ∧ held t = some i := by
  rw [Function.update_apply] at h
  split at h
  · next hts => exact Or.inl ⟨hts, h⟩
  · next hts => exact Or.inr ⟨hts, h⟩

theorem Exclusive.update_none (h : Exclusive held) : Exclusive (Function.update held s none) := by
  intro t u i ht hu
  obtain ⟨-, hnone⟩ | ⟨-, ht⟩ := held_of_update ht
  · cases hnone
  obtain ⟨-, hnone⟩ | ⟨-, hu⟩ := held_of_update hu
  · cases hnone
  exact h t u i ht hu

theorem Exclusive.update_some (h : Exclusive held) (hi : Unheld held i) :
    Exclusive (Function.update held s (some i)) := by
  intro t u j ht hu
  rcases held_of_update ht with ⟨hts, hji⟩ | ⟨-, ht'⟩
  · rcases held_of_update hu with ⟨hus, -⟩ | ⟨-, hu'⟩
    · exact hts.trans hus.symm
    · exact absurd (hji ▸ hu') (hi u)
  · rcases held_of_update hu with ⟨-, hji⟩ | ⟨-, hu'⟩
    · exact absurd (hji ▸ ht') (hi t)
    · exact h t u j ht' hu'

theorem Exclusive.unheld_of_update (h : Exclusive held) (hs : held s = some i) (hp : p ≠ some i) :
    Unheld (Function.update held s p) i := by
  intro t ht
  obtain ⟨-, hpi⟩ | ⟨hts, ht⟩ := held_of_update ht
  · exact hp hpi
  · exact hts (h t s i ht hs)

theorem Unheld.update (h : Unheld held i) (hp : p ≠ some i) : Unheld (Function.update held s p) i := by
  intro t ht
  obtain ⟨-, hpi⟩ | ⟨-, ht⟩ := held_of_update ht
  · exact hp hpi
  · exact h t ht

end CeriosCluster.Lib
