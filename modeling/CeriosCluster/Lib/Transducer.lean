import Mathlib.Data.List.Basic

/-!
# Stream transducers

A stateful element-by-element transducer, given by what it outputs for an input after a history of
inputs: any deterministic machine that emits one output per input is of this form, with the history
as its state.
-/

namespace CeriosCluster.Lib

variable {α β : Type} (f : List α → α → β)

/-- The outputs for `xs` after the inputs `history`. -/
def transduce : List α → List α → List β
  | _, [] => []
  | history, x :: xs => f history x :: transduce (history ++ [x]) xs

variable {f} {history xs ys : List α}

@[simp] theorem transduce_nil : transduce f history [] = [] := rfl

@[simp] theorem length_transduce : (transduce f history xs).length = xs.length := by
  induction xs generalizing history with
  | nil => rfl
  | cons x xs ih => simp [transduce, ih]

theorem transduce_append :
    transduce f history (xs ++ ys) = transduce f history xs ++ transduce f (history ++ xs) ys := by
  induction xs generalizing history with
  | nil => simp
  | cons x xs ih => simp [transduce, ih]

theorem transduce_prefix (h : xs <+: ys) : transduce f history xs <+: transduce f history ys := by
  obtain ⟨zs, rfl⟩ := h
  exact ⟨_, transduce_append.symm⟩

/-- Each output of `f` gives its input back through `h`. -/
def Inverts (f : List α → α → β) (h : List β → β → α) : Prop := ∀ xs, transduce h [] (transduce f [] xs) = xs

/-- An inverse that has followed a run from its start goes on to follow it. -/
theorem Inverts.continue {h : List β → β → α} (hinv : Inverts f h) :
    transduce h (transduce f [] history) (transduce f history xs) = xs := by
  have hwhole := hinv (history ++ xs)
  rw [transduce_append, transduce_append, hinv history, List.nil_append, List.nil_append] at hwhole
  exact List.append_cancel_left hwhole

end CeriosCluster.Lib
