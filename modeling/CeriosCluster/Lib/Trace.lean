import Mathlib.Data.List.Induction

/-!
# Traces

Precedence over a log that only grows at its end: an entry of a certain kind has something before it,
and everything after it is of another kind.
-/

namespace CeriosCluster.Lib

variable {α : Type} {IsMark Later : α → Prop} {Before : List α → Prop} {log added : List α} {a : α}

/-- Every mark of the log has `Before` before it and only `Later` entries after it. -/
def Marked (IsMark : α → Prop) (Before : List α → Prop) (Later : α → Prop) (log : List α) : Prop :=
  ∀ before x after, log = before ++ x :: after → IsMark x → Before before ∧ ∀ y ∈ after, Later y

theorem Marked.nil : Marked IsMark Before Later [] := by
  intro before x after h
  simp at h

/-- A log stays marked if the entry added to it is preceded by `Before` when it is a mark, and is `Later`
when the log has a mark. -/
theorem Marked.snoc (h : Marked IsMark Before Later log) (hmark : IsMark a → Before log)
    (hlater : (∃ x ∈ log, IsMark x) → Later a) : Marked IsMark Before Later (log ++ [a]) := by
  intro before x after heq hx
  rcases List.eq_nil_or_concat after with rfl | ⟨after, b, rfl⟩
  · obtain ⟨rfl, hax⟩ := List.append_inj' heq rfl
    obtain rfl : a = x := by simpa using hax
    exact ⟨hmark hx, by simp⟩
  · rw [List.concat_eq_append, ← List.cons_append, ← List.append_assoc] at heq
    obtain ⟨rfl, hab⟩ := List.append_inj' heq rfl
    obtain rfl : a = b := by simpa using hab
    obtain ⟨hbefore, hafter⟩ := h before x after rfl hx
    refine ⟨hbefore, fun y hy => ?_⟩
    rw [List.concat_eq_append] at hy
    rcases List.mem_append.mp hy with hy | hy
    · exact hafter y hy
    · rw [List.mem_singleton.mp hy]
      exact hlater ⟨x, by simp, hx⟩

/-- Entries that are no marks keep a log marked, if they are `Later` when it has a mark. -/
theorem Marked.append (h : Marked IsMark Before Later log) (hmark : ∀ a ∈ added, ¬ IsMark a)
    (hlater : (∃ x ∈ log, IsMark x) → ∀ a ∈ added, Later a) : Marked IsMark Before Later (log ++ added) := by
  induction added using List.reverseRecOn with
  | nil => simpa using h
  | append_singleton added a ih =>
    rw [← List.append_assoc]
    refine (ih (fun x hx => hmark x (by simp [hx])) fun hm x hx => hlater hm x (by simp [hx])).snoc ?_ ?_
    · exact fun ha => absurd ha (hmark a (by simp))
    · rintro ⟨x, hx, hxm⟩
      rcases List.mem_append.mp hx with hx | hx
      · exact hlater ⟨x, hx, hxm⟩ a (by simp)
      · exact absurd hxm (hmark x (by simp [hx]))

end CeriosCluster.Lib
