import Mathlib.Data.List.Basic

/-!
# Splitting at a separator

The pieces of a list: none contains the separator, and each lies in the list.
-/

namespace CeriosCluster.Lib

variable {α : Type} [BEq α] [LawfulBEq α] {a : α} {xs piece : List α}

theorem mem_splitOn_cons {x : α} (h : piece ∈ (x :: xs).splitOn a) :
    piece = [] ∨ piece ∈ xs.splitOn a ∨ x ≠ a ∧ ∃ first ∈ xs.splitOn a, piece = x :: first := by
  rw [List.splitOn_cons_eq_if_modifyHead] at h
  split at h
  · rcases List.mem_cons.mp h with hnil | hmem
    · exact Or.inl hnil
    · exact Or.inr (Or.inl hmem)
  · next hne =>
    cases hsplit : xs.splitOn a with
    | nil => exact absurd hsplit (List.splitOn_ne_nil a xs)
    | cons first pieces =>
      rw [hsplit, List.modifyHead_cons] at h
      rcases List.mem_cons.mp h with hfirst | hmem
      · exact Or.inr (Or.inr ⟨by simpa using hne, first, List.mem_cons_self, hfirst⟩)
      · exact Or.inr (Or.inl (List.mem_cons_of_mem _ hmem))

theorem not_mem_of_mem_splitOn (h : piece ∈ xs.splitOn a) : a ∉ piece := by
  induction xs generalizing piece with
  | nil =>
    obtain rfl : piece = [] := by simpa using h
    exact List.not_mem_nil
  | cons x xs ih =>
    rcases mem_splitOn_cons h with rfl | hmem | ⟨hne, first, hfirst, rfl⟩
    · exact List.not_mem_nil
    · exact ih hmem
    · exact List.not_mem_cons_of_ne_of_not_mem (Ne.symm hne) (ih hfirst)

theorem subset_of_mem_splitOn (h : piece ∈ xs.splitOn a) : piece ⊆ xs := by
  induction xs generalizing piece with
  | nil =>
    obtain rfl : piece = [] := by simpa using h
    exact List.Subset.refl _
  | cons x xs ih =>
    rcases mem_splitOn_cons h with rfl | hmem | ⟨-, first, hfirst, rfl⟩
    · exact List.nil_subset _
    · exact List.subset_cons_of_subset x (ih hmem)
    · exact List.cons_subset_cons x (ih hfirst)

omit [BEq α] [LawfulBEq α] in
/-- The last separator of a list is where the part behind it has none. -/
theorem append_cons_cancel {xs' ys ys' : List α} (h : xs ++ a :: ys = xs' ++ a :: ys') (hys : a ∉ ys) (hys' : a ∉ ys') :
    xs = xs' ∧ ys = ys' := by
  rcases List.append_eq_append_iff.mp h with ⟨between, hxs, hbetween⟩ | ⟨between, hxs, hbetween⟩
  · cases between with
    | nil =>
      rw [List.append_nil] at hxs
      exact ⟨hxs.symm, (List.cons.inj hbetween).2⟩
    | cons b between =>
      refine absurd ?_ hys
      rw [(List.cons.inj hbetween).2]
      simp
  · cases between with
    | nil =>
      rw [List.append_nil] at hxs
      exact ⟨hxs, (List.cons.inj hbetween).2.symm⟩
    | cons b between =>
      refine absurd ?_ hys'
      rw [(List.cons.inj hbetween).2]
      simp

end CeriosCluster.Lib
