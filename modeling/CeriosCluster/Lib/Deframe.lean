import Mathlib.Data.List.Basic

/-!
# Splitting a stream into frames

`next` takes one frame off the front of a buffer, if a whole one is there. If more input never
changes a frame that is already complete, the frames of a stream and what is left over do not
depend on how the stream was cut into pieces.
-/

namespace CeriosCluster.Lib

/-- A way to take one frame off the front of a buffer. -/
structure Framing (α φ : Type) where
  next : List α → Option (φ × List α)
  next_append : ∀ {b f r}, next b = some (f, r) → ∀ x, next (b ++ x) = some (f, r ++ x)
  next_shorter : ∀ {b f r}, next b = some (f, r) → r.length < b.length

namespace Framing

variable {α φ : Type} (F : Framing α φ)

/-- All complete frames at the front of a buffer. -/
def frames (b : List α) : List φ :=
  match _h : F.next b with
  | none => []
  | some (f, r) => f :: frames r
termination_by b.length
decreasing_by exact F.next_shorter (by assumption)

def rest (b : List α) : List α :=
  match _h : F.next b with
  | none => b
  | some (_, r) => rest r
termination_by b.length
decreasing_by exact F.next_shorter (by assumption)

variable {F} {b r x : List α} {f : φ}

theorem frames_of_none (h : F.next b = none) : F.frames b = [] := by
  rw [frames]
  split
  · rfl
  · next h' => rw [h] at h'; cases h'

theorem rest_of_none (h : F.next b = none) : F.rest b = b := by
  rw [rest]
  split
  · rfl
  · next h' => rw [h] at h'; cases h'

theorem frames_of_some (h : F.next b = some (f, r)) : F.frames b = f :: F.frames r := by
  rw [frames]
  split
  · next h' => rw [h] at h'; cases h'
  · next h' => rw [h] at h'; cases h'; rfl

theorem rest_of_some (h : F.next b = some (f, r)) : F.rest b = F.rest r := by
  rw [rest]
  split
  · next h' => rw [h] at h'; cases h'
  · next h' => rw [h] at h'; cases h'; rfl

/-- Nothing complete is left over. -/
theorem next_rest (b : List α) : F.next (F.rest b) = none := by
  induction b using rest.induct F with
  | case1 b h => rw [rest_of_none h]; exact h
  | case2 b f r h ih => rw [rest_of_some h]; exact ih

/-- **Segmentation.** The frames of `b` followed by `x` are those of `b`, then those of what `b` left
over followed by `x`; likewise for the rest. -/
theorem frames_append (b x : List α) :
    F.frames (b ++ x) = F.frames b ++ F.frames (F.rest b ++ x) ∧
      F.rest (b ++ x) = F.rest (F.rest b ++ x) := by
  induction b using rest.induct F with
  | case1 b h =>
    rw [frames_of_none h, rest_of_none h]
    exact ⟨rfl, rfl⟩
  | case2 b f r h ih =>
    have happ := F.next_append h x
    rw [frames_of_some happ, rest_of_some happ, frames_of_some h, rest_of_some h, ih.1, ih.2]
    exact ⟨rfl, rfl⟩

/-- **Round trip.** Frames written one after the other are taken apart again. -/
theorem frames_flatten {encode : φ → List α} {fs : List φ}
    (hencode : ∀ f ∈ fs, ∀ x, F.next (encode f ++ x) = some (f, x))
    (x : List α) : F.frames ((fs.map encode).flatten ++ x) = fs ++ F.frames x ∧ F.rest
    ((fs.map encode).flatten ++ x) = F.rest x := by
  induction fs with
  | nil => exact ⟨rfl, rfl⟩
  | cons f fs ih =>
    have hnext := hencode f (List.mem_cons_self ..) ((fs.map encode).flatten ++ x)
    rw [List.map_cons, List.flatten_cons, List.append_assoc, frames_of_some hnext, rest_of_some hnext]
    obtain ⟨hframes, hrest⟩ := ih fun f' hf' => hencode f' (List.mem_cons_of_mem _ hf')
    exact ⟨by rw [hframes]; rfl, hrest⟩

end Framing

end CeriosCluster.Lib
