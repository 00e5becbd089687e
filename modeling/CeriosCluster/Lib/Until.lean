import Mathlib.Logic.Function.Iterate

/-!
# What happens first along the turns of a machine

A deterministic machine goes from a state to the `next` one. `Until next goesOn done s` says that
from `s` on it comes to a state that is `done` and that it `goesOn` in every state before that. A
loop that is run for a number of turns returns within some number exactly when this is so.
-/

namespace CeriosCluster.Lib

variable {σ : Type} (next : σ → σ) (goesOn done : σ → Prop)

def Until (s : σ) : Prop := ∃ n, done (next^[n] s) ∧ ∀ k < n, goesOn (next^[k] s)

variable {next goesOn done} {s : σ}

theorem Until.now (h : done s) : Until next goesOn done s := ⟨0, h, fun _ hk => absurd hk (Nat.not_lt_zero _)⟩

theorem Until.later (hgoes : goesOn s) (h : Until next goesOn done (next s)) : Until next goesOn done s := by
  obtain ⟨n, hdone, hall⟩ := h
  refine ⟨n + 1, by rwa [Function.iterate_succ_apply], fun k hk => ?_⟩
  cases k with
  | zero => exact hgoes
  | succ k =>
    rw [Function.iterate_succ_apply]
    exact hall k (Nat.lt_of_succ_lt_succ hk)

theorem until_iff : Until next goesOn done s ↔ done s ∨ goesOn s ∧ Until next goesOn done (next s) := by
  constructor
  · rintro ⟨n, hdone, hall⟩
    cases n with
    | zero => exact Or.inl hdone
    | succ n =>
      refine Or.inr ⟨hall 0 (Nat.succ_pos n), n, by rwa [Function.iterate_succ_apply] at hdone, fun k hk => ?_⟩
      have hgoes := hall (k + 1) (Nat.succ_lt_succ hk)
      rwa [Function.iterate_succ_apply] at hgoes
  · rintro (hdone | ⟨hgoes, h⟩)
    · exact Until.now hdone
    · exact Until.later hgoes h

theorem until_true_iff : Until next (fun _ => True) done s ↔ ∃ n, done (next^[n] s) :=
  exists_congr fun _ => and_iff_left fun _ _ => trivial

/-- A machine that is seen through `f` comes to the same. -/
theorem until_map {τ : Type} {next' : τ → τ} {f : σ → τ} (hnext : ∀ s, f (next s) = next' (f s))
    (goesOn' done' : τ → Prop) (s : σ) : Until next (fun s => goesOn' (f s)) (fun s => done' (f s)) s ↔
      Until next' goesOn' done' (f s) := by
  have hiterate (n : Nat) : f (next^[n] s) = next'^[n] (f s) :=
    (Function.Semiconj.iterate_right (show Function.Semiconj f next next' from hnext) n).eq s
  simp only [Until, hiterate]

/-- **A loop with a counter**: it `returns` within some number of turns exactly when the machine comes to a state in
which it is done. The loop need only be as described on states that satisfy an invariant. -/
theorem exists_returns_iff (returns : Nat → σ → Prop) {I : σ → Prop} (hzero : ∀ s, ¬ returns 0 s)
    (hturn : ∀ fuel s, I s → (returns (fuel + 1) s ↔ done s ∨ goesOn s ∧ returns fuel (next s)))
    (hkeeps : ∀ s, I s → goesOn s → I (next s)) (hs : I s) : (∃ fuel, returns fuel s) ↔ Until next goesOn done s := by
  constructor
  · rintro ⟨fuel, h⟩
    induction fuel generalizing s with
    | zero => exact absurd h (hzero s)
    | succ fuel ih =>
      rcases (hturn fuel s hs).mp h with hdone | ⟨hgoes, h⟩
      · exact Until.now hdone
      · exact Until.later hgoes (ih (hkeeps s hs hgoes) h)
  · rintro ⟨n, hdone, hall⟩
    refine ⟨n + 1, ?_⟩
    induction n generalizing s with
    | zero => exact (hturn 0 s hs).mpr (Or.inl hdone)
    | succ n ih =>
      have hgoes : goesOn s := hall 0 (Nat.succ_pos n)
      refine (hturn (n + 1) s hs).mpr (Or.inr ⟨hgoes, ih (hkeeps s hs hgoes) ?_ fun k hk => ?_⟩)
      · rwa [Function.iterate_succ_apply] at hdone
      · have h := hall (k + 1) (Nat.succ_lt_succ hk)
        rwa [Function.iterate_succ_apply] at h

end CeriosCluster.Lib
