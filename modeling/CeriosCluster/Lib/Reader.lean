import CeriosCluster.Lib.History

/-!
# Reading a log

A reader goes through a log from its start with a state of its own, and gives some outputs at every entry. If it is at
rest again after every turn that a log is made of, the outputs for the log are those for its turns, one after the other.
-/

namespace CeriosCluster.Lib

structure Reader (ρ α ω : Type) where
  rest : ρ
  read : ρ → α → ρ × List ω

namespace Reader

variable {σ ρ α ω : Type} (M : Reader ρ α ω)

def run : ρ → List α → ρ × List ω
  | r, [] => (r, [])
  | r, a :: as => ((run (M.read r a).1 as).1, (M.read r a).2 ++ (run (M.read r a).1 as).2)

def outputs (log : List α) : List ω := (M.run M.rest log).2

/-- The reader is at rest after these entries if it was before, and gives these outputs for them. -/
def Settles (as : List α) (out : List ω) : Prop := M.run M.rest as = (M.rest, out)

variable {M} {r : ρ} {as bs : List α} {out out' : List ω} {T : σ → List α → σ → Prop} {s t : σ}

theorem run_append : M.run r (as ++ bs) =
    ((M.run (M.run r as).1 bs).1, (M.run r as).2 ++ (M.run (M.run r as).1 bs).2) := by
  induction as generalizing r with
  | nil => simp [run]
  | cons a as ih => simp [run, ih]

theorem Settles.nil : M.Settles [] [] := rfl

theorem Settles.append (h : M.Settles as out) (h' : M.Settles bs out') : M.Settles (as ++ bs) (out ++ out') := by
  unfold Settles at h h' ⊢
  rw [run_append, h, h']

theorem Settles.outputs (h : M.Settles as out) : M.outputs as = out := congrArg Prod.snd h

/-- A log made of turns after each of which the reader is at rest. -/
theorem settles_of_history (hturn : ∀ s as t, T s as t → ∃ out, M.Settles as out) (h : History T s as t) :
    M.Settles as (M.outputs as) := by
  have hsettles : ∃ out, M.Settles as out := by
    induction h with
    | nil s => exact ⟨[], .nil⟩
    | cons hfirst _ ih =>
      obtain ⟨out, hout⟩ := hturn _ _ _ hfirst
      obtain ⟨out', hout'⟩ := ih
      exact ⟨out ++ out', hout.append hout'⟩
  obtain ⟨out, hout⟩ := hsettles
  rw [hout.outputs]
  exact hout

theorem settles_nil_of_history (hturn : ∀ s as t, T s as t → M.Settles as []) (h : History T s as t) :
    M.Settles as [] := by
  induction h with
  | nil s => exact .nil
  | cons hfirst _ ih => exact (hturn _ _ _ hfirst).append ih

end Reader

end CeriosCluster.Lib
