import Mathlib.Logic.Basic
import Mathlib.Order.Defs.Unbundled

/-!
# Imperative programs over an explicit state

`Exec ε σ α` runs on a state `σ` and either returns a value, throws an exception `ε` (the state
keeps whatever was written before the throw), has no defined behaviour, or never returns. `wp`
is the weakest precondition for partial correctness: a run that is undefined or diverges satisfies
every postcondition. `Keeps R` is the frame form of it: whatever the program does, the state it
ends in is `R`-related to the one it started in.
-/

namespace CeriosCluster.Lib

inductive Res (ε σ α : Type)
  | ok (a : α) (s : σ)
  | threw (e : ε) (s : σ)
  | undefined
  | diverged
  deriving DecidableEq

/-- A program over states `σ` that may throw `ε`. -/
def Exec (ε σ α : Type) := σ → Res ε σ α

namespace Exec

variable {ε σ τ α β : Type}

def bind (m : Exec ε σ α) (f : α → Exec ε σ β) : Exec ε σ β := fun s =>
  match m s with
  | .ok a s' => f a s'
  | .threw e s' => .threw e s'
  | .undefined => .undefined
  | .diverged => .diverged

instance : Monad (Exec ε σ) where
  pure a := fun s => .ok a s
  bind := Exec.bind

def get : Exec ε σ σ := fun s => .ok s s

def set (s : σ) : Exec ε σ Unit := fun _ => .ok () s

def modify (f : σ → σ) : Exec ε σ Unit := fun s => .ok () (f s)

def throw (e : ε) : Exec ε σ α := fun s => .threw e s

/-- The behaviour is undefined from here on. -/
def undefined : Exec ε σ α := fun _ => .undefined

def diverge : Exec ε σ α := fun _ => .diverged

/-- Run `m`; if it throws, run the handler on the state the throw left. -/
def tryCatch (m : Exec ε σ α) (handler : ε → Exec ε σ α) : Exec ε σ α := fun s =>
  match m s with
  | .threw e s' => handler e s'
  | r => r

def zoom (read : σ → τ) (write : τ → σ → σ) (m : Exec ε τ α) : Exec ε σ α := fun s =>
  match m (read s) with
  | .ok a t => .ok a (write t s)
  | .threw e t => .threw e (write t s)
  | .undefined => .undefined
  | .diverged => .diverged

/-- Run a program on a local state of its own, which is dropped afterwards. -/
def onLocal (t : τ) (m : Exec ε τ α) : Exec ε σ α := fun s =>
  match m t with
  | .ok a _ => .ok a s
  | .threw e _ => .threw e s
  | .undefined => .undefined
  | .diverged => .diverged

section Run

@[simp] theorem run_pure (a : α) (s : σ) : (pure a : Exec ε σ α) s = .ok a s := rfl

@[simp] theorem run_get (s : σ) : (get : Exec ε σ σ) s = .ok s s := rfl

@[simp] theorem run_set (t s : σ) : (set t : Exec ε σ Unit) s = .ok () t := rfl

@[simp] theorem run_modify (f : σ → σ) (s : σ) : (modify f : Exec ε σ Unit) s = .ok () (f s) := rfl

@[simp] theorem run_throw (e : ε) (s : σ) : (throw e : Exec ε σ α) s = .threw e s := rfl

@[simp] theorem run_undefined (s : σ) : (undefined : Exec ε σ α) s = .undefined := rfl

@[simp] theorem run_diverge (s : σ) : (diverge : Exec ε σ α) s = .diverged := rfl

theorem run_bind (m : Exec ε σ α) (f : α → Exec ε σ β) (s : σ) :
    (m >>= f) s = match m s with
      | .ok a s' => f a s'
      | .threw e s' => .threw e s'
      | .undefined => .undefined
      | .diverged => .diverged := rfl

theorem run_bind_ok {m : Exec ε σ α} {f : α → Exec ε σ β} {s s' : σ} {a : α} (h : m s = .ok a s') :
    (m >>= f) s = f a s' := by
  rw [run_bind, h]

theorem run_bind_threw {m : Exec ε σ α} {f : α → Exec ε σ β} {s s' : σ} {e : ε}
    (h : m s = .threw e s') : (m >>= f) s = .threw e s' := by
  rw [run_bind, h]

theorem run_bind_undefined {m : Exec ε σ α} {f : α → Exec ε σ β} {s : σ} (h : m s = .undefined) :
    (m >>= f) s = .undefined := by
  rw [run_bind, h]

theorem run_bind_diverged {m : Exec ε σ α} {f : α → Exec ε σ β} {s : σ} (h : m s = .diverged) :
    (m >>= f) s = .diverged := by
  rw [run_bind, h]

theorem bind_assoc {γ : Type} (m : Exec ε σ α) (f : α → Exec ε σ β) (h : β → Exec ε σ γ) :
    (m >>= f) >>= h = m >>= fun a => f a >>= h := by
  funext s
  rw [run_bind, run_bind, run_bind]
  cases m s <;> rfl

theorem bind_pure_unit (m : Exec ε σ Unit) : (m >>= fun _ => pure ()) = m := by
  funext s
  rw [run_bind]
  cases m s <;> rfl

theorem run_onLocal_ok {m : Exec ε τ α} {t t' : τ} {s : σ} {a : α} (h : m t = .ok a t') :
    (onLocal t m : Exec ε σ α) s = .ok a s := by
  rw [onLocal, h]

theorem run_onLocal_threw {m : Exec ε τ α} {t t' : τ} {s : σ} {e : ε} (h : m t = .threw e t') :
    (onLocal t m : Exec ε σ α) s = .threw e s := by
  rw [onLocal, h]

theorem run_onLocal_undefined {m : Exec ε τ α} {t : τ} {s : σ} (h : m t = .undefined) :
    (onLocal t m : Exec ε σ α) s = .undefined := by
  rw [onLocal, h]

theorem run_onLocal_diverged {m : Exec ε τ α} {t : τ} {s : σ} (h : m t = .diverged) :
    (onLocal t m : Exec ε σ α) s = .diverged := by
  rw [onLocal, h]

theorem onLocal_eq_ok {m : Exec ε τ α} {t : τ} {s s' : σ} {a : α} :
    (onLocal t m : Exec ε σ α) s = .ok a s' ↔ ∃ t', m t = .ok a t' ∧ s' = s := by
  rw [onLocal]
  cases m t <;> simp [eq_comm]

theorem onLocal_eq_undefined {m : Exec ε τ α} {t : τ} {s : σ} :
    (onLocal t m : Exec ε σ α) s = .undefined ↔ m t = .undefined := by
  rw [onLocal]
  cases m t <;> simp

theorem bind_eq_ok {m : Exec ε σ α} {f : α → Exec ε σ β} {s s' : σ} {b : β} :
    (m >>= f) s = .ok b s' ↔ ∃ a t, m s = .ok a t ∧ f a t = .ok b s' := by
  rw [run_bind]
  cases m s <;> simp [and_assoc]

theorem bind_eq_undefined {m : Exec ε σ α} {f : α → Exec ε σ β} {s : σ} :
    (m >>= f) s = .undefined ↔ m s = .undefined ∨ ∃ a t, m s = .ok a t ∧ f a t = .undefined := by
  rw [run_bind]
  cases m s <;> simp [and_assoc]

end Run

/-! ## Weakest preconditions -/

def Sat (Q : α → σ → Prop) (E : ε → σ → Prop) : Res ε σ α → Prop
  | .ok a s => Q a s
  | .threw e s => E e s
  | .undefined => True
  | .diverged => True

def wp (m : Exec ε σ α) (Q : α → σ → Prop) (E : ε → σ → Prop) (s : σ) : Prop := Sat Q E (m s)

variable {Q : α → σ → Prop} {E : ε → σ → Prop} {s : σ}

@[simp] theorem wp_pure (a : α) : wp (pure a) Q E s ↔ Q a s := Iff.rfl

@[simp] theorem wp_get {Q : σ → σ → Prop} : wp get Q E s ↔ Q s s := Iff.rfl

@[simp] theorem wp_set {Q : Unit → σ → Prop} (t : σ) : wp (set t) Q E s ↔ Q () t := Iff.rfl

@[simp] theorem wp_modify {Q : Unit → σ → Prop} (f : σ → σ) : wp (modify f) Q E s ↔ Q () (f s) := Iff.rfl

@[simp] theorem wp_throw (e : ε) : wp (throw e) Q E s ↔ E e s := Iff.rfl

@[simp] theorem wp_undefined : wp undefined Q E s ↔ True := Iff.rfl

@[simp] theorem wp_diverge : wp diverge Q E s ↔ True := Iff.rfl

@[simp] theorem wp_bind {Q : β → σ → Prop} (m : Exec ε σ α) (f : α → Exec ε σ β) :
    wp (m >>= f) Q E s ↔ wp m (fun a s' => wp (f a) Q E s') E s := by
  unfold wp
  rw [run_bind]
  cases m s <;> exact Iff.rfl

@[simp] theorem wp_tryCatch (m : Exec ε σ α) (handler : ε → Exec ε σ α) :
    wp (tryCatch m handler) Q E s ↔ wp m Q (fun e s' => wp (handler e) Q E s') s := by
  unfold wp tryCatch
  cases m s <;> exact Iff.rfl

@[simp] theorem wp_zoom {Q : α → σ → Prop} (read : σ → τ) (write : τ → σ → σ) (m : Exec ε τ α) :
    wp (zoom read write m) Q E s ↔
      wp m (fun a t => Q a (write t s)) (fun e t => E e (write t s)) (read s) := by
  unfold wp zoom
  cases m (read s) <;> exact Iff.rfl

@[simp] theorem wp_onLocal {Q : α → σ → Prop} (t : τ) (m : Exec ε τ α) :
    wp (onLocal t m) Q E s ↔ wp m (fun a _ => Q a s) (fun e _ => E e s) t := by
  unfold wp onLocal
  cases m t <;> exact Iff.rfl

theorem wp_ite {c : Prop} [Decidable c] {m n : Exec ε σ α} :
    wp (if c then m else n) Q E s ↔ (c → wp m Q E s) ∧ (¬ c → wp n Q E s) := by
  by_cases h : c <;> simp [h]

theorem wp_mono {m : Exec ε σ α} {Q' : α → σ → Prop} {E' : ε → σ → Prop} (h : wp m Q E s)
    (hQ : ∀ a s', Q a s' → Q' a s') (hE : ∀ e s', E e s' → E' e s') : wp m Q' E' s := by
  unfold wp at h ⊢
  cases hm : m s with
  | ok a s' => rw [hm] at h; exact hQ a s' h
  | threw e s' => rw [hm] at h; exact hE e s' h
  | undefined => trivial
  | diverged => trivial

theorem wp_and {m : Exec ε σ α} {Q' : α → σ → Prop} {E' : ε → σ → Prop} (h : wp m Q E s)
    (h' : wp m Q' E' s) : wp m (fun a s' => Q a s' ∧ Q' a s') (fun e s' => E e s' ∧ E' e s') s := by
  unfold wp at h h' ⊢
  cases hm : m s with
  | ok a s' => rw [hm] at h h'; exact ⟨h, h'⟩
  | threw e s' => rw [hm] at h h'; exact ⟨h, h'⟩
  | undefined => trivial
  | diverged => trivial

theorem wp_true (m : Exec ε σ α) (s : σ) : wp m (fun _ _ => True) (fun _ _ => True) s := by
  unfold wp
  cases m s <;> trivial

theorem wp_of_ok {m : Exec ε σ α} {a : α} {s' : σ} (hm : m s = .ok a s') : wp m Q E s ↔ Q a s' := by
  unfold wp
  rw [hm]
  exact Iff.rfl

theorem wp_of_threw {m : Exec ε σ α} {e : ε} {s' : σ} (hm : m s = .threw e s') : wp m Q E s ↔ E e s' := by
  unfold wp
  rw [hm]
  exact Iff.rfl

theorem wp.of_ok {m : Exec ε σ α} {a : α} {s' : σ} (h : wp m Q E s) (hm : m s = .ok a s') : Q a s' :=
  (wp_of_ok hm).mp h

theorem wp.of_threw {m : Exec ε σ α} {e : ε} {s' : σ} (h : wp m Q E s) (hm : m s = .threw e s') :
    E e s' :=
  (wp_of_threw hm).mp h

def after (m : Exec ε σ α) (s : σ) : Option σ :=
  match m s with
  | .ok _ s' => some s'
  | .threw _ s' => some s'
  | .undefined => none
  | .diverged => none

theorem after_of_ok {m : Exec ε σ α} {a : α} {s' : σ} (hm : m s = .ok a s') : after m s = some s' := by
  unfold after
  rw [hm]

theorem after_of_threw {m : Exec ε σ α} {e : ε} {s' : σ} (hm : m s = .threw e s') : after m s = some s' := by
  unfold after
  rw [hm]

/-- What holds however a run ends holds of the state it ends in. -/
theorem wp.of_after {m : Exec ε σ α} {P : σ → Prop} {s' : σ} (h : wp m (fun _ => P) (fun _ => P) s)
    (hm : after m s = some s') : P s' := by
  unfold after at hm
  split at hm
  · next a t hres => exact Option.some.inj hm ▸ h.of_ok hres
  · next e t hres => exact Option.some.inj hm ▸ h.of_threw hres
  · cases hm
  · cases hm

/-! ## Frames -/

/-- Whether it returns or throws, `m` ends in a state `R`-related to its start. -/
def Keeps (R : σ → σ → Prop) (m : Exec ε σ α) : Prop :=
  ∀ s, wp m (fun _ s' => R s s') (fun _ s' => R s s') s

namespace Keeps

variable {R : σ → σ → Prop}

theorem pure [Std.Refl R] (a : α) : Keeps R (Pure.pure a : Exec ε σ α) := fun s => refl_of R s

theorem get [Std.Refl R] : Keeps R (Exec.get : Exec ε σ σ) := fun s => refl_of R s

theorem throw [Std.Refl R] (e : ε) : Keeps R (Exec.throw e : Exec ε σ α) := fun s => refl_of R s

theorem undefined : Keeps R (Exec.undefined : Exec ε σ α) := fun _ => trivial

theorem modify {f : σ → σ} (h : ∀ s, R s (f s)) : Keeps R (Exec.modify f : Exec ε σ Unit) := h

/-- What `m` keeps, it keeps after any step that kept it too. -/
theorem wp_after [IsTrans σ R] {m : Exec ε σ α} {s s₁ : σ} (h₁ : R s s₁) (hm : Keeps R m) :
    wp m (fun _ s' => R s s') (fun _ s' => R s s') s₁ :=
  wp_mono (hm s₁) (fun _ _ h₂ => trans_of R h₁ h₂) (fun _ _ h₂ => trans_of R h₁ h₂)

theorem bind [IsTrans σ R] {m : Exec ε σ α} {f : α → Exec ε σ β} (hm : Keeps R m)
    (hf : ∀ a, Keeps R (f a)) : Keeps R (m >>= f) := by
  intro s
  rw [wp_bind]
  exact wp_mono (hm s) (fun a s₁ h₁ => (hf a).wp_after h₁) (fun _ _ h => h)

theorem tryCatch [IsTrans σ R] {m : Exec ε σ α} {handler : ε → Exec ε σ α} (hm : Keeps R m)
    (hh : ∀ e, Keeps R (handler e)) : Keeps R (tryCatch m handler) := by
  intro s
  rw [wp_tryCatch]
  exact wp_mono (hm s) (fun _ _ h => h) (fun e s₁ h₁ => (hh e).wp_after h₁)

theorem ite {c : Prop} [Decidable c] {m n : Exec ε σ α} (hm : c → Keeps R m) (hn : ¬ c → Keeps R n) :
    Keeps R (if c then m else n) := by
  split
  · next h => exact hm h
  · next h => exact hn h

theorem onLocal [Std.Refl R] (t : τ) (m : Exec ε τ α) : Keeps R (Exec.onLocal t m : Exec ε σ α) := by
  intro s
  rw [wp_onLocal]
  exact wp_mono (wp_true m t) (fun _ _ _ => refl_of R s) (fun _ _ _ => refl_of R s)

theorem zoom {read : σ → τ} {write : τ → σ → σ} (h : ∀ s t, R s (write t s)) (m : Exec ε τ α) :
    Keeps R (Exec.zoom read write m) := by
  intro s
  rw [wp_zoom]
  exact wp_mono (wp_true m (read s)) (fun _ t _ => h s t) (fun _ t _ => h s t)

theorem mono {R' : σ → σ → Prop} {m : Exec ε σ α} (h : Keeps R m) (hR : ∀ s s', R s s' → R' s s') :
    Keeps R' m := fun s => wp_mono (h s) (fun _ s' => hR s s') (fun _ s' => hR s s')

end Keeps

/-! ## Termination -/

def Halts (m : Exec ε σ α) : Prop := ∀ s, m s ≠ .diverged

namespace Halts

theorem pure (a : α) : Halts (Pure.pure a : Exec ε σ α) := fun _ h => nomatch h

theorem get : Halts (Exec.get : Exec ε σ σ) := fun _ h => nomatch h

theorem set (t : σ) : Halts (Exec.set t : Exec ε σ Unit) := fun _ h => nomatch h

theorem throw (e : ε) : Halts (Exec.throw e : Exec ε σ α) := fun _ h => nomatch h

theorem undefined : Halts (Exec.undefined : Exec ε σ α) := fun _ h => nomatch h

theorem bind {m : Exec ε σ α} {f : α → Exec ε σ β} (hm : Halts m) (hf : ∀ a, Halts (f a)) :
    Halts (m >>= f) := by
  intro s
  rw [run_bind]
  cases h : m s with
  | ok a s' => exact hf a s'
  | threw e s' => exact fun h => nomatch h
  | undefined => exact fun h => nomatch h
  | diverged => exact absurd h (hm s)

theorem ite {c : Prop} [Decidable c] {m n : Exec ε σ α} (hm : Halts m) (hn : Halts n) :
    Halts (if c then m else n) := by
  split
  · exact hm
  · exact hn

theorem onLocal {m : Exec ε τ α} (hm : Halts m) (t : τ) : Halts (Exec.onLocal t m : Exec ε σ α) := by
  intro s
  unfold Exec.onLocal
  cases h : m t with
  | diverged => exact absurd h (hm t)
  | _ => exact fun h => nomatch h

end Halts

/-! ## Runs that end -/

/-- From this state `m` does not run forever, and its outcome satisfies `Q` if it returned and `E` if it threw. -/
def Ends (m : Exec ε σ α) (Q : α → σ → Prop) (E : ε → σ → Prop) (s : σ) : Prop := m s ≠ .diverged ∧ wp m Q E s

namespace Ends

variable {m n : Exec ε σ α}

theorem pure {a : α} (h : Q a s) : Ends (Pure.pure a) Q E s := ⟨nofun, h⟩

theorem throw {e : ε} (h : E e s) : Ends (Exec.throw e) Q E s := ⟨nofun, h⟩

theorem undefined : Ends Exec.undefined Q E s := ⟨nofun, trivial⟩

theorem bind {Q : β → σ → Prop} {f : α → Exec ε σ β} (h : Ends m (fun a s' => Ends (f a) Q E s') E s) :
    Ends (m >>= f) Q E s := by
  obtain ⟨hends, hwp⟩ := h
  refine ⟨?_, (wp_bind m f).mpr (wp_mono hwp (fun _ _ h => h.2) fun _ _ h => h)⟩
  rw [run_bind]
  cases hm : m s with
  | ok a s' => exact (hwp.of_ok hm).1
  | threw e s' => exact nofun
  | undefined => exact nofun
  | diverged => exact absurd hm hends

theorem get_bind {f : σ → Exec ε σ α} (h : Ends (f s) Q E s) : Ends (Exec.get >>= f) Q E s := .bind ⟨nofun, h⟩

theorem set_bind {t : σ} {f : Unit → Exec ε σ α} (h : Ends (f ()) Q E t) : Ends (Exec.set t >>= f) Q E s :=
  .bind ⟨nofun, h⟩

theorem tryCatch {handler : ε → Exec ε σ α} (h : Ends m Q (fun e s' => Ends (handler e) Q E s') s) :
    Ends (Exec.tryCatch m handler) Q E s := by
  obtain ⟨hends, hwp⟩ := h
  refine ⟨?_, (wp_tryCatch m handler).mpr (wp_mono hwp (fun _ _ h => h) fun _ _ h => h.2)⟩
  unfold Exec.tryCatch
  cases hm : m s with
  | ok a s' => exact nofun
  | threw e s' => exact (hwp.of_threw hm).1
  | undefined => exact nofun
  | diverged => exact absurd hm hends

theorem ite {c : Prop} [Decidable c] (hm : c → Ends m Q E s) (hn : ¬ c → Ends n Q E s) :
    Ends (if c then m else n) Q E s := by
  split
  · next h => exact hm h
  · next h => exact hn h

theorem mono {Q' : α → σ → Prop} {E' : ε → σ → Prop} (h : Ends m Q E s) (hQ : ∀ a s', Q a s' → Q' a s')
    (hE : ∀ e s', E e s' → E' e s') : Ends m Q' E' s := ⟨h.1, wp_mono h.2 hQ hE⟩

theorem onLocal {m : Exec ε τ α} {t : τ} (hm : m t ≠ .diverged) (h : wp m (fun a _ => Q a s) (fun e _ => E e s) t) :
    Ends (Exec.onLocal t m) Q E s := by
  refine ⟨?_, (wp_onLocal t m).mpr h⟩
  unfold Exec.onLocal
  cases hres : m t with
  | diverged => exact absurd hres hm
  | _ => exact nofun

end Ends

end Exec

end CeriosCluster.Lib
