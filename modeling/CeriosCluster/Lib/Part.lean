import CeriosCluster.Lib.Exec
import CeriosCluster.Lib.Run

/-!
# Programs on a part of a state

A part of a state can be read where it is there, and another value can be written in its place. A program acts
on the part alone when the part tells what it does and nothing else is written. Steps on parts that are
apart from each other commute, so the end of a run depends only on what the run does to each part, in which
order, and not on how the parts take turns.
-/

namespace CeriosCluster.Lib

structure Part (σ τ : Type) where
  read : σ → Option τ
  write : τ → σ → σ
  read_write : ∀ s t t', read s = some t → read (write t' s) = some t'
  write_read : ∀ s t, read s = some t → write t s = s
  write_write : ∀ s t t', write t' (write t s) = write t' s

namespace Part

variable {ε σ τ ρ α β : Type}

/-- A part that no state has. -/
def nowhere : Part σ τ where
  read _ := none
  write _ s := s
  read_write _ _ _ h := by cases h
  write_read _ _ h := by cases h
  write_write _ _ _ := rfl

def put (p : Part σ τ) (s : σ) : Res ε τ α → Res ε σ α
  | .ok a t => .ok a (p.write t s)
  | .threw e t => .threw e (p.write t s)
  | .undefined => .undefined
  | .diverged => .diverged

/-- Where the part is `t`, the program acts on it alone and does not run forever; what it returns and leaves
satisfies `Q`, and what it throws and leaves `F`. -/
def Acts (p : Part σ τ) (m : Exec ε σ α) (Q : α → τ → Prop) (F : ε → τ → Prop) (t : τ) : Prop :=
  ∃ r : Res ε τ α, (∀ s, p.read s = some t → m s = p.put s r) ∧ r ≠ .diverged ∧ Exec.Sat Q F r

namespace Acts

variable {p : Part σ τ} {m : Exec ε σ α} {Q : α → τ → Prop} {F : ε → τ → Prop} {s : σ} {t : τ}

/-! ## Programs -/

theorem pure {a : α} (h : Q a t) : p.Acts (Pure.pure a : Exec ε σ α) Q F t :=
  ⟨.ok a t, fun s hs => congrArg (Res.ok a) (p.write_read s t hs).symm, nofun, h⟩

theorem throw {e : ε} (h : F e t) : p.Acts (Exec.throw e : Exec ε σ α) Q F t :=
  ⟨.threw e t, fun s hs => congrArg (Res.threw e) (p.write_read s t hs).symm, nofun, h⟩

theorem undefined : p.Acts (Exec.undefined : Exec ε σ α) Q F t := ⟨.undefined, fun _ _ => rfl, nofun, trivial⟩

theorem mono {Q' : α → τ → Prop} {F' : ε → τ → Prop} (h : p.Acts m Q F t) (hQ : ∀ a t', Q a t' → Q' a t')
    (hF : ∀ e t', F e t' → F' e t') : p.Acts m Q' F' t := by
  obtain ⟨r, hrun, hends, hsat⟩ := h
  refine ⟨r, hrun, hends, ?_⟩
  cases r with
  | ok a t' => exact hQ a t' hsat
  | threw e t' => exact hF e t' hsat
  | undefined => trivial
  | diverged => trivial

theorem bind {f : α → Exec ε σ β} {Q : β → τ → Prop} (h : p.Acts m (fun a t' => p.Acts (f a) Q F t') F t) :
    p.Acts (m >>= f) Q F t := by
  obtain ⟨r, hrun, hends, hsat⟩ := h
  cases r with
  | ok a t' =>
    obtain ⟨r', hrun', hends', hsat'⟩ := hsat
    refine ⟨r', fun s hs => ?_, hends', hsat'⟩
    rw [Exec.run_bind_ok (hrun s hs), hrun' _ (p.read_write s t t' hs)]
    cases r' with
    | ok b t'' => exact congrArg (Res.ok b) (p.write_write s t' t'')
    | threw e t'' => exact congrArg (Res.threw e) (p.write_write s t' t'')
    | undefined => rfl
    | diverged => rfl
  | threw e t' => exact ⟨.threw e t', fun s hs => Exec.run_bind_threw (hrun s hs), nofun, hsat⟩
  | undefined => exact ⟨.undefined, fun s hs => Exec.run_bind_undefined (hrun s hs), nofun, trivial⟩
  | diverged => exact absurd rfl hends

theorem tryCatch {handler : ε → Exec ε σ α} (h : p.Acts m Q (fun e t' => p.Acts (handler e) Q F t') t) :
    p.Acts (Exec.tryCatch m handler) Q F t := by
  obtain ⟨r, hrun, hends, hsat⟩ := h
  cases r with
  | ok a t' => exact ⟨.ok a t', fun s hs => by rw [Exec.tryCatch, hrun s hs]; rfl, nofun, hsat⟩
  | threw e t' =>
    obtain ⟨r', hrun', hends', hsat'⟩ := hsat
    refine ⟨r', fun s hs => ?_, hends', hsat'⟩
    rw [Exec.tryCatch, hrun s hs]
    show handler e (p.write t' s) = p.put s r'
    rw [hrun' _ (p.read_write s t t' hs)]
    cases r' with
    | ok b t'' => exact congrArg (Res.ok b) (p.write_write s t' t'')
    | threw e t'' => exact congrArg (Res.threw e) (p.write_write s t' t'')
    | undefined => rfl
    | diverged => rfl
  | undefined => exact ⟨.undefined, fun s hs => by rw [Exec.tryCatch, hrun s hs]; rfl, nofun, trivial⟩
  | diverged => exact absurd rfl hends

theorem of_ok_write {a : α} {u : τ} (hrun : ∀ s, p.read s = some t → m s = .ok a (p.write u s)) (h : Q a u) :
    p.Acts m Q F t :=
  ⟨.ok a u, hrun, nofun, h⟩

theorem of_threw_write {e : ε} {u : τ} (hrun : ∀ s, p.read s = some t → m s = .threw e (p.write u s)) (h : F e u) :
    p.Acts m Q F t :=
  ⟨.threw e u, hrun, nofun, h⟩

theorem of_undefined (hrun : ∀ s, p.read s = some t → m s = .undefined) : p.Acts m Q F t :=
  ⟨.undefined, hrun, nofun, trivial⟩

theorem of_ok {a : α} (hrun : ∀ s, p.read s = some t → m s = .ok a s) (h : Q a t) : p.Acts m Q F t :=
  of_ok_write (fun s hs => by rw [hrun s hs, p.write_read s t hs]) h

theorem of_threw {e : ε} (hrun : ∀ s, p.read s = some t → m s = .threw e s) (h : F e t) : p.Acts m Q F t :=
  of_threw_write (fun s hs => by rw [hrun s hs, p.write_read s t hs]) h

theorem bind_of {f : α → Exec ε σ β} {Q' : β → τ → Prop} (h : p.Acts m Q F t)
    (hf : ∀ a t', Q a t' → p.Acts (f a) Q' F t') :
    p.Acts (m >>= f) Q' F t :=
  bind (h.mono hf fun _ _ hF => hF)

/-! ## What it says of a run -/

theorem not_diverged (h : p.Acts m Q F t) (hs : p.read s = some t) : m s ≠ .diverged := by
  obtain ⟨r, hrun, hends, -⟩ := h
  rw [hrun s hs]
  cases r with
  | diverged => exact absurd rfl hends
  | _ => exact nofun

/-- Everything else is as it was. -/
theorem wp (h : p.Acts m Q F t) (hs : p.read s = some t) :
    Exec.wp m (fun a s' => ∃ t', s' = p.write t' s ∧ Q a t') (fun e s' => ∃ t', s' = p.write t' s ∧ F e t') s := by
  obtain ⟨r, hrun, -, hsat⟩ := h
  unfold Exec.wp
  rw [hrun s hs]
  cases r with
  | ok a t' => exact ⟨t', rfl, hsat⟩
  | threw e t' => exact ⟨t', rfl, hsat⟩
  | undefined => trivial
  | diverged => trivial

theorem ends_write {Q : α → σ → Prop} {F : ε → σ → Prop} {t₀ : τ} (hs : p.read s = some t₀)
    (h : p.Acts m (fun a t' => Q a (p.write t' s)) (fun e t' => F e (p.write t' s)) t) :
      Exec.Ends m Q F (p.write t s) := by
  have hread : p.read (p.write t s) = some t := p.read_write s t₀ t hs
  refine ⟨h.not_diverged hread, Exec.wp_mono (h.wp hread) (fun a s' hdone => ?_) fun e s' hthrew => ?_⟩
  · obtain ⟨t', rfl, hQ⟩ := hdone
    rwa [p.write_write]
  · obtain ⟨t', rfl, hF⟩ := hthrew
    rwa [p.write_write]

end Acts

/-! ## Steps -/

/-- Writing one of the parts leaves the other, and they can be written in either order. -/
structure Apart (p q : Part σ τ) : Prop where
  read_left : ∀ s t, p.read (q.write t s) = p.read s
  read_right : ∀ s t, q.read (p.write t s) = q.read s
  write_comm : ∀ s t t', p.write t (q.write t' s) = q.write t' (p.write t s)

theorem Apart.symm {p q : Part σ τ} (h : Apart p q) : Apart q p where
  read_left := h.read_right
  read_right := h.read_left
  write_comm s t t' := (h.write_comm s t' t).symm

theorem apart_nowhere (p : Part σ τ) : Apart p nowhere := ⟨fun _ _ => rfl, fun _ _ => rfl, fun _ _ _ => rfl⟩

/-- Where the part is `t`, the event is a step on the part alone. -/
def StepsOn {ι : Type} (p : Part σ τ) (step : σ → ι → Option σ) (e : ι) (t : τ) : Prop :=
  ∃ r : Option τ, ∀ s, p.read s = some t → step s e = r.map (p.write · s)

section Steps

variable {ι κ : Type} {step : σ → ι → Option σ} {p q : Part σ τ} {e e' : ι} {s s₁ s₂ s' : σ} {t t' : τ}

/-- **Steps on parts that are apart commute.** -/
theorem StepsOn.swap (hpq : Apart p q) (hp : p.StepsOn step e t) (hq : q.StepsOn step e' t') (ht : p.read s = some t)
    (ht' : q.read s = some t') (h₁ : step s e = some s₁) (h₂ : step s₁ e' = some s₂) :
    ∃ s₁', step s e' = some s₁' ∧ step s₁' e = some s₂ ∧ p.read s₁' = some t := by
  obtain ⟨r, hr⟩ := hp
  obtain ⟨r', hr'⟩ := hq
  rw [hr s ht] at h₁
  obtain ⟨u, rfl, rfl⟩ := Option.map_eq_some_iff.mp h₁
  rw [hr' _ ((hpq.read_right s u).trans ht')] at h₂
  obtain ⟨u', rfl, rfl⟩ := Option.map_eq_some_iff.mp h₂
  have hread : p.read (q.write u' s) = some t := (hpq.read_left s u').trans ht
  refine ⟨q.write u' s, hr' s ht', ?_, hread⟩
  rw [hr _ hread]
  exact congrArg some (hpq.write_comm s u u')

/-! ## Interleavings -/

variable (step) (part : κ → Part σ τ) (key : ι → κ) (C : τ → ι → Prop)

/-- A step whose event meets `C` on the part of its key. -/
def OwnStep (s : σ) (e : ι) (s' : σ) : Prop := ∃ t, (part (key e)).read s = some t ∧ C t e ∧ step s e = some s'

/-- A run of such steps. -/
inductive OwnRun : σ → List ι → σ → Prop
  | nil (s : σ) : OwnRun s [] s
  | cons {s s₁ s' : σ} {e : ι} {es : List ι} (h : OwnStep step part key C s e s₁) (hrest : OwnRun s₁ es s') :
    OwnRun s (e :: es) s'

variable {step part key C} {es es' : List ι}

theorem OwnRun.append (h : OwnRun step part key C s es s₁) (h' : OwnRun step part key C s₁ es' s') :
    OwnRun step part key C s (es ++ es') s' := by
  induction h with
  | nil s => exact h'
  | cons hstep _ ih => exact .cons hstep (ih h')

theorem OwnRun.of_append (h : OwnRun step part key C s (es ++ es') s') :
    ∃ s₁, OwnRun step part key C s es s₁ ∧ OwnRun step part key C s₁ es' s' := by
  induction es generalizing s with
  | nil => exact ⟨s, .nil s, h⟩
  | cons e es ih =>
    cases h with
    | cons hstep hrest =>
      obtain ⟨s₁, hes, hes'⟩ := ih hrest
      exact ⟨s₁, .cons hstep hes, hes'⟩

theorem OwnRun.runFrom (h : OwnRun step part key C s es s') : runFrom step s es = some s' := by
  induction h with
  | nil s => rfl
  | cons hstep _ ih =>
    obtain ⟨-, -, -, hs⟩ := hstep
    rw [runFrom_cons hs, ih]

variable (hon : ∀ t e, C t e → (part (key e)).StepsOn step e t) (hapart : ∀ k k', k ≠ k' → Apart (part k) (part k'))

include hon hapart

theorem OwnStep.swap (hkey : key e ≠ key e') (h : OwnStep step part key C s e s₁)
    (h' : OwnStep step part key C s₁ e' s₂) :
    ∃ s₁', OwnStep step part key C s e' s₁' ∧ OwnStep step part key C s₁' e s₂ := by
  obtain ⟨t, ht, hC, hstep⟩ := h
  obtain ⟨t', ht', hC', hstep'⟩ := h'
  have hread : (part (key e')).read s = some t' := by
    obtain ⟨r, hr⟩ := hon t e hC
    rw [hr s ht] at hstep
    obtain ⟨u, -, rfl⟩ := Option.map_eq_some_iff.mp hstep
    exact ((hapart _ _ hkey).read_right s u).symm.trans ht'
  obtain ⟨s₁', hfirst, hsecond, hkept⟩ := (hon t e hC).swap (hapart _ _ hkey) (hon t' e' hC') ht hread hstep hstep'
  exact ⟨s₁', ⟨t', hread, hC', hfirst⟩, t, hkept, hC, hsecond⟩

/-- A step moves behind steps on other parts. -/
theorem OwnRun.move (h : OwnStep step part key C s e s₁) (hrun : OwnRun step part key C s₁ es s')
    (hothers : ∀ e' ∈ es, key e ≠ key e') :
    ∃ s₁', OwnRun step part key C s es s₁' ∧ OwnStep step part key C s₁' e s' := by
  induction hrun generalizing s with
  | nil s₁ => exact ⟨s, .nil s, h⟩
  | cons hstep _ ih =>
    obtain ⟨s₂, hfirst, hsecond⟩ := OwnStep.swap hon hapart (hothers _ (List.mem_cons_self ..)) h hstep
    obtain ⟨s₁', hrun', hlast⟩ := ih hsecond fun e' he' => hothers e' (List.mem_cons_of_mem _ he')
    exact ⟨s₁', .cons hfirst hrun', hlast⟩

/-- **Interleavings agree.** Two runs that do the same to each part, in the same order, end in the same state. By
induction on the first, whose first event is moved to the front of the second. -/
theorem OwnRun.of_same_filter [DecidableEq κ] (h : OwnRun step part key C s es s')
    (hsame : ∀ k, es.filter (key · = k) = es'.filter (key · = k)) : OwnRun step part key C s es' s' := by
  induction h generalizing es' with
  | nil s =>
    cases es' with
    | nil => exact .nil s
    | cons e' es' =>
      have hnone := hsame (key e')
      simp at hnone
  | @cons s s₁ s' e es hstep _ ih =>
    have hfirst := hsame (key e)
    rw [List.filter_cons_of_pos (by simp)] at hfirst
    obtain ⟨before, after, rfl, hbefore, -, hafter⟩ := List.filter_eq_cons_iff.mp hfirst.symm
    have hothers : ∀ e' ∈ before, key e ≠ key e' := fun e' he' hkey => hbefore e' he' (decide_eq_true hkey.symm)
    have hrest : OwnRun step part key C s₁ (before ++ after) s' := ih fun k => by
      by_cases hk : key e = k
      · subst hk
        rw [List.filter_append, List.filter_eq_nil_iff.mpr (fun e' he' => hbefore e' he'), List.nil_append]
        exact hafter.symm
      · have hk' := hsame k
        rw [List.filter_cons_of_neg (by simpa using hk), List.filter_append,
          List.filter_cons_of_neg (by simpa using hk)] at hk'
        rw [hk', List.filter_append]
    obtain ⟨s₂, hbefore', hafter'⟩ := hrest.of_append
    obtain ⟨s₁', hrun, hlast⟩ := OwnRun.move hon hapart hstep hbefore' hothers
    exact hrun.append (.cons hlast hafter')

end Steps

end Part

end CeriosCluster.Lib
