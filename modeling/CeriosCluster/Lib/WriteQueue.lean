import Mathlib.Data.List.Basic
import Mathlib.Data.List.GetD

/-!
# Writes in parts

A stream is written by operations that are served first in, first out, each transferring a non-empty prefix of
what is left of its write. The rest is issued again by a continuation, which runs some time later and puts it
behind whatever is pending by then. A buffer does not own its elements: they lie in a vector of the caller's, and
once the caller frees that or writes to it, a transfer takes what is there instead. The stream is a prefix of the
writes in the order of their calls as long as every transfer finds its vector as it was, and a write is cut only
while it is the only one.
-/

namespace CeriosCluster.Lib

variable {α : Type}

/-- A place in a vector: what is left of the write of the same number. -/
structure Buffer where
  vector : Nat
  offset : Nat
  deriving DecidableEq

/-- What has been written, the vectors of the writes as each was called, the vectors that have been freed or
written to since, the operations that are pending, and the rests whose continuations have not run. -/
structure WriteQueue (α : Type) where
  wire : List α
  vectors : List (List α)
  released : List Nat
  pending : List Buffer
  resuming : List Buffer

namespace WriteQueue

def empty : WriteQueue α := ⟨[], [], [], [], []⟩

def left (q : WriteQueue α) (b : Buffer) : List α := (q.vectors.getD b.vector []).drop b.offset

/-- A write is called; of nothing, it is complete at once. -/
def start (q : WriteQueue α) (data : List α) : WriteQueue α :=
  { q with
    vectors := q.vectors ++ [data]
    pending := if data = [] then q.pending else q.pending ++ [⟨q.vectors.length, 0⟩] }

/-- The caller is done with a vector: it is freed, or holds something else. -/
def release (q : WriteQueue α) (v : Nat) : Option (WriteQueue α) :=
  if v < q.vectors.length then some { q with released := v :: q.released } else none

/-- What a transfer of `n` elements reads; `stale` is what lies where a vector was. -/
def read (q : WriteQueue α) (b : Buffer) (n : Nat) (stale : List α) : List α :=
  if b.vector ∈ q.released then stale.take n else (q.left b).take n

/-- The first pending operation transfers `n` elements. -/
def transfer (q : WriteQueue α) (n : Nat) (stale : List α) : Option (WriteQueue α) :=
  match q.pending with
  | [] => none
  | b :: rest =>
    if 0 < n ∧ n ≤ (q.left b).length ∧ (q.read b n stale).length = n then
      some
        { q with
          wire := q.wire ++ q.read b n stale
          pending := rest
          resuming := if n = (q.left b).length then q.resuming else q.resuming ++ [{ b with offset := b.offset + n }] }
    else none

/-- A continuation issues the rest of its write. -/
def resume (q : WriteQueue α) (k : Nat) : Option (WriteQueue α) :=
  match q.resuming[k]? with
  | none => none
  | some b => some { q with pending := q.pending ++ [b], resuming := q.resuming.eraseIdx k }

/-- The first pending operation finds its vector as it was, and if it is cut after `n` elements, no other is pending. -/
def Undisturbed (q : WriteQueue α) (n : Nat) : Prop :=
  match q.pending with
  | [] => True
  | b :: rest => b.vector ∉ q.released ∧ (n < (q.left b).length → rest = [])

instance (n : Nat) : ∀ q : WriteQueue α, Decidable (q.Undisturbed n)
  | ⟨_, _, _, [], _⟩ => isTrue trivial
  | ⟨_, vectors, released, b :: rest, _⟩ =>
    inferInstanceAs (Decidable (b.vector ∉ released ∧
      (n < ((vectors.getD b.vector []).drop b.offset).length → rest = [])))

/-- What is written and what is not yet are the writes in the order of their calls, and a write that has been cut is
the only one. -/
structure InOrder (q : WriteQueue α) (sent : List α) : Prop where
  elems : q.wire ++ (q.resuming ++ q.pending).flatMap q.left = sent
  alone : q.resuming = [] ∨ q.pending = [] ∧ ∃ b, q.resuming = [b]
  called : ∀ b ∈ q.resuming ++ q.pending, b.vector < q.vectors.length

variable {q q' : WriteQueue α} {sent data stale : List α} {b : Buffer} {bs : List Buffer} {n k v : Nat}

theorem read_kept (h : b.vector ∉ q.released) : q.read b n stale = (q.left b).take n := if_neg h

/-- What is left of a write that was called before is not touched by another call. -/
theorem left_start (h : b.vector < q.vectors.length) : (q.start data).left b = q.left b := by
  unfold left start
  rw [List.getD_append _ _ _ _ h]

theorem left_start_new : (q.start data).left ⟨q.vectors.length, 0⟩ = data := by
  simp [left, start]

theorem flatMap_left_start (h : ∀ b ∈ bs, b.vector < q.vectors.length) :
    bs.flatMap (q.start data).left = bs.flatMap q.left :=
  List.flatMap_congr fun b hb => left_start (h b hb)

/-- What is left of a write that has been cut. -/
theorem left_advance : q.left { b with offset := b.offset + n } = (q.left b).drop n := by
  rw [left, left, List.drop_drop]

theorem inOrder_empty : (empty : WriteQueue α).InOrder [] := ⟨rfl, Or.inl rfl, fun _ h => by cases h⟩

theorem InOrder.start (h : q.InOrder sent) (hwhole : q.resuming = []) : (q.start data).InOrder (sent ++ data) := by
  have hcalled : ∀ b ∈ q.pending, b.vector < q.vectors.length := fun b hb => h.called b (List.mem_append_right _ hb)
  have helems : q.wire ++ q.pending.flatMap (q.start data).left = sent := by
    rw [flatMap_left_start hcalled, ← h.elems, hwhole, List.nil_append]
  have hlonger : (q.start data).vectors.length = q.vectors.length + 1 := by simp [WriteQueue.start]
  have hpending : (q.start data).pending = if data = [] then q.pending else q.pending ++ [⟨q.vectors.length, 0⟩] := rfl
  refine ⟨?_, Or.inl hwhole, fun b hb => ?_⟩
  · show q.wire ++ (q.resuming ++ (q.start data).pending).flatMap (q.start data).left = sent ++ data
    rw [hwhole, List.nil_append, hpending]
    split
    · next hnone => rw [helems, hnone, List.append_nil]
    · rw [List.flatMap_append, ← List.append_assoc, helems, List.flatMap_singleton, left_start_new]
  · have hmem : b ∈ q.resuming ++ (q.start data).pending := hb
    rw [hwhole, List.nil_append, hpending] at hmem
    split at hmem
    · exact hlonger ▸ Nat.lt_succ_of_lt (hcalled b hmem)
    · rcases List.mem_append.mp hmem with hmem | hmem
      · exact hlonger ▸ Nat.lt_succ_of_lt (hcalled b hmem)
      · rw [List.mem_singleton.mp hmem, hlonger]
        exact Nat.lt_succ_self _

/-- What has become of a vector shows only when it is read. -/
theorem InOrder.release (h : q.InOrder sent) (hr : q.release v = some q') : q'.InOrder sent := by
  unfold WriteQueue.release at hr
  rw [Option.ite_none_right_eq_some] at hr
  obtain ⟨-, hr⟩ := hr
  obtain rfl := Option.some.inj hr
  exact ⟨h.elems, h.alone, h.called⟩

theorem InOrder.transfer (h : q.InOrder sent) (ht : q.transfer n stale = some q') (hcalm : q.Undisturbed n) :
    q'.InOrder sent := by
  unfold WriteQueue.transfer at ht
  unfold Undisturbed at hcalm
  cases hpending : q.pending with
  | nil =>
    rw [hpending] at ht
    cases ht
  | cons b rest =>
    rw [hpending] at ht hcalm
    obtain ⟨hkept, halone⟩ := hcalm
    have hwhole : q.resuming = [] := h.alone.resolve_right fun hcut => by
      rw [hpending] at hcut
      cases hcut.1
    have helems := h.elems
    have hcalled := h.called
    rw [hwhole, hpending, List.nil_append] at helems hcalled
    rw [List.flatMap_cons] at helems
    simp only [Option.ite_none_right_eq_some, Option.some.injEq] at ht
    obtain ⟨⟨hpos, hle, -⟩, rfl⟩ := ht
    rw [read_kept hkept]
    by_cases hall : n = (q.left b).length
    · -- the write is complete
      rw [if_pos hall, hwhole, hall, List.take_length]
      refine ⟨?_, Or.inl rfl, fun b' hb' => hcalled b' (List.mem_cons_of_mem _ hb')⟩
      rw [← helems, List.append_assoc]
      rfl
    · -- it is cut, and nothing else is pending
      have hrest : rest = [] := halone (by omega)
      subst hrest
      rw [List.flatMap_nil, List.append_nil] at helems
      rw [if_neg hall, hwhole, List.nil_append]
      refine ⟨?_, Or.inr ⟨rfl, _, rfl⟩, fun b' hb' => ?_⟩
      · rw [← helems, List.append_nil, List.flatMap_singleton, List.append_assoc]
        show q.wire ++ ((q.left b).take n ++ q.left { b with offset := b.offset + n }) = _
        rw [left_advance, List.take_append_drop]
      · rw [List.append_nil, List.mem_singleton] at hb'
        rw [hb']
        exact hcalled b (List.mem_singleton_self b)

theorem InOrder.resume (h : q.InOrder sent) (hr : q.resume k = some q') : q'.InOrder sent := by
  unfold WriteQueue.resume at hr
  split at hr
  · cases hr
  · next b hb =>
    obtain rfl := Option.some.inj hr
    rcases h.alone with hwhole | ⟨hpending, rest, hresuming⟩
    · rw [hwhole] at hb
      cases hb
    · have helems := h.elems
      have hcalled := h.called
      rw [hresuming] at hb
      obtain ⟨rfl, rfl⟩ : k = 0 ∧ rest = b := by
        rw [List.getElem?_singleton] at hb
        split at hb
        · next hk => exact ⟨hk, Option.some.inj hb⟩
        · cases hb
      rw [hresuming, hpending] at helems hcalled ⊢
      exact ⟨helems, Or.inl rfl, hcalled⟩

/-- **In order**, the stream is a prefix of the writes. -/
theorem InOrder.wire_isPrefix (h : q.InOrder sent) : q.wire <+: sent := ⟨_, h.elems⟩

end WriteQueue

end CeriosCluster.Lib
