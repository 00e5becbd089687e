import CeriosCluster.MCPacket.Buffer
import CeriosCluster.Lib.Until

/-!
# The console

`Login::listen` reads lines from the console until one matches `stop`. The match is a lexicographical comparison, with
equality without regard to case where an order should be: it is decided by the first place where the two texts are
equal, or else by their lengths.
-/

namespace CeriosCluster.ClientGateway

open CeriosCluster.Lib CeriosCluster.MCPacket

/-! ## Comparing two texts -/

/-- `std::tolower` in the `C` locale. -/
def tolower (b : Byte) : Byte := if 0x41 ≤ b ∧ b ≤ 0x5a then b + 0x20 else b

/-- `std::lexicographical_compare`, with whatever `comp` is for the order. -/
def lexicographical_compare {α : Type} (comp : α → α → Bool) : List α → List α → Bool
  | _, [] => false
  | [], _ :: _ => true
  | a :: as, b :: bs => if comp a b then true else if comp b a then false else lexicographical_compare comp as bs

def string_compare_pred (a b : Byte) : Bool := tolower a == tolower b

def string_compare (a b : Bytes) : Bool := lexicographical_compare string_compare_pred a b

/-- At no place that both have do the texts have the same letter. -/
def DifferThroughout (a b : Bytes) : Prop := ∀ p ∈ a.zip b, tolower p.1 ≠ tolower p.2

instance (a b : Bytes) : Decidable (DifferThroughout a b) := inferInstanceAs (Decidable (∀ p ∈ a.zip b, _))

def SameLetters (a b : Bytes) : Prop := a.map tolower = b.map tolower

instance (a b : Bytes) : Decidable (SameLetters a b) := inferInstanceAs (Decidable (_ = _))

section Compare

variable {α : Type} {comp : α → α → Bool}

/-- With a symmetric relation for an order the comparison is decided by the first place where it holds. -/
theorem lexicographical_compare_symmetric (hcomp : ∀ a b, comp a b = comp b a) (as bs : List α) :
    lexicographical_compare comp as bs = true ↔ (∃ p ∈ as.zip bs, comp p.1 p.2 = true) ∨ as.length < bs.length := by
  induction as generalizing bs with
  | nil => cases bs <;> simp [lexicographical_compare]
  | cons a as ih =>
    cases bs with
    | nil => simp [lexicographical_compare]
    | cons b bs =>
      rw [lexicographical_compare, ← hcomp a b]
      by_cases hab : comp a b = true
      · simp [hab]
      · simp [hab, ih]

theorem string_compare_iff (a b : Bytes) : string_compare a b = true ↔
    ¬ DifferThroughout a b ∨ a.length < b.length := by
  have hsymm (a b : Byte) : string_compare_pred a b = string_compare_pred b a := Bool.beq_comm
  rw [string_compare, lexicographical_compare_symmetric hsymm]
  refine or_congr_left ?_
  simp [DifferThroughout, string_compare_pred]

theorem SameLetters.not_differThroughout {a b : Bytes} (h : SameLetters a b) (ha : a ≠ []) :
    ¬ DifferThroughout a b := by
  intro hdiffer
  cases a with
  | nil => exact ha rfl
  | cons x a =>
    cases b with
    | nil => cases h
    | cons y b => exact hdiffer (x, y) (List.mem_cons_self ..) (List.cons.inj h).1

def ComparedRight (a b : Bytes) : Prop := string_compare a b = true ↔ SameLetters a b

theorem comparedRight_iff (a b : Bytes) :
    ComparedRight a b ↔ a ≠ [] ∧ (SameLetters a b ∨ b.length ≤ a.length ∧ DifferThroughout a b) := by
  rw [ComparedRight, string_compare_iff]
  by_cases ha : a = []
  · subst ha
    cases b with
    | nil => simp [DifferThroughout, SameLetters]
    | cons y b => simp [DifferThroughout, SameLetters]
  · by_cases hsame : SameLetters a b
    · simp [ha, hsame, hsame.not_differThroughout ha]
    · simp only [hsame, iff_false, ne_eq, ha, not_false_eq_true, true_and, false_or, not_or, not_not, Nat.not_lt]
      exact and_comm

end Compare

/-! ## Reading lines -/

/-- `std::cin` and the string the lines are read into: what is still to come up to the end of the input, whether the
stream is good, and the line. -/
structure Console where
  input : Bytes
  good : Bool
  line : Bytes
  deriving DecidableEq

/-- `std::getline`: the line up to the next newline or the end of the input; nothing once the stream is not good. -/
def Console.getline (c : Console) : Console :=
  if c.good then
    let line := c.input.takeWhile (· != 0x0a)
    if line.length < c.input.length then ⟨c.input.drop (line.length + 1), true, line⟩ else ⟨[], false, line⟩
  else c

/-- The loop of `Login::listen` for at most `fuel` turns; nothing ever clears `running`. -/
def listenLoop : Nat → Console → Option Console
  | 0, _ => none
  | fuel + 1, c =>
    let c := c.getline
    if string_compare c.line (ascii "stop") then some c else listenLoop fuel c

/-- `Login::listen`, on what is typed. -/
def Login.listen (fuel : Nat) (input : Bytes) : Option Console := listenLoop fuel ⟨input, true, []⟩

def lineAt (input : Bytes) (k : Nat) : Bytes := (Console.getline^[k] ⟨input, true, []⟩).getline.line

def IsStop (line : Bytes) : Prop := SameLetters line (ascii "stop")

instance (line : Bytes) : Decidable (IsStop line) := inferInstanceAs (Decidable (SameLetters _ _))

/-- Of the lines, `listen` stops at the first that is a variant of `stop`. -/
def StopsAtStop (input : Bytes) : Prop :=
  ∀ c, (∃ fuel, Login.listen fuel input = some c) ↔
    Until Console.getline (fun c => ¬ IsStop c.getline.line) (fun c' => IsStop c'.getline.line ∧
      c'.getline = c) ⟨input, true, []⟩

/-- The line is long enough and has none of the letters of `stop` in its place. -/
def Ignored (line : Bytes) : Prop := 4 ≤ line.length ∧ DifferThroughout line (ascii "stop")

section Listen

variable {input : Bytes} {c : Console}

theorem listenLoop_succ (fuel : Nat) (c : Console) : listenLoop (fuel + 1) c =
    if string_compare c.getline.line (ascii "stop") then some c.getline else listenLoop fuel c.getline := rfl

theorem exists_listen_iff : (∃ fuel, Login.listen fuel input = some c) ↔
    Until Console.getline (fun c => ¬ string_compare c.getline.line (ascii "stop") = true)
      (fun c' => string_compare c'.getline.line (ascii "stop") = true ∧ c'.getline = c) ⟨input, true, []⟩ := by
  refine exists_returns_iff (I := fun _ => True) (fun fuel s => listenLoop fuel s = some c) (fun s h => nomatch h)
    (fun fuel s _ => ?_) (fun _ _ _ => trivial) trivial
  rw [listenLoop_succ]
  by_cases hmatch : string_compare s.getline.line (ascii "stop") = true
  · simp [hmatch]
  · simp [hmatch]

theorem match_iff_not_ignored (line : Bytes) : string_compare line (ascii "stop") = true ↔ ¬ Ignored line := by
  rw [string_compare_iff, Ignored, not_and_or, Nat.not_le, or_comm]
  rfl

theorem IsStop.not_ignored {line : Bytes} (h : IsStop line) : ¬ Ignored line := by
  intro hignored
  refine h.not_differThroughout (fun hnil => ?_) hignored.2
  rw [hnil] at h
  cases h

/-- `listen` stops at a variant of `stop` when it ignores every line until there is one. -/
theorem stopsAtStop_iff (input : Bytes) :
    StopsAtStop input ↔ ∀ k, (∀ j, j ≤ k → ¬ IsStop (lineAt input j)) → Ignored (lineAt input k) := by
  have hmatches (k : Nat) : string_compare (lineAt input k) (ascii "stop") = true ↔ ¬ Ignored (lineAt input k) :=
    match_iff_not_ignored _
  constructor
  · intro hstops k hnone
    by_contra hignored
    have hmatch : ∃ k, string_compare (lineAt input k) (ascii "stop") = true := ⟨k, (hmatches k).mpr hignored⟩
    -- the loop returns at the first line that matches, so that line is a variant
    have hfirst := exists_listen_iff.mpr ⟨Nat.find hmatch, ⟨Nat.find_spec hmatch, rfl⟩,
      fun j hj => Nat.find_min hmatch hj⟩
    obtain ⟨n, ⟨hstop, hstate⟩, -⟩ := (hstops _).mp hfirst
    refine hnone (Nat.find hmatch) (Nat.find_le ((hmatches k).mpr hignored)) ?_
    rw [hstate] at hstop
    exact hstop
  · intro hignores c
    rw [exists_listen_iff]
    refine exists_congr fun n => ?_
    constructor
    · rintro ⟨⟨hmatch, hstate⟩, hbefore⟩
      have hbefore' (k : Nat) (hk : k < n) : ¬ IsStop (lineAt input k) := fun hstop =>
        hbefore k hk ((hmatches k).mpr hstop.not_ignored)
      refine ⟨⟨by_contra fun hstop => ?_, hstate⟩, hbefore'⟩
      refine (hmatches n).mp hmatch (hignores n fun j hj => ?_)
      rcases Nat.lt_or_eq_of_le hj with hlt | rfl
      · exact hbefore' j hlt
      · exact hstop
    · rintro ⟨⟨hstop, hstate⟩, hbefore⟩
      refine ⟨⟨(hmatches n).mpr hstop.not_ignored, hstate⟩, fun k hk hmatch => ?_⟩
      exact (hmatches k).mp hmatch (hignores k fun j hj => hbefore j (by omega))

end Listen

/-- **Console commands.** When the comparison is right of two texts, and when `listen` stops at a variant of `stop` and
at nothing else. -/
theorem console_iff (a b input : Bytes) :
    (ComparedRight a b ↔ a ≠ [] ∧ (SameLetters a b ∨ b.length ≤ a.length ∧ DifferThroughout a b)) ∧
      (StopsAtStop input ↔ ∀ k, (∀ j, j ≤ k → ¬ IsStop (lineAt input j)) → Ignored (lineAt input k)) :=
  ⟨comparedRight_iff a b, stopsAtStop_iff input⟩

/-- The comparison takes `say` for `stop`, and `listen` stops at it. -/
theorem say_stops :
    (¬ ∀ a b, ComparedRight a b) ∧ ¬ ∀ input, StopsAtStop input := by
  constructor
  · intro h
    exact absurd ((comparedRight_iff _ _).mp (h (ascii "say") (ascii "stop"))) (by decide)
  · intro h
    have hignored := (stopsAtStop_iff _).mp (h (ascii "say\n")) 0 fun j hj => by
      obtain rfl : j = 0 := by omega
      decide
    exact absurd hignored.1 (by decide)

end CeriosCluster.ClientGateway
