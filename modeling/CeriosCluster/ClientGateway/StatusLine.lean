import CeriosCluster.ClientGateway.HeaderLines

/-!
# The status line of a response

Which status lines of another code than 200 are noticed. A colon in the reason makes the line a header field, and
without a character to match at the front of the reason the search goes on in it.
-/

namespace CeriosCluster.ClientGateway

open CeriosCluster.Lib CeriosCluster.MCPacket

/-- A response of another code than 200. The line feed is not a character of its status line. -/
structure Response where
  code : Bytes
  reason : Bytes
  rest : Bytes
  three_digits : code.length = 3 ∧ ∀ b ∈ code, isDigit b = true
  not_ok : decimal code ≠ 200
  one_line : 0x0a ∉ reason

namespace Response

def statusLine (r : Response) : Bytes := ascii "HTTP/1.1" ++ 0x20 :: (r.code ++ 0x20 :: (r.reason ++ [0x0d]))

def bytes (r : Response) : Bytes := r.statusLine ++ 0x0a :: r.rest

end Response

def Shown (text : Bytes) : Prop := ∃ b ∈ text.head?, isSpace b = false ∨ b = 0x20

/-- What the search makes of a reason that comes after another code than 200. -/
def StatusNoticed (reason : Bytes) : Prop :=
  0x3a ∉ reason ∧ (Shown reason ∨ ∃ digits, searchStatus (reason ++ [0x0d]) = some digits ∧ decimal digits ≠ 200)

section Search

variable {word digits text after : Bytes} {b : Byte}

theorem isSpace_of_isDigit (h : isDigit b = true) : isSpace b = false := by
  revert h
  revert b
  decide

/-- What is matched behind the word and its space. -/
def statusAfter (afterWord : Bytes) : Option Bytes :=
  let digits := afterWord.takeWhile isDigit
  match afterWord.drop digits.length with
  | 0x20 :: reason :: _ => if digits ≠ [] ∧ (!isSpace reason || reason == 0x20) then some digits else none
  | _ => none

theorem matchStatus_word (hword : ∀ b ∈ word, isSpace b = false) (hne : word ≠ []) :
    matchStatus (word ++ 0x20 :: after) = statusAfter after := by
  have htake : (word ++ 0x20 :: after).takeWhile (!isSpace ·) = word := by
    rw [List.takeWhile_append_of_pos (by simpa using hword), List.takeWhile_cons_of_neg (by decide), List.append_nil]
  unfold matchStatus statusAfter
  rw [htake]
  dsimp only
  rw [List.drop_left]
  simp only [hne, ne_eq, not_false_eq_true, true_and]
  rfl

theorem matchStatus_space : matchStatus (0x20 :: text) = none := by
  unfold matchStatus
  rw [List.takeWhile_cons_of_neg (by decide)]
  dsimp only
  split
  · split <;> simp
  · rfl

/-- A word behind which nothing is matched is passed over. -/
theorem searchStatus_word (hword : ∀ b ∈ word, isSpace b = false) (hafter : statusAfter after = none) :
    searchStatus (word ++ 0x20 :: after) = searchStatus after := by
  induction word with
  | nil =>
    rw [List.nil_append, searchStatus, matchStatus_space]
    rfl
  | cons b word ih =>
    rw [List.cons_append, searchStatus, ← List.cons_append, matchStatus_word hword (List.cons_ne_nil b word), hafter]
    exact ih fun b hb => hword b (List.mem_cons_of_mem _ hb)

theorem statusAfter_digits (hdigits : ∀ b ∈ digits, isDigit b = true) :
    (digits ++ 0x20 :: text).takeWhile isDigit = digits := by
  rw [List.takeWhile_append_of_pos hdigits, List.takeWhile_cons_of_neg (by decide), List.append_nil]

theorem statusAfter_shown (hdigits : ∀ b ∈ digits, isDigit b = true) (hne : digits ≠ []) (h : Shown text) :
    statusAfter (digits ++ 0x20 :: text) = some digits := by
  obtain ⟨b, hb, hshown⟩ := h
  cases text with
  | nil => cases hb
  | cons b' text =>
    obtain rfl : b' = b := Option.some.inj hb
    unfold statusAfter
    rw [statusAfter_digits hdigits]
    dsimp only
    rw [List.drop_left]
    exact if_pos ⟨hne, by simpa using hshown⟩

theorem statusAfter_hidden (hdigits : ∀ b ∈ digits, isDigit b = true) (h : ¬ Shown text) :
    statusAfter (digits ++ 0x20 :: text) = none := by
  unfold statusAfter
  rw [statusAfter_digits hdigits]
  dsimp only
  rw [List.drop_left]
  cases text with
  | nil => rfl
  | cons b text =>
    refine if_neg ?_
    rintro ⟨-, hshown⟩
    exact h ⟨b, rfl, by simpa using hshown⟩

theorem statusAfter_hidden_text (h : ¬ Shown text) : statusAfter text = none := by
  have hnone : text.takeWhile isDigit = [] := by
    cases text with
    | nil => rfl
    | cons b text =>
      rw [List.takeWhile_cons_of_neg]
      exact fun hdigit => h ⟨b, rfl, Or.inl (isSpace_of_isDigit hdigit)⟩
  unfold statusAfter
  rw [hnone]
  dsimp only
  split
  · simp
  · rfl

theorem shown_reason {reason : Bytes} : Shown (reason ++ [0x0d]) ↔ Shown reason := by
  cases reason with
  | nil =>
    refine ⟨?_, ?_⟩
    · rintro ⟨b, hb, h⟩
      obtain rfl : 0x0d = b := Option.some.inj hb
      exact absurd h (by decide)
    · rintro ⟨b, hb, -⟩
      cases hb
  | cons b reason => rfl

end Search

namespace Response

variable {r : Response}

theorem searchStatus_shown (h : Shown r.reason) : searchStatus r.statusLine = some r.code := by
  have hne : r.code ≠ [] := by
    intro hnil
    have := r.three_digits.1
    simp [hnil] at this
  have hmatch : matchStatus r.statusLine = some r.code := by
    unfold statusLine
    rw [matchStatus_word (by decide) (by decide), statusAfter_shown r.three_digits.2 hne (shown_reason.mpr h)]
  have hsearch (b : Byte) (text : Bytes) (hm : matchStatus (b :: text) = some r.code) :
    searchStatus (b :: text) = some r.code := by
    rw [searchStatus, hm]
    rfl
  exact hsearch _ _ hmatch

/-- A reason that does not start with a character to match is searched itself. -/
theorem searchStatus_hidden (h : ¬ Shown r.reason) : searchStatus r.statusLine = searchStatus (r.reason ++ [0x0d]) := by
  have htext : ¬ Shown (r.reason ++ [0x0d]) := mt shown_reason.mp h
  have hcode : ∀ b ∈ r.code, isSpace b = false := fun b hb => isSpace_of_isDigit (r.three_digits.2 b hb)
  unfold statusLine
  rw [searchStatus_word (by decide) (statusAfter_hidden r.three_digits.2 htext),
    searchStatus_word hcode (statusAfter_hidden_text htext)]

theorem noticed_statusLine : Noticed r.statusLine ↔ StatusNoticed r.reason := by
  have hcolon : 0x3a ∉ r.statusLine ↔ 0x3a ∉ r.reason := by
    have hcode : (0x3a : Byte) ∉ r.code := fun h => absurd (r.three_digits.2 _ h) (by decide)
    have hfront : (0x3a : Byte) ∉ ascii "HTTP/1.1" := by decide
    have hother : (0x3a : Byte) ≠ 0x20 ∧ (0x3a : Byte) ≠ 0x0d := by decide
    unfold statusLine
    simp only [List.mem_append, List.mem_cons, List.not_mem_nil, hcode, hfront, hother.1, hother.2, false_or, or_false]
  have hhttp : findText (ascii "HTTP") r.statusLine = true := rfl
  unfold Noticed StatusNoticed
  rw [hcolon]
  by_cases hshown : Shown r.reason
  · rw [searchStatus_shown hshown]
    have hcode : ∃ digits, some r.code = some digits ∧ decimal digits ≠ 200 := ⟨r.code, rfl, r.not_ok⟩
    simp only [hhttp, hcode, hshown, true_or, and_self]
  · rw [searchStatus_hidden hshown]
    simp only [hhttp, hshown, false_or, true_and]

theorem headerBlock_bytes : headerBlock r.bytes = r.statusLine :: headerBlock r.rest := by
  have hcode : (0x0a : Byte) ∉ r.code := fun h => absurd (r.three_digits.2 _ h) (by decide)
  have hfront : (0x0a : Byte) ∉ ascii "HTTP/1.1" := by decide
  have hline : 0x0a ∉ r.statusLine := by
    have hother : (0x0a : Byte) ≠ 0x20 ∧ (0x0a : Byte) ≠ 0x0d := by decide
    unfold statusLine
    simp only [List.mem_append, List.mem_cons, List.not_mem_nil, hcode, hfront, hother.1, hother.2, r.one_line,
      or_false, not_false_eq_true]
  have hblank : r.statusLine ≠ [0x0d] := by
    intro h
    cases h
  exact headerBlock_cons hline hblank

end Response

end CeriosCluster.ClientGateway
