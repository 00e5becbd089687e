import CeriosCluster.ClientGateway.Rejection

/-!
# The body of a response

`readHTTPHeader` leaves what was read beyond the header in the stream buffer, and asks for as many bytes more as the
header says, so that `onHasJoinedPostComplete` mostly gets the end of the stream. It takes the length it was bound with
from the buffer, and gives rapidjson the text up to a null character.
-/

namespace CeriosCluster.ClientGateway

open CeriosCluster.Lib CeriosCluster.MCPacket

/-! ## The response -/

def decimalText (n : Nat) : Bytes := ascii n.repr

def contentLengthLine (n : Nat) : Bytes := ascii "Content-Length: " ++ decimalText n

@[mk_iff]
structure HeaderLine (line : Bytes) : Prop where
  nonempty : line ≠ []
  colon : 0x3a ∈ line
  noReturn : 0x0d ∉ line
  noNewline : 0x0a ∉ line

instance (line : Bytes) : Decidable (HeaderLine line) := decidable_of_iff _ (headerLine_iff line).symm

def linesText (lines : List Bytes) : Bytes := lines.flatMap fun line => line ++ [0x0d, 0x0a]

/-- The status line, the lines of the header and an empty one. -/
def headerText (lines : List Bytes) : Bytes := linesText (ascii "HTTP/1.1 200 OK" :: lines) ++ [0x0d, 0x0a]

/-! ## Reading it -/

/-- `async_read` with `transfer_exactly(n)`, when these bytes are left before the end of the stream. -/
def transferExactly (n : Nat) (left : Bytes) : ReadError × Bytes :=
  if n ≤ left.length then (.none, left.take n) else (.eof, left)

/-- What `onHasJoinedPostComplete` makes of the stream buffer: nothing, a read beyond its end, or the text for
`Parse`. -/
inductive BodyText
  | dropped
  | outOfBounds
  | parsed (text : Bytes)
  deriving DecidableEq

def bodyText (error : ReadError) (data : Bytes) (length : Nat) : BodyText :=
  if error = .other ∨ error = .eof ∧ data.length < length then .dropped
  else if data.length < length then .outOfBounds
  else .parsed ((data.take length).takeWhile (· != 0))

/-- The header is read, `taken` bytes of the body with it, and then the rest; and what is parsed is the body. -/
def ParsesBody (i : ConnId) (k : Nat) (g : Gateway) (lines : List Bytes) (body : Bytes) (taken : Nat) : Prop :=
  ∃ g' r contentLength rest, readHTTPHeader i k false (headerText lines ++ body.take taken) g = .ok () g' ∧
    stageOf g' i k = some r ∧ r.stage = .readingBody contentLength rest ∧
    bodyText (transferExactly contentLength (body.drop taken)).1
      (rest ++ (transferExactly contentLength (body.drop taken)).2)
      contentLength = .parsed body

def NamesLength (line : Bytes) : Bool := (fieldOf (line ++ [0x0d])).1 == ascii "Content-Length"

def LastLengthIs (lines : List Bytes) (n : Nat) : Prop :=
  ∀ line, lines.reverse.find? NamesLength = some line → stoul (fieldOf (line ++ [0x0d])).2 = .ok n

section Body

variable {E : Env} {w : World} {i : ConnId} {k : Nat} {error error' : ReadError}
  {data data' sharedSecret text body : Bytes}
  {length length' taken n : Nat}

theorem bodyText_dropped : bodyText error data length = .dropped ↔
    error = .other ∨ error = .eof ∧ data.length < length := by
  unfold bodyText
  split
  · next hdropped => exact ⟨fun _ => hdropped, fun _ => rfl⟩
  · next hnot => split <;> exact ⟨nofun, fun hdropped => absurd hdropped hnot⟩

theorem bodyText_outOfBounds :
    bodyText error data length = .outOfBounds ↔
      ¬ (error = .other ∨ error = .eof ∧ data.length < length) ∧ data.length < length := by
  unfold bodyText
  split
  · next hdropped => exact ⟨nofun, fun h => absurd hdropped h.1⟩
  · next hnot =>
    split
    · next hlength => exact ⟨fun _ => ⟨hnot, hlength⟩, fun _ => rfl⟩
    · next hlength => exact ⟨nofun, fun h => absurd h.2 hlength⟩

theorem bodyText_parsed :
    bodyText error data length = .parsed text ↔
      ¬ (error = .other ∨ error = .eof ∧ data.length < length) ∧ ¬ data.length < length ∧
        (data.take length).takeWhile (· != 0) = text := by
  unfold bodyText
  split
  · next hdropped => exact ⟨nofun, fun h => absurd hdropped h.1⟩
  · next hnot =>
    split
    · next hlength => exact ⟨nofun, fun h => absurd hlength h.2.1⟩
    · next hlength => exact ⟨fun h => ⟨hnot, hlength, BodyText.parsed.inj h⟩, fun h => congrArg _ h.2.2⟩

theorem onHasJoinedPostComplete_congr (h : bodyText error data length = bodyText error' data' length') :
    onHasJoinedPostComplete E w i k sharedSecret error data length =
      onHasJoinedPostComplete E w i k sharedSecret error' data' length' := by
  unfold onHasJoinedPostComplete
  refine congrArg (setStage i k .finished >>= ·) (funext fun _ => ?_)
  cases hbody : bodyText error data length with
  | dropped => rw [if_pos (bodyText_dropped.mp hbody), if_pos (bodyText_dropped.mp (h ▸ hbody))]
  | outOfBounds =>
    obtain ⟨hnot, hlength⟩ := bodyText_outOfBounds.mp hbody
    obtain ⟨hnot', hlength'⟩ := bodyText_outOfBounds.mp (h ▸ hbody)
    rw [if_neg hnot, if_pos hlength, if_neg hnot', if_pos hlength']
  | parsed text =>
    obtain ⟨hnot, hlength, htext⟩ := bodyText_parsed.mp hbody
    obtain ⟨hnot', hlength', htext'⟩ := bodyText_parsed.mp (h ▸ hbody)
    rw [if_neg hnot, if_neg hlength, if_neg hnot', if_neg hlength', htext, htext']

theorem onHasJoinedPostComplete_parsed (h : bodyText error data length = .parsed text) :
    onHasJoinedPostComplete E w i k sharedSecret error data length =
      onHasJoinedPostComplete E w i k sharedSecret .none text text.length := by
  refine onHasJoinedPostComplete_congr (h.trans (Eq.symm ?_))
  obtain ⟨-, -, rfl⟩ := bodyText_parsed.mp h
  refine bodyText_parsed.mpr ⟨by simp, Nat.lt_irrefl _, ?_⟩
  rw [List.take_length, List.takeWhile_idem]

/-! ## What is parsed -/

theorem transferExactly_le (h : n ≤ data.length) : transferExactly n data = (.none, data.take n) := if_pos h

theorem transferExactly_lt (h : data.length < n) : transferExactly n data = (.eof, data) := if_neg (Nat.not_le.mpr h)

theorem length_transferExactly (h : (transferExactly n data).1 = .none) : (transferExactly n data).2.length = n := by
  rcases Nat.lt_or_ge data.length n with hlt | hle
  · rw [transferExactly_lt hlt] at h
    cases h
  · rw [transferExactly_le hle]
    exact List.length_take_of_le hle

/-- However much of the body came with the header, what is parsed is its first bytes. -/
theorem bodyText_transferExactly (htaken : taken ≤ body.length) :
    bodyText (transferExactly n (body.drop taken)).1 (body.take taken ++ (transferExactly n (body.drop taken)).2) n =
      if body.length < n then .dropped else .parsed ((body.take n).takeWhile (· != 0)) := by
  have hleft : (body.drop taken).length = body.length - taken := List.length_drop
  rcases Nat.lt_or_ge (body.length - taken) n with hshort | hlong
  · rw [transferExactly_lt (hleft ▸ hshort)]
    dsimp only
    rw [List.take_append_drop]
    split
    · next hlength => exact bodyText_dropped.mpr (Or.inr ⟨rfl, hlength⟩)
    · next hlength => exact bodyText_parsed.mpr ⟨by simpa using hlength, hlength, rfl⟩
  · rw [transferExactly_le (hleft ▸ hlong)]
    dsimp only
    rw [← List.take_add, if_neg (Nat.not_lt.mpr (Nat.le_trans hlong (Nat.sub_le _ _)))]
    refine bodyText_parsed.mpr ⟨by simp, ?_, ?_⟩
    · rw [List.length_take]
      omega
    · rw [List.take_take, Nat.min_eq_left (Nat.le_add_left _ _)]

theorem bodyText_transferExactly_iff (htaken : taken ≤ body.length) :
    bodyText (transferExactly n (body.drop taken)).1 (body.take taken ++ (transferExactly n (body.drop taken)).2) n =
      .parsed body ↔
      n = body.length ∧ 0 ∉ body := by
  rw [bodyText_transferExactly htaken]
  rcases Nat.lt_or_ge body.length n with hlong | hlength
  · rw [if_pos hlong]
    exact ⟨nofun, fun h => absurd h.1 (Nat.ne_of_gt hlong)⟩
  · rw [if_neg (Nat.not_lt.mpr hlength), BodyText.parsed.injEq]
    constructor
    · intro htext
      have hn : body.length ≤ n := by
        calc body.length = ((body.take n).takeWhile (· != 0)).length := by rw [htext]
          _ ≤ (body.take n).length := (List.takeWhile_prefix _).length_le
          _ ≤ n := List.length_take_le _ _
      refine ⟨Nat.le_antisymm hlength hn, fun hzero => ?_⟩
      rw [← htext] at hzero
      have := List.mem_takeWhile_imp hzero
      simp at this
    · rintro ⟨rfl, hzero⟩
      rw [List.take_length, List.takeWhile_eq_self_iff]
      intro b hb
      simp only [bne_iff_ne]
      rintro rfl
      exact hzero hb

end Body

section Lines

variable {lines : List Bytes} {line rest : Bytes} {fuel n : Nat} {httpKVPairs : List (Bytes × Bytes)}

/-! ## The lines -/

theorem getline_line (h : 0x0a ∉ line) (rest : Bytes) : getline (line ++ 0x0a :: rest) = some (line, rest) := by
  have hall : ∀ b ∈ line, (b != 0x0a) = true := fun b hb => by
    simp only [bne_iff_ne]
    rintro rfl
    exact h hb
  have htake : (line ++ 0x0a :: rest).takeWhile (· != 0x0a) = line := by
    rw [List.takeWhile_append_of_pos hall]
    simp
  have hdrop : (line ++ 0x0a :: rest).dropWhile (· != 0x0a) = 0x0a :: rest := by
    rw [List.dropWhile_append_of_pos hall]
    simp
  cases hstream : line ++ 0x0a :: rest with
  | nil => simp at hstream
  | cons b stream =>
    have hget : getline (b :: stream) =
      some ((b :: stream).takeWhile (· != 0x0a), ((b :: stream).dropWhile (· != 0x0a)).drop 1) := rfl
    rw [hget, ← hstream, htake, hdrop]
    rfl

theorem linesText_cons : linesText (line :: lines) ++ rest = (line ++ [0x0d]) ++ 0x0a :: (linesText lines ++ rest) := by
  simp [linesText]

theorem headerLinesLoop_lines (h : ∀ line ∈ lines, HeaderLine line) (hfuel : lines.length < fuel) :
    headerLinesLoop fuel httpKVPairs (linesText lines ++ ([0x0d, 0x0a] ++ rest)) =
      .fields ((lines.map fun line => fieldOf (line ++ [0x0d])).reverse ++ httpKVPairs) rest := by
  induction lines generalizing fuel httpKVPairs with
  | nil =>
    obtain ⟨fuel, rfl⟩ := Nat.exists_eq_succ_of_ne_zero (Nat.ne_of_gt hfuel)
    have hblank : 0x0a ∉ ([0x0d] : Bytes) := by decide
    have hget : getline (linesText [] ++ ([0x0d, 0x0a] ++ rest)) = some ([0x0d], rest) := getline_line hblank rest
    rw [headerLinesLoop, hget]
    rfl
  | cons line lines ih =>
    obtain ⟨hline, hlines⟩ := List.forall_mem_cons.mp h
    obtain ⟨fuel, rfl⟩ := Nat.exists_eq_succ_of_ne_zero (Nat.ne_of_gt (Nat.lt_of_le_of_lt (Nat.zero_le _) hfuel))
    have hcolon : 0x3a ∈ line ++ [0x0d] := List.mem_append_left _ hline.colon
    have hblank : line ++ [0x0d] ≠ [0x0d] := by simpa using hline.nonempty
    have hget : getline ((line ++ [0x0d]) ++ 0x0a :: (linesText lines ++ ([0x0d, 0x0a] ++ rest))) =
        some (line ++ [0x0d], linesText lines ++ ([0x0d, 0x0a] ++ rest)) :=
      getline_line (by simpa using hline.noNewline) _
    rw [linesText_cons, headerLinesLoop_line hget hblank fun hnoticed => hnoticed.1 hcolon,
      if_pos (List.contains_iff_mem.mpr hcolon), ih hlines (Nat.lt_of_succ_lt_succ hfuel)]
    simp

theorem length_linesText (lines : List Bytes) : lines.length ≤ (linesText lines).length := by
  induction lines with
  | nil => exact Nat.le_refl _
  | cons line lines ih =>
    rw [← List.append_nil (linesText (line :: lines)), linesText_cons]
    simp only [List.length_append, List.length_cons, List.length_nil]
    omega

theorem not_noticed_ok : ¬ Noticed (ascii "HTTP/1.1 200 OK" ++ [0x0d]) := by
  rintro ⟨-, -, digits, hstatus, hne⟩
  have hdigits : searchStatus (ascii "HTTP/1.1 200 OK" ++ [0x0d]) = some (ascii "200") := by decide
  obtain rfl := Option.some.inj (hdigits.symm.trans hstatus)
  exact hne (by decide)

theorem headerLines_headerText (h : ∀ line ∈ lines, HeaderLine line) :
    headerLines (headerText lines ++ rest) = .fields (lines.map fun line => fieldOf (line ++ [0x0d])).reverse rest := by
  have hstream : headerText lines ++ rest =
      (ascii "HTTP/1.1 200 OK" ++ [0x0d]) ++ 0x0a :: (linesText lines ++ ([0x0d, 0x0a] ++ rest)) := by
    unfold headerText
    rw [List.append_assoc, linesText_cons]
  have hlength : lines.length < (headerText lines ++ rest).length := by
    have hlines := length_linesText lines
    rw [hstream]
    simp only [List.length_append, List.length_cons]
    omega
  unfold headerLines
  rw [hstream] at hlength ⊢
  rw [headerLinesLoop_line (getline_line (by decide) _) (by decide) not_noticed_ok, headerLinesLoop_lines h hlength,
    if_neg (by decide), List.append_nil, List.append_nil]

/-- The length is what the last line that sets it says. -/
theorem headerField_lines (lines : List Bytes) :
    headerField (ascii "Content-Length") (lines.map fun line => fieldOf (line ++ [0x0d])).reverse =
      ((lines.reverse.find? NamesLength).map fun line => (fieldOf (line ++ [0x0d])).2).getD [] := by
  rw [← List.map_reverse]
  unfold headerField
  refine congrArg (Option.getD · []) ?_
  induction lines.reverse with
  | nil => rfl
  | cons line lines ih =>
    rw [List.map_cons, List.find?_cons, List.lookup, ih, Bool.beq_comm]
    unfold NamesLength
    split <;> rfl

end Lines

section Digits

variable {digits name value : Bytes} {b : Byte} {n : Nat}

/-! ## The length -/

theorem isDigit_byte {c : Char} (h : c.isDigit) :
    isDigit (BitVec.ofNat 8 c.toNat) = true ∧ (BitVec.ofNat 8 c.toNat).toNat - 0x30 = c.toNat - '0'.toNat := by
  have hc : 48 ≤ c.toNat ∧ c.toNat ≤ 57 := by
    simpa [Char.isDigit, UInt32.le_iff_toNat_le] using h
  have hbyte : (BitVec.ofNat 8 c.toNat).toNat = c.toNat := Nat.mod_eq_of_lt (Nat.lt_of_le_of_lt hc.2 (by decide))
  refine ⟨?_, by rw [hbyte]; rfl⟩
  unfold isDigit
  rw [Bool.and_eq_true, decide_eq_true_iff, decide_eq_true_iff, BitVec.le_def, BitVec.le_def, hbyte]
  exact hc

theorem decimalText_eq (n : Nat) : decimalText n = (Nat.toDigits 10 n).map fun c => BitVec.ofNat 8 c.toNat := by
  unfold decimalText ascii
  rw [Nat.toList_repr]

theorem decimalText_ne_nil : decimalText n ≠ [] := by
  rw [decimalText_eq, ne_eq, List.map_eq_nil_iff]
  exact Nat.toDigits_ne_nil

theorem isDigit_decimalText (h : b ∈ decimalText n) : isDigit b = true := by
  rw [decimalText_eq] at h
  obtain ⟨c, hc, rfl⟩ := List.mem_map.mp h
  exact (isDigit_byte (Nat.isDigit_of_mem_toDigits (by decide) (by decide) hc)).1

theorem decimal_decimalText (n : Nat) : decimal (decimalText n) = n := by
  have hstep : ∀ acc, ∀ c ∈ Nat.toDigits 10 n,
      10 * acc + ((BitVec.ofNat 8 c.toNat).toNat - 0x30) = 10 * acc + (c.toNat - '0'.toNat) := fun acc c hc => by
    rw [(isDigit_byte (Nat.isDigit_of_mem_toDigits (by decide) (by decide) hc)).2]
  calc decimal (decimalText n)
      = (Nat.toDigits 10 n).foldl (fun acc c => 10 * acc + ((BitVec.ofNat 8 c.toNat).toNat - 0x30)) 0 := by
        rw [decimalText_eq, decimal, List.foldl_map]
    _ = Nat.ofDigitChars 10 (Nat.toDigits 10 n) 0 := by
        rw [Nat.ofDigitChars_eq_foldl]
        exact List.foldl_ext _ _ _ hstep
    _ = n := Nat.ofDigitChars_ten_toDigits

theorem digit_other (h : isDigit b = true) : isSpace b = false ∧ b ≠ 0x20 ∧ b ≠ 0x2d ∧ b ≠ 0x2b := by
  revert b
  decide

theorem stoul_digits (hne : digits ≠ []) (hall : ∀ b ∈ digits, isDigit b = true) (hlt : decimal digits < 2 ^ 64) :
    stoul (digits ++ [0x0d]) = .ok (decimal digits) := by
  have htake : (digits ++ [0x0d]).takeWhile isDigit = digits := by
    rw [List.takeWhile_append_of_pos hall, List.takeWhile_cons_of_neg (by decide), List.append_nil]
  have hdrop : (digits ++ [0x0d]).dropWhile isSpace = digits ++ [0x0d] ∧ (digits ++ [0x0d]).head? ≠ some 0x2d ∧
      (digits ++ [0x0d]).head? ≠ some 0x2b := by
    obtain ⟨d, ds, rfl⟩ := List.exists_cons_of_ne_nil hne
    obtain ⟨hspace, -, hminus, hplus⟩ := digit_other (hall d List.mem_cons_self)
    exact ⟨List.dropWhile_cons_of_neg (by simp [hspace]), by simpa using hminus, by simpa using hplus⟩
  unfold stoul
  dsimp only
  rw [hdrop.1, beq_eq_false_iff_ne.mpr hdrop.2.1, beq_eq_false_iff_ne.mpr hdrop.2.2]
  simp only [Bool.or_self, Bool.false_eq_true, if_false]
  rw [htake, if_neg hne, if_neg (Nat.not_le.mpr hlt)]

theorem trim_digits (hne : digits ≠ []) (hall : ∀ b ∈ digits, isDigit b = true) :
    trim (0x20 :: (digits ++ [0x0d])) = digits ++ [0x0d] := by
  have hfront : (0x20 :: (digits ++ [0x0d])).dropWhile (· == (0x20 : Byte)) = digits ++ [0x0d] := by
    obtain ⟨d, ds, rfl⟩ := List.exists_cons_of_ne_nil hne
    rw [List.dropWhile_cons_of_pos (by decide)]
    exact List.dropWhile_cons_of_neg (by simpa using (digit_other (hall d List.mem_cons_self)).2.1)
  unfold trim
  rw [hfront, List.reverse_append, List.reverse_singleton, List.singleton_append,
    List.dropWhile_cons_of_neg (by decide), List.reverse_cons, List.reverse_reverse]

theorem fieldOf_colon (h : 0x3a ∉ name) : fieldOf (name ++ 0x3a :: value) = (trim name, trim value) := by
  have hindex : (name ++ 0x3a :: value).idxOf 0x3a = name.length := by
    rw [List.idxOf_append_of_notMem h, List.idxOf_cons_self, Nat.add_zero]
  unfold fieldOf
  rw [hindex, List.take_left, List.drop_length_add_append, List.drop_one, List.tail_cons]

theorem fieldOf_contentLengthLine (n : Nat) :
    fieldOf (contentLengthLine n ++ [0x0d]) = (ascii "Content-Length", decimalText n ++ [0x0d]) := by
  have hline : contentLengthLine n ++ [0x0d] =
    ascii "Content-Length" ++ 0x3a :: (0x20 :: (decimalText n ++ [0x0d])) := by
    unfold contentLengthLine
    rw [List.append_assoc]
    rfl
  rw [hline, fieldOf_colon (by decide), trim_digits decimalText_ne_nil fun b => isDigit_decimalText]
  rfl

theorem namesLength_contentLengthLine (n : Nat) : NamesLength (contentLengthLine n) = true := by
  unfold NamesLength
  rw [fieldOf_contentLengthLine]
  exact beq_self_eq_true _

theorem stoul_contentLengthLine (h : n < 2 ^ 64) : stoul (fieldOf (contentLengthLine n ++ [0x0d])).2 = .ok n := by
  rw [fieldOf_contentLengthLine, stoul_digits decimalText_ne_nil (fun b => isDigit_decimalText), decimal_decimalText]
  rwa [decimal_decimalText]

end Digits

section Assembly

variable {g g' : Gateway} {i : ConnId} {c : Client} {k m n : Nat} {r : Request} {lines : List Bytes}
  {line body more : Bytes}
  {taken : Nat}

/-! ## The response read -/

theorem stageOf_stage (hl : Live g i c) (hr : c.requests[k]? = some r) (stage : Stage) :
    stageOf (g.modify i (·.stage k stage)) i k = some { r with stage } := by
  unfold stageOf
  rw [(hl.modify (f := (·.stage k stage)) rfl).1]
  exact getElem?_stage_self hr stage

theorem run_readHTTPHeader_lines (k : Nat) (more : Bytes) (hl : Live g i c) (halive : c.alive = true)
    (h : ∀ line ∈ lines, HeaderLine line) (hlast : lines.reverse.find? NamesLength = some line)
    (hlength : stoul (fieldOf (line ++ [0x0d])).2 = .ok m) :
    readHTTPHeader i k false (headerText lines ++ more) g =
      .ok () ((g.modify i (·.stage k .finished)).modify i (·.stage k (.readingBody m more))) := by
  have hl₁ := hl.modify (f := (·.stage k .finished)) rfl
  rw [readHTTPHeader, Exec.run_bind_ok (run_setStage hl _), Exec.run_bind_ok (run_client hl₁),
    if_neg (by simp [Client.stage, halive]), headerLines_headerText h]
  dsimp only
  rw [headerField_lines, hlast, Option.map_some, Option.getD_some, hlength]
  exact run_setStage hl₁ _

theorem unread_headerText {e : Exn} (h : ∀ line ∈ lines, HeaderLine line)
    (hlast : lines.reverse.find? NamesLength = some line) (hlength : stoul (fieldOf (line ++ [0x0d])).2 = .error e) :
      Unread (headerText lines ++ more) := by
  by_cases hnoticed : ∃ line ∈ headerBlock (headerText lines ++ more), Noticed line
  · exact Or.inl hnoticed
  · obtain ⟨rest, hfields⟩ := headerLines_fields hnoticed
    rw [headerLines_headerText h, HeaderLines.fields.injEq] at hfields
    refine Or.inr ⟨e, ?_⟩
    rw [← hfields.1, headerField_lines, hlast, Option.map_some, Option.getD_some, hlength]

theorem not_parsesBody_of_finished {i : ConnId}
    (h : Exec.wp (readHTTPHeader i k false (headerText lines ++ body.take taken)) (fun _ => Finished i k)
      (fun _ => Finished i k) g) : ¬ ParsesBody i k g lines body taken := by
  rintro ⟨g', r, contentLength, rest, hrun, hof, hstage, -⟩
  obtain ⟨c, hc, r', hr', hfinished⟩ := (Exec.wp_of_ok hrun).mp h
  obtain ⟨c', hc', hr⟩ := stageOf_eq_some hof
  obtain rfl := Option.some.inj (hc.symm.trans hc')
  obtain rfl := Option.some.inj (hr.symm.trans hr')
  rw [hstage] at hfinished
  cases hfinished

/-- With what it gets, `onHasJoinedPostComplete` does what it would do with the body alone. -/
theorem handler_of_parsesBody (E : Env) (w : World) (h : ParsesBody i k g lines body taken) :
    ∃ g' sharedSecret error more, readHTTPHeader i k false (headerText lines ++ body.take taken) g = .ok () g' ∧
      handler E g' w (.onHasJoinedPostComplete i k error more) =
        some (onHasJoinedPostComplete E w i k sharedSecret .none body body.length) := by
  obtain ⟨g', r, contentLength, rest, hrun, hof, hstage, hparsed⟩ := h
  refine ⟨g', r.sharedSecret, (transferExactly contentLength (body.drop taken)).1,
    (transferExactly contentLength (body.drop taken)).2, hrun, ?_⟩
  simp only [handler, hof, hstage, Option.bind_eq_bind, Option.bind_some]
  rw [if_pos length_transferExactly, onHasJoinedPostComplete_parsed hparsed]

theorem read_of_parsesBody (hc : g.objects[i]? = some c) (hr : c.requests[k]? = some r)
    (h : ∀ line ∈ lines, HeaderLine line) (hlast : lines.reverse.find? NamesLength = some line)
    (hparses : ParsesBody i k g lines body taken) :
    c.freed = false ∧ c.alive = true ∧ ∃ m, stoul (fieldOf (line ++ [0x0d])).2 = .ok m := by
  have hl : Live g i c := by
    obtain ⟨g', -, -, -, hrun, -⟩ := hparses
    have hlive : Exec.wp (readHTTPHeader i k false (headerText lines ++ body.take taken)) (fun _ _ => Live g i c)
        (fun _ _ => Live g i c) g :=
      wp_modify_first ⟨_, _, rfl⟩ hc fun hl => Exec.wp_mono (Exec.wp_true _ g) (fun _ _ _ => hl) fun _ _ _ => hl
    exact (Exec.wp_of_ok hrun).mp hlive
  refine ⟨hl.2, ?_, ?_⟩
  · by_contra hdead
    exact not_parsesBody_of_finished (wp_readHTTPHeader_unread hl hr (Or.inl (by simpa using hdead))) hparses
  · cases hlength : stoul (fieldOf (line ++ [0x0d])).2 with
    | error e =>
      have hunread : Unread (headerText lines ++ body.take taken) := unread_headerText h hlast hlength
      exact absurd hparses (not_parsesBody_of_finished (wp_readHTTPHeader_unread hl hr (Or.inr hunread)))
    | ok m => exact ⟨m, rfl⟩

/-- Read to its end, it is parsed as it is when the header gives its length, up to a null character. -/
theorem parsesBody_of_length (hl : Live g i c) (hr : c.requests[k]? = some r) (halive : c.alive = true)
    (h : ∀ line ∈ lines, HeaderLine line) (hlast : lines.reverse.find? NamesLength = some line)
    (hlength : stoul (fieldOf (line ++ [0x0d])).2 = .ok m) (htaken : taken ≤ body.length) :
    ParsesBody i k g lines body taken ↔ m = body.length ∧ 0 ∉ body := by
  have hl₁ := hl.modify (f := (·.stage k .finished)) rfl
  have hrun := run_readHTTPHeader_lines k (body.take taken) hl halive h hlast hlength
  have hof := stageOf_stage hl₁ (getElem?_stage_self hr .finished) (.readingBody m (body.take taken))
  rw [← bodyText_transferExactly_iff htaken]
  constructor
  · rintro ⟨g', r', contentLength, rest, hrun', hof', hstage, hparsed⟩
    obtain ⟨-, rfl⟩ := Res.ok.inj (hrun.symm.trans hrun')
    obtain rfl := Option.some.inj (hof.symm.trans hof')
    obtain ⟨rfl, rfl⟩ := Stage.readingBody.inj hstage
    exact hparsed
  · intro hparsed
    exact ⟨_, _, _, _, hrun, hof, rfl, hparsed⟩

theorem exists_last (hcount : lines.count (contentLengthLine n) = 1) :
    ∃ line, lines.reverse.find? NamesLength = some line := by
  rw [← Option.isSome_iff_exists, List.find?_isSome]
  have hmem : contentLengthLine n ∈ lines := List.count_pos_iff.mp (hcount ▸ Nat.zero_lt_one)
  exact ⟨_, List.mem_reverse.mpr hmem, namesLength_contentLengthLine n⟩

theorem lastLengthIs_of_only (h : ∀ line ∈ lines, NamesLength line → line = contentLengthLine n) (hn : n < 2 ^ 64) :
    LastLengthIs lines n := by
  intro line hlast
  obtain rfl := h line (List.mem_reverse.mp (List.mem_of_find?_eq_some hlast)) (List.find?_some hlast)
  exact stoul_contentLengthLine hn

end Assembly

/-- **The body of a response.** However much of it came with the header, what is parsed is the body, exactly when the
client is there and alive, the last line that sets the length says how long it is, and there is no null character in
it. -/
theorem parsesBody_iff (i : ConnId) (k : Nat) (g : Gateway) (c : Client) (r : Request) (lines : List Bytes)
    (body : Bytes) (taken : Nat) (hc : g.objects[i]? = some c) (hr : c.requests[k]? = some r)
    (h : ∀ line ∈ lines, HeaderLine line) (hcount : lines.count (contentLengthLine body.length) = 1)
    (htaken : taken ≤ body.length) :
    ParsesBody i k g lines body taken ↔
      c.freed = false ∧ c.alive = true ∧ LastLengthIs lines body.length ∧ 0 ∉ body := by
  obtain ⟨line, hlast⟩ := exists_last hcount
  constructor
  · intro hparses
    obtain ⟨hfreed, halive, m, hlength⟩ := read_of_parsesBody hc hr h hlast hparses
    obtain ⟨rfl, hzero⟩ := (parsesBody_of_length ⟨hc, hfreed⟩ hr halive h hlast hlength htaken).mp hparses
    refine ⟨hfreed, halive, fun line' hlast' => ?_, hzero⟩
    obtain rfl := Option.some.inj (hlast.symm.trans hlast')
    exact hlength
  · rintro ⟨hfreed, halive, hlength, hzero⟩
    exact (parsesBody_of_length ⟨hc, hfreed⟩ hr halive h hlast (hlength line hlast) htaken).mpr ⟨rfl, hzero⟩

theorem awaits_response :
    ∃ g c r, runFrom (step .player) Gateway.init refusedRun = some g ∧ g.objects[0]? = some c ∧ c.freed = false ∧
      c.alive = true ∧ c.requests[0]? = some r := by
  have hstate : (runFrom (step .player) Gateway.init refusedRun).map
      (fun g => g.objects[0]?.map fun c => (c.freed, c.alive, c.requests.length)) = some (some (false, true, 1)) := by
    decide +kernel
  obtain ⟨g, hg, hclient⟩ := Option.map_eq_some_iff.mp hstate
  obtain ⟨c, hc, hfields⟩ := Option.map_eq_some_iff.mp hclient
  simp only [Prod.mk.injEq] at hfields
  obtain ⟨hfreed, halive, hlength⟩ := hfields
  exact ⟨g, c, _, hg, hc, hfreed, halive, List.getElem?_eq_getElem (hlength ▸ Nat.zero_lt_one)⟩

/-- The header of the response that lets a player in. -/
def playerInfoLines : List Bytes := [ascii "Content-Type: application/json", contentLengthLine playerInfo.length]

theorem parsesBody_playerInfo :
    ∃ g, runFrom (step .player) Gateway.init refusedRun = some g ∧ ParsesBody 0 0 g playerInfoLines playerInfo 7 := by
  obtain ⟨g, c, r, hg, hc, hfreed, halive, hr⟩ := awaits_response
  have hlast : LastLengthIs playerInfoLines playerInfo.length := lastLengthIs_of_only (by decide) (by decide)
  exact ⟨g, hg, (parsesBody_iff 0 0 g c r playerInfoLines playerInfo 7 hc hr (by decide) (by decide) (by decide)).mpr
    ⟨hfreed, halive, hlast, by decide⟩⟩

/-- A body that is a null character is not parsed. -/
theorem null_character_not_parsed :
    ¬ ∀ (E : Env) (run : List (World × Event)) (g : Gateway) (i : ConnId) (k : Nat) (c : Client) (r : Request)
        (lines : List Bytes) (body : Bytes) (taken : Nat),
      runFrom (step E) Gateway.init run = some g → g.objects[i]? = some c → c.freed = false → c.alive = true →
        c.requests[k]? = some r → (∀ line ∈ lines, HeaderLine line) → lines.count (contentLengthLine body.length) = 1 →
          taken ≤ body.length → ParsesBody i k g lines body taken := by
  intro h
  obtain ⟨g, c, r, hg, hc, hfreed, halive, hr⟩ := awaits_response
  have hparses := h .player refusedRun g 0 0 c r [contentLengthLine 1] [0] 0 hg hc hfreed halive hr (by decide)
    (by decide) (by decide)
  have hlast : [contentLengthLine 1].reverse.find? NamesLength = some (contentLengthLine 1) :=
    List.find?_cons_of_pos (namesLength_contentLengthLine 1)
  obtain ⟨-, hzero⟩ := (parsesBody_of_length ⟨hc, hfreed⟩ hr halive (by decide) hlast
    (stoul_contentLengthLine (by decide)) (Nat.zero_le _)).mp hparses
  exact hzero List.mem_cons_self

end CeriosCluster.ClientGateway
