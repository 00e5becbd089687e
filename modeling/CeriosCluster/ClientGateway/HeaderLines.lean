import CeriosCluster.ClientGateway.Http

/-!
# The lines of a response header

What the loop over the header makes of a response, in terms of its lines: a line that is noticed ends it, and
otherwise it comes back with the fields of the lines before the blank one.
-/

namespace CeriosCluster.ClientGateway

open CeriosCluster.Lib CeriosCluster.MCPacket

def headerBlock (stream : Bytes) : List Bytes := (stream.splitOn 0x0a).takeWhile (· != [0x0d])

def fieldOf (line : Bytes) : Bytes × Bytes :=
  (trim (line.take (line.idxOf 0x3a)), trim (line.drop (line.idxOf 0x3a + 1)))

/-- The fields of the lines, the last one first. -/
def headerFields (block : List Bytes) : List (Bytes × Bytes) := ((block.filter (·.contains 0x3a)).map fieldOf).reverse

/-- The line has no colon, contains `HTTP`, and what the search takes for its status is another number than 200. -/
def Noticed (line : Bytes) : Prop :=
  0x3a ∉ line ∧ findText (ascii "HTTP") line = true ∧ ∃ digits, searchStatus line = some digits ∧ decimal digits ≠ 200

section Lines

variable {line stream rest : Bytes} {fuel : Nat} {httpKVPairs : List (Bytes × Bytes)}

theorem getline_cases (h : stream ≠ []) :
    ∃ line rest, getline stream = some (line, rest) ∧ 0x0a ∉ line ∧
      (stream = line ∧ rest = [] ∨ stream = line ++ 0x0a :: rest) := by
  have hget : getline stream = some (stream.takeWhile (· != 0x0a), (stream.dropWhile (· != 0x0a)).drop 1) := by
    cases stream with
    | nil => exact absurd rfl h
    | cons b stream => rfl
  refine ⟨_, _, hget, fun hmem => ?_, ?_⟩
  · have := List.mem_takeWhile_imp hmem
    simp at this
  · cases hrest : stream.dropWhile (· != 0x0a) with
    | nil =>
      have hall := List.takeWhile_append_dropWhile (p := (· != 0x0a)) (l := stream)
      rw [hrest, List.append_nil] at hall
      exact Or.inl ⟨hall.symm, rfl⟩
    | cons b rest =>
      have hb : b = 0x0a := by
        have := List.head?_dropWhile_not (· != 0x0a) stream
        rw [hrest] at this
        simpa using this
      subst hb
      have hall := List.takeWhile_append_dropWhile (p := (· != 0x0a)) (l := stream)
      rw [hrest] at hall
      exact Or.inr hall.symm

theorem headerBlock_cons (hline : 0x0a ∉ line) (hblank : line ≠ [0x0d]) :
    headerBlock (line ++ 0x0a :: rest) = line :: headerBlock rest := by
  unfold headerBlock
  rw [List.splitOn_append_cons_self_of_not_mem hline, List.takeWhile_cons_of_pos (by simpa using hblank)]

theorem headerBlock_last (hline : 0x0a ∉ line) (hblank : line ≠ [0x0d]) : headerBlock line = [line] := by
  unfold headerBlock
  rw [List.splitOn_eq_singleton hline, List.takeWhile_cons_of_pos (by simpa using hblank), List.takeWhile_nil]

theorem headerBlock_blank (h : getline stream = some ([0x0d], rest)) : headerBlock stream = [] := by
  have hne : stream ≠ [] := by
    rintro rfl
    cases h
  obtain ⟨line, rest', h', hline, hstream⟩ := getline_cases hne
  obtain ⟨rfl, rfl⟩ := Prod.mk.inj (Option.some.inj (h.symm.trans h'))
  unfold headerBlock
  rcases hstream with ⟨rfl, -⟩ | rfl
  · rw [List.splitOn_eq_singleton hline]
    rfl
  · rw [List.splitOn_append_cons_self_of_not_mem hline]
    rfl

theorem headerBlock_nil : headerBlock [] = [[]] := by
  unfold headerBlock
  rw [List.splitOn_nil]
  rfl

theorem headerFields_cons {block : List Bytes} :
    headerFields (line :: block) = headerFields block ++ if line.contains 0x3a then [fieldOf line] else [] := by
  unfold headerFields
  split <;> simp_all

theorem not_noticed_nil : ¬ Noticed [] := by
  rintro ⟨-, hfind, -⟩
  exact absurd hfind (by decide)

/-- What a line adds to the header. -/
theorem header_getline (h : getline stream = some (line, rest)) (hblank : line ≠ [0x0d]) :
    headerFields (headerBlock stream) = headerFields (line :: headerBlock rest) ∧
      ((∃ l ∈ headerBlock stream, Noticed l) ↔ Noticed line ∨ ∃ l ∈ headerBlock rest, Noticed l) := by
  have hne : stream ≠ [] := by
    rintro rfl
    cases h
  obtain ⟨line', rest', h', hline, hstream⟩ := getline_cases hne
  obtain ⟨rfl, rfl⟩ := Prod.mk.inj (Option.some.inj (h.symm.trans h'))
  rcases hstream with ⟨rfl, rfl⟩ | rfl
  · rw [headerBlock_last hline hblank, headerBlock_nil, headerFields_cons, headerFields_cons]
    exact ⟨rfl, by simp [not_noticed_nil]⟩
  · rw [headerBlock_cons hline hblank]
    exact ⟨rfl, by simp⟩

theorem length_getline (h : getline stream = some (line, rest)) : rest.length < stream.length := by
  have hne : stream ≠ [] := by
    rintro rfl
    cases h
  obtain ⟨line', rest', h', -, hstream⟩ := getline_cases hne
  obtain ⟨rfl, rfl⟩ := Prod.mk.inj (Option.some.inj (h.symm.trans h'))
  rcases hstream with ⟨rfl, rfl⟩ | rfl
  · exact List.length_pos_iff.mpr hne
  · rw [List.length_append, List.length_cons]
    omega

theorem headerLinesLoop_line (h : getline stream = some (line, rest)) (hblank : line ≠ [0x0d]) (hnot : ¬ Noticed line) :
    headerLinesLoop (fuel + 1) httpKVPairs stream =
      headerLinesLoop fuel ((if line.contains 0x3a then [fieldOf line] else []) ++ httpKVPairs) rest := by
  rw [headerLinesLoop, h]
  dsimp only
  rw [if_neg hblank]
  split
  · rfl
  · next hcolon =>
    split
    · next hhttp =>
      cases hstatus : searchStatus line with
      | none => rfl
      | some digits =>
        have hok : decimal digits = 200 := by
          by_contra hne
          exact hnot ⟨by simpa using hcolon, hhttp, digits, hstatus, hne⟩
        have hstoi : stoi digits = .ok 200 := by
          unfold stoi
          rw [hok]
          rfl
        dsimp only
        rw [hstoi]
        rfl
    · rfl

/-- On a line that is noticed, the loop ends without the fields. -/
theorem headerLinesLoop_noticed (h : getline stream = some (line, rest)) (hblank : line ≠ [0x0d])
    (hnoticed : Noticed line) :
    headerLinesLoop (fuel + 1) httpKVPairs stream = .notOk ∨
      ∃ e, headerLinesLoop (fuel + 1) httpKVPairs stream = .threw e := by
  obtain ⟨hcolon, hhttp, digits, hstatus, hne⟩ := hnoticed
  rw [headerLinesLoop, h]
  dsimp only
  rw [if_neg hblank, if_neg (by simpa using hcolon), if_pos hhttp, hstatus]
  dsimp only
  unfold stoi
  split
  · next hstoi =>
    exact Or.inr ⟨_, rfl⟩
  · next code hstoi =>
    split at hstoi
    · obtain rfl := Except.ok.inj hstoi
      rw [if_pos hne]
      exact Or.inl rfl
    · cases hstoi

theorem headerLinesLoop_cases (httpKVPairs : List (Bytes × Bytes)) (hfuel : stream.length < fuel) :
    ((∃ line ∈ headerBlock stream, Noticed line) →
        headerLinesLoop fuel httpKVPairs stream = .notOk ∨ ∃ e, headerLinesLoop fuel httpKVPairs stream = .threw e) ∧
      ((¬ ∃ line ∈ headerBlock stream, Noticed line) →
        ∃ rest, headerLinesLoop fuel httpKVPairs stream =
          .fields (headerFields (headerBlock stream) ++ httpKVPairs) rest) := by
  induction fuel generalizing stream httpKVPairs with
  | zero => omega
  | succ fuel ih =>
    cases hget : getline stream with
    | none =>
      obtain rfl : stream = [] := by
        by_contra hne
        obtain ⟨line, rest, h, -⟩ := getline_cases hne
        rw [hget] at h
        cases h
      rw [headerBlock_nil]
      refine ⟨fun h => ?_, fun _ => ⟨[], rfl⟩⟩
      obtain ⟨line, hline, hnoticed⟩ := h
      obtain rfl := List.mem_singleton.mp hline
      exact absurd hnoticed not_noticed_nil
    | some p =>
      obtain ⟨line, rest⟩ := p
      by_cases hblank : line = [0x0d]
      · subst hblank
        rw [headerBlock_blank hget]
        refine ⟨fun h => ?_, fun _ => ⟨rest, ?_⟩⟩
        · obtain ⟨line, hline, -⟩ := h
          cases hline
        · rw [headerLinesLoop, hget]
          rfl
      · obtain ⟨hfields, hnoticed⟩ := header_getline hget hblank
        rw [hfields, hnoticed]
        by_cases hline : Noticed line
        · exact ⟨fun _ => headerLinesLoop_noticed hget hblank hline, fun h => absurd (Or.inl hline) h⟩
        · rw [headerLinesLoop_line hget hblank hline, headerFields_cons, List.append_assoc]
          have hrest := length_getline hget
          simpa only [hline, false_or] using ih _ (by omega)

/-- A header with a line that is noticed gives no fields. -/
theorem headerLines_noticed (h : ∃ line ∈ headerBlock stream, Noticed line) :
    headerLines stream = .notOk ∨ ∃ e, headerLines stream = .threw e :=
  (headerLinesLoop_cases [] (Nat.lt_succ_self _)).1 h

theorem headerLines_fields (h : ¬ ∃ line ∈ headerBlock stream, Noticed line) :
    ∃ rest, headerLines stream = .fields (headerFields (headerBlock stream)) rest := by
  obtain ⟨rest, hfields⟩ := (headerLinesLoop_cases [] (Nat.lt_succ_self _)).2 h
  rw [List.append_nil] at hfields
  exact ⟨rest, hfields⟩

end Lines

end CeriosCluster.ClientGateway
