import Mathlib.Data.List.Basic

/-!
# Text with quoted literals

A lexer for text in which a quote opens and closes a literal. Inside one a doubled quote stands for one quote, and an
escape character for what comes after it, read its own way.
-/

namespace CeriosCluster.Lib.Quoted

variable {α : Type}

inductive Token (α : Type)
  | code (x : α)
  | literal (text : List α)
  deriving DecidableEq

/-- Where the lexer is; `closed` is behind a quote that may be the first of two. -/
inductive Mode (α : Type)
  | outside
  | inside (text : List α)
  | escaped (text : List α)
  | closed (text : List α)

section Lexer

variable [DecidableEq α] (quote escape : α) (unescape : α → α)

/-- The tokens of a text; there are none if a literal is left open. -/
def lexFrom : Mode α → List α → Option (List (Token α))
  | .outside, [] => some []
  | .inside _, [] => none
  | .escaped _, [] => none
  | .closed text, [] => some [.literal text]
  | .outside, x :: xs => if x = quote then lexFrom (.inside []) xs else (lexFrom .outside xs).map (.code x :: ·)
  | .inside text, x :: xs =>
    if x = escape then lexFrom (.escaped text) xs
    else if x = quote then lexFrom (.closed text) xs
    else lexFrom (.inside (text ++ [x])) xs
  | .escaped text, x :: xs => lexFrom (.inside (text ++ [unescape x])) xs
  | .closed text, x :: xs =>
    if x = quote then lexFrom (.inside (text ++ [quote])) xs
    else (lexFrom .outside xs).map fun tokens => .literal text :: .code x :: tokens

def lex (xs : List α) : Option (List (Token α)) := lexFrom quote escape unescape .outside xs

variable {quote escape unescape} {xs ys text : List α}

/-- Text without a quote is code. -/
theorem lexFrom_code (h : quote ∉ xs) :
    lexFrom quote escape unescape .outside (xs ++ ys) =
      (lexFrom quote escape unescape .outside ys).map (xs.map .code ++ ·) := by
  induction xs with
  | nil => simp
  | cons x xs ih =>
    obtain ⟨hx, hxs⟩ := not_or.mp (mt List.mem_cons.mpr h)
    rw [List.cons_append, lexFrom, if_neg (Ne.symm hx), ih hxs, Option.map_map]
    rfl

/-- Text without a quote and without an escape stands for itself. -/
theorem lexFrom_plain (hquote : quote ∉ xs) (hescape : escape ∉ xs) :
    lexFrom quote escape unescape (.inside text) (xs ++ ys) =
      lexFrom quote escape unescape (.inside (text ++ xs)) ys := by
  induction xs generalizing text with
  | nil => simp
  | cons x xs ih =>
    obtain ⟨hx, hxs⟩ := not_or.mp (mt List.mem_cons.mpr hquote)
    obtain ⟨hx', hxs'⟩ := not_or.mp (mt List.mem_cons.mpr hescape)
    rw [List.cons_append, lexFrom, if_neg (Ne.symm hx'), if_neg (Ne.symm hx), ih hxs hxs', List.append_assoc]
    rfl

/-- **One literal.** A plain text between two quotes, with code before and after it, is one literal. -/
theorem lex_literal {before after : List α} (hbefore : quote ∉ before) (hquote : quote ∉ text) (hescape : escape ∉ text)
    (hne : quote ≠ escape) (hafter : after ≠ []) (hcode : quote ∉ after) :
    lex quote escape unescape (before ++ quote :: (text ++ quote :: after)) =
      some (before.map .code ++ .literal text :: after.map .code) := by
  cases after with
  | nil => exact absurd rfl hafter
  | cons x after =>
    obtain ⟨hx, hxs⟩ := not_or.mp (mt List.mem_cons.mpr hcode)
    have hrest : lexFrom quote escape unescape .outside (after ++ []) = _ := lexFrom_code hxs
    rw [List.append_nil] at hrest
    unfold lex
    rw [lexFrom_code hbefore, lexFrom, if_pos rfl, lexFrom_plain hquote hescape, List.nil_append, lexFrom, if_neg hne,
      if_pos rfl, lexFrom, if_neg (Ne.symm hx), hrest]
    simp [lexFrom]

end Lexer

end CeriosCluster.Lib.Quoted
