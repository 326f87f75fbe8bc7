import SqfMinifier.Token.Basic

/-!
Longest-match reading of tokens from the front of a text. Every non-empty text starts with
exactly one token, so repeated reading cuts a text into tokens and loses nothing.
-/

namespace SqfMinifier

namespace Token

/-- Cuts a text behind its first `*/`; without one everything is in the first part. -/
def throughClose : Text → Text × Text
  | [] => ([], [])
  | '*' :: '/' :: rest => (['*', '/'], rest)
  | c :: rest => (c :: (throughClose rest).1, (throughClose rest).2)

/-- Characters that no other token kind claims. -/
def isPlain (c : Char) : Bool :=
  !(c == '/' || c == '\r' || c == '\n' || c == '\t' || c == ' ' || c == '"' || c == '\'' || c == '#')

def lex : Text → Option (Token × Text)
  | [] => none
  | '/' :: '/' :: rest =>
    some (⟨.lineComment, '/' :: '/' :: Text.restOfLine rest⟩, Text.afterLine rest)
  | '/' :: '*' :: rest =>
    some (⟨.blockComment, '/' :: '*' :: (throughClose rest).1⟩, (throughClose rest).2)
  | '/' :: rest => some (⟨.slash, ['/']⟩, rest)
  | '\r' :: '\n' :: rest => some (⟨.newline, ['\r', '\n']⟩, rest)
  | '\r' :: rest => some (⟨.newline, ['\r']⟩, rest)
  | '\n' :: rest => some (⟨.newline, ['\n']⟩, rest)
  | '#' :: rest => some (⟨.hash, ['#']⟩, rest)
  | '"' :: rest => some (⟨.doubleQuote, ['"']⟩, rest)
  | '\'' :: rest => some (⟨.singleQuote, ['\'']⟩, rest)
  | '\t' :: rest => some (⟨.tab, ['\t']⟩, rest)
  | ' ' :: rest => some (⟨.spaces, ' ' :: rest.takeWhile (· == ' ')⟩, rest.dropWhile (· == ' '))
  | c :: rest => some (⟨.text, c :: rest.takeWhile isPlain⟩, rest.dropWhile isPlain)

theorem throughClose_append (t : Text) : (throughClose t).1 ++ (throughClose t).2 = t := by
  fun_induction throughClose t with
  | case1 => rfl
  | case2 => rfl
  | case3 c rest _ ih => simpa using ih

theorem lex_append {t rest : Text} {token : Token} (h : lex t = some (token, rest)) :
    token.text ++ rest = t := by
  unfold lex at h
  split at h <;> simp only [Option.some.injEq, Prod.mk.injEq, reduceCtorEq] at h
  all_goals obtain ⟨rfl, rfl⟩ := h
  all_goals simp [Text.restOfLine, Text.afterLine, throughClose_append]

theorem lex_text_ne_nil {t rest : Text} {token : Token} (h : lex t = some (token, rest)) :
    token.text ≠ [] := by
  unfold lex at h
  split at h <;> simp only [Option.some.injEq, Prod.mk.injEq, reduceCtorEq] at h
  all_goals obtain ⟨rfl, rfl⟩ := h
  all_goals simp

theorem lex_shorter {t rest : Text} {token : Token} (h : lex t = some (token, rest)) :
    rest.length < t.length := by
  have hne := List.length_pos_iff.mpr (lex_text_ne_nil h)
  have happ := congrArg List.length (lex_append h)
  simp only [List.length_append] at happ
  omega

def tokens (t : Text) : List Token :=
  match _h : lex t with
  | none => []
  | some (token, rest) => token :: tokens rest
termination_by t.length
decreasing_by exact lex_shorter _h

def spansFrom (start : Nat) : List Token → List Span
  | [] => []
  | token :: rest =>
    let stop := start + Text.byteSize token.text
    ⟨token.kind, start, stop⟩ :: spansFrom stop rest

def spans (t : Text) : List Span := spansFrom 0 (tokens t)

end Token

end SqfMinifier
