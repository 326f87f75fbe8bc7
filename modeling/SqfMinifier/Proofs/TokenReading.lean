import SqfMinifier.Token.Lexer
import Mathlib.Data.List.TakeWhile

/-!
What reading one token can do, one rule for each shape of the text in front. A slash or a
carriage return stands alone only where the next character does not complete a longer token.
-/

namespace SqfMinifier

/-- The character of a token kind that has no other text and begins no longer token. -/
def TokenKind.sign? : TokenKind → Option Char
  | hash => some '#'
  | doubleQuote => some '"'
  | singleQuote => some '\''
  | tab => some '\t'
  | _ => none

namespace Token

inductive Reads : Text → Token → Text → Prop where
  | lineComment (body : Text) :
      Reads ('/' :: '/' :: body) ⟨.lineComment, '/' :: '/' :: Text.restOfLine body⟩
        (Text.afterLine body)
  | blockComment (body : Text) :
      Reads ('/' :: '*' :: body) ⟨.blockComment, '/' :: '*' :: (throughClose body).1⟩
        (throughClose body).2
  | slash (rest : Text) (h : rest.head? ≠ some '/' ∧ rest.head? ≠ some '*') :
      Reads ('/' :: rest) ⟨.slash, ['/']⟩ rest
  | returnFeed (rest : Text) : Reads ('\r' :: '\n' :: rest) ⟨.newline, ['\r', '\n']⟩ rest
  | loneReturn (rest : Text) (h : rest.head? ≠ some '\n') :
      Reads ('\r' :: rest) ⟨.newline, ['\r']⟩ rest
  | lineFeed (rest : Text) : Reads ('\n' :: rest) ⟨.newline, ['\n']⟩ rest
  | sign (kind : TokenKind) (c : Char) (rest : Text) (h : kind.sign? = some c) :
      Reads (c :: rest) ⟨kind, [c]⟩ rest
  | spaces (rest : Text) :
      Reads (' ' :: rest) ⟨.spaces, ' ' :: rest.takeWhile (· == ' ')⟩ (rest.dropWhile (· == ' '))
  | text (c : Char) (rest : Text) (h : isPlain c = true) :
      Reads (c :: rest) ⟨.text, c :: rest.takeWhile isPlain⟩ (rest.dropWhile isPlain)

theorem reads_of_lex {t rest : Text} {token : Token} (h : lex t = some (token, rest)) :
    Reads t token rest := by
  unfold lex at h
  split at h <;> simp only [Option.some.injEq, Prod.mk.injEq, reduceCtorEq] at h
  all_goals obtain ⟨rfl, rfl⟩ := h
  case h_2 => exact .lineComment _
  case h_3 => exact .blockComment _
  case h_4 slash star =>
    refine .slash _ ⟨fun hh => ?_, fun hh => ?_⟩
    · obtain ⟨tail, rfl⟩ := List.head?_eq_some_iff.mp hh; exact slash tail rfl
    · obtain ⟨tail, rfl⟩ := List.head?_eq_some_iff.mp hh; exact star tail rfl
  case h_5 => exact .returnFeed _
  case h_6 feed =>
    refine .loneReturn _ fun hh => ?_
    obtain ⟨tail, rfl⟩ := List.head?_eq_some_iff.mp hh
    exact feed tail rfl
  case h_7 => exact .lineFeed _
  case h_8 => exact .sign .hash _ _ rfl
  case h_9 => exact .sign .doubleQuote _ _ rfl
  case h_10 => exact .sign .singleQuote _ _ rfl
  case h_11 => exact .sign .tab _ _ rfl
  case h_12 => exact .spaces _
  case h_13 => exact .text _ _ (by simp_all [isPlain])

theorem lex_of_reads {t rest : Text} {token : Token} (h : Reads t token rest) :
    lex t = some (token, rest) := by
  cases h with
  | lineComment => rfl
  | blockComment => rfl
  | returnFeed => rfl
  | lineFeed => rfl
  | spaces => rfl
  | slash rest h =>
    cases rest with
    | nil => rfl
    | cons c rest =>
      simp only [List.head?_cons, ne_eq, Option.some.injEq] at h
      simp [lex, h.1, h.2]
  | loneReturn rest h =>
    cases rest with
    | nil => rfl
    | cons c rest =>
      simp only [List.head?_cons, ne_eq, Option.some.injEq] at h
      simp [lex, h]
  | sign kind c rest h => cases kind <;> cases h <;> rfl
  | text c rest h =>
    simp only [isPlain, Bool.not_eq_true', Bool.or_eq_false_iff, beq_eq_false_iff_ne] at h
    unfold lex
    split <;> simp_all

/-- Every character begins a token, so no text but the empty one is left over. -/
theorem lex_cons_ne_none (c : Char) (rest : Text) : lex (c :: rest) ≠ none := by
  unfold lex
  split <;> simp_all

end Token

end SqfMinifier
