import SqfMinifier.Proofs.DirectiveLayout

/-!
Two ways of cutting a text into lines. One cuts at the line feeds, drops a carriage return at the
end of each piece, and then cuts at the carriage returns. The other reads each line end as one
token, from left to right, so that a carriage return takes a line feed along. The lines are the
same, but for an empty one behind a carriage return that ends the text.
-/

namespace SqfMinifier

namespace Text

/-- What stands between the line ends of a text when each of them is read as one token. -/
def tokenLines (t : Text) : List Text :=
  match _h : Token.lex (afterLine t) with
  | some (⟨.newline, _⟩, rest) => restOfLine t :: tokenLines rest
  | _ => [restOfLine t]
termination_by t.length
decreasing_by
  have hshort := Token.lex_shorter _h
  have hafter := Scan.afterLine_length t
  omega

theorem reads_line_end {e : Char} (he : isLineEnd e = true) (t : Text) :
    ∃ ending rest, Token.Reads (e :: t) ⟨.newline, ending⟩ rest := by
  have hcase : e = '\r' ∨ e = '\n' := by simpa [isLineEnd] using he
  rcases hcase with rfl | rfl
  · by_cases hfeed : t.head? = some '\n'
    · obtain ⟨rest, rfl⟩ := List.head?_eq_some_iff.mp hfeed
      exact ⟨_, rest, .returnFeed rest⟩
    · exact ⟨_, t, .loneReturn t hfeed⟩
  · exact ⟨_, t, .lineFeed t⟩

theorem restOfLine_append_afterLine (t : Text) : restOfLine t ++ afterLine t = t :=
  List.takeWhile_append_dropWhile

/-- A text is one line, or a line with a line end and another text behind it. -/
theorem lines_induction {motive : Text → Prop} (last : ∀ line, LineFree line → motive line)
    (more : ∀ line t ending rest, LineFree line → Token.Reads t ⟨.newline, ending⟩ rest →
      motive rest → motive (line ++ t)) (t : Text) : motive t := by
  induction hn : t.length using Nat.strong_induction_on generalizing t with
  | _ n ih =>
    have hcut := restOfLine_append_afterLine t
    cases hafter : afterLine t with
    | nil =>
      rw [hafter, List.append_nil] at hcut
      exact last t (hcut ▸ line_free_restOfLine t)
    | cons e tail =>
      have he : isLineEnd e = true := by
        have hhead : (afterLine t).head? = some e := by rw [hafter]; rfl
        simpa using head_dropWhile hhead
      obtain ⟨ending, rest, hreads⟩ := reads_line_end he tail
      have hshort : rest.length < n := by
        have hlex := Token.lex_shorter (Token.lex_of_reads hreads)
        have hle := Scan.afterLine_length t
        rw [hafter] at hle
        omega
      rw [← hcut, hafter]
      exact more _ _ ending rest (line_free_restOfLine t) hreads (ih _ hshort rest rfl)

theorem line_end_of_reads {t ending rest : Text} (h : Token.Reads t ⟨.newline, ending⟩ rest) :
    ∀ c ∈ t.head?, isLineEnd c = true := by
  cases h with
  | sign kind c rest hs => simp [TokenKind.sign?] at hs
  | _ => simp [isLineEnd]

section TokenLines

theorem tokenLines_of_line_free {t : Text} (h : LineFree t) : tokenLines t = [t] := by
  have hcut := restOfLine_append (t := []) h (by simp)
  rw [List.append_nil] at hcut
  rw [tokenLines, hcut.1, hcut.2]
  rfl

theorem tokenLines_append {line t ending rest : Text} (h : LineFree line)
    (hreads : Token.Reads t ⟨.newline, ending⟩ rest) :
    tokenLines (line ++ t) = line :: tokenLines rest := by
  have hcut := restOfLine_append h (line_end_of_reads hreads)
  rw [tokenLines, hcut.1, hcut.2]
  split
  · rename_i hlex
    cases hlex.symm.trans (Token.lex_of_reads hreads)
    rfl
  · rename_i hlex
    exact absurd (Token.lex_of_reads hreads) (hlex _ _)

theorem flatten_tokenLines (t : Text) :
    (tokenLines t).flatten = t.filter fun c => !isLineEnd c := by
  have hline : ∀ line, LineFree line → line.filter (fun c => !isLineEnd c) = line := by
    intro line h
    rw [List.filter_eq_self]
    intro c hc
    simp [h c hc]
  induction t using lines_induction with
  | last line h => simp [tokenLines_of_line_free h, hline line h]
  | more line t ending rest h hreads ih =>
    have hending : t.filter (fun c => !isLineEnd c) = rest.filter fun c => !isLineEnd c := by
      cases hreads with
      | sign kind c rest hs => simp [TokenKind.sign?] at hs
      | _ => simp [isLineEnd]
    rw [tokenLines_append h hreads, List.flatten_cons, ih, List.filter_append, hline line h,
      hending]

end TokenLines

section Lines

theorem dropTrailingReturn_append (a : Text) {b : Text} (hne : b ≠ []) :
    dropTrailingReturn (a ++ b) = a ++ dropTrailingReturn b := by
  unfold dropTrailingReturn
  rw [List.getLast?_append_of_ne_nil _ hne, List.dropLast_append_of_ne_nil hne]
  split_ifs <;> rfl

variable {line : Text} (h : LineFree line)

include h

theorem not_mem_append_return : '\n' ∉ line ++ ['\r'] := by
  have hfeed : '\n' ∉ line := h.not_mem (by decide)
  simp [hfeed]

theorem lines_concat_return : lines (line ++ ['\r']) = [line] := by
  rw [lines, split_of_not_mem (not_mem_append_return h), List.flatMap_singleton,
    dropTrailingReturn_concat, split_of_not_mem (h.not_mem (by decide))]

theorem lines_append_return {rest : Text} (hne : rest ≠ []) (hfeed : rest.head? ≠ some '\n') :
    lines (line ++ '\r' :: rest) = line :: lines rest := by
  have hcut : line ++ '\r' :: rest = (line ++ ['\r']) ++ rest := by simp
  obtain ⟨piece, pieces, hsplit, hpiece⟩ : ∃ piece pieces,
      split '\n' rest = piece :: pieces ∧ piece ≠ [] := by
    obtain ⟨c, tail, rfl⟩ := List.exists_cons_of_ne_nil hne
    obtain ⟨piece, pieces, hs⟩ := List.exists_cons_of_ne_nil (split_ne_nil '\n' tail)
    have hc : c ≠ '\n' := by simpa using hfeed
    exact ⟨c :: piece, pieces, by rw [split, if_neg hc, hs], by simp⟩
  rw [hcut, lines, lines, split_append_of_not_mem (not_mem_append_return h), hsplit,
    List.modifyHead_cons, List.flatMap_cons, List.flatMap_cons,
    dropTrailingReturn_append _ hpiece, List.append_assoc, List.singleton_append,
    split_append_sep, split_of_not_mem (h.not_mem (by decide))]
  rfl

end Lines

section Agreement

def emptyBehindReturn (t : Text) : List Text := if t.getLast? = some '\r' then [[]] else []

theorem emptyBehindReturn_append (a : Text) {b : Text} (hne : b ≠ []) :
    emptyBehindReturn (a ++ b) = emptyBehindReturn b := by
  rw [emptyBehindReturn, emptyBehindReturn, List.getLast?_append_of_ne_nil _ hne]

theorem emptyBehindReturn_append_feed (a b : Text) :
    emptyBehindReturn (a ++ '\n' :: b) = emptyBehindReturn b := by
  rw [emptyBehindReturn_append a (by simp)]
  cases b with
  | nil => rfl
  | cons c b => exact emptyBehindReturn_append ['\n'] (by simp)

theorem emptyBehindReturn_of_line_free {line : Text} (h : LineFree line) :
    emptyBehindReturn line = [] := by
  have hlast : line.getLast? ≠ some '\r' := by
    intro hl
    exact h.not_mem (by decide) (List.mem_of_getLast? hl)
  rw [emptyBehindReturn, if_neg hlast]

/-- One more line in front, whichever line end it has. -/
theorem lines_append_line_end {line t ending rest : Text} (h : LineFree line)
    (hreads : Token.Reads t ⟨.newline, ending⟩ rest) :
    lines (line ++ t) ++ emptyBehindReturn (line ++ t) =
      line :: (lines rest ++ emptyBehindReturn rest) := by
  cases hreads with
  | sign kind c rest hs => simp [TokenKind.sign?] at hs
  | lineFeed =>
    rw [lines_append_feed, lines_of_line_free h, emptyBehindReturn_append_feed]
    rfl
  | returnFeed =>
    have hcut : line ++ '\r' :: '\n' :: rest = (line ++ ['\r']) ++ '\n' :: rest := by simp
    rw [hcut, lines_append_feed, lines_concat_return h, emptyBehindReturn_append_feed]
    rfl
  | loneReturn _ hfeed =>
    by_cases hempty : rest = []
    · rw [hempty, lines_concat_return h, emptyBehindReturn_append line (by simp)]
      rfl
    · have hrest : emptyBehindReturn ('\r' :: rest) = emptyBehindReturn rest :=
        emptyBehindReturn_append ['\r'] hempty
      rw [lines_append_return h hempty hfeed, emptyBehindReturn_append line (by simp), hrest]
      rfl

theorem tokenLines_eq_lines (t : Text) : tokenLines t = lines t ++ emptyBehindReturn t := by
  induction t using lines_induction with
  | last line h =>
    rw [tokenLines_of_line_free h, lines_of_line_free h, emptyBehindReturn_of_line_free h]
    rfl
  | more line t ending rest h hreads ih =>
    rw [tokenLines_append h hreads, ih, lines_append_line_end h hreads]

/-- The lines of a text are what its line ends cut it into. Where the text ends in a carriage return
the empty line behind it is missing. No line holds a line end, and nothing else is lost. -/
theorem lines_between_line_end_tokens (t : Text) :
    tokenLines t = lines t ++ (if t.getLast? = some '\r' then [[]] else []) ∧
      (∀ line ∈ lines t, LineFree line) ∧
      (lines t).flatten = t.filter fun c => !isLineEnd c := by
  have hcut := tokenLines_eq_lines t
  have hnothing : (emptyBehindReturn t).flatten = [] := by
    unfold emptyBehindReturn
    split_ifs <;> rfl
  refine ⟨hcut, fun line hline => line_free_of_mem_lines hline, ?_⟩
  rw [← flatten_tokenLines t, hcut, List.flatten_append, hnothing, List.append_nil]

/-- Of two carriage returns in a row the second takes the line feed along. -/
example : tokenLines "a\r\r\nb\n\r".toList = [['a'], [], ['b'], [], []] ∧
    lines "a\r\r\nb\n\r".toList = [['a'], [], ['b'], []] := by
  decide +kernel

end Agreement

end Text

end SqfMinifier
