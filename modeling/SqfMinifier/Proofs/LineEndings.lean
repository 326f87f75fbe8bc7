import SqfMinifier.Proofs.LineLayout
import SqfMinifier.Proofs.ScanContext

/-!
Line endings do not matter. Layout looks at the filled lines of a text only, and these do not tell
one line end from another, nor one from several in a row. The scan for its part moves alike on all
line ends, so a source and the same source with line feeds for all its line ends come out alike.
In between they may differ: a comment removed between a carriage return and a line feed leaves one
line end where there were two.
-/

namespace SqfMinifier

namespace Text

/-- Line feeds in place of the other line ends, a carriage return with its line feed as one. -/
def unifyLineEnds : Text → Text
  | [] => []
  | '\r' :: '\n' :: rest => '\n' :: unifyLineEnds rest
  | '\r' :: rest => '\n' :: unifyLineEnds rest
  | c :: rest => c :: unifyLineEnds rest

def filledLines (t : Text) : List Text := (lines t).filter fun l => !l.isEmpty

theorem split_return {piece : Text} (h : '\n' ∉ piece) :
    split '\r' piece = piece.splitOnP isLineEnd := by
  rw [split_eq_splitOn]
  induction piece with
  | nil => rfl
  | cons c piece ih =>
    rw [List.mem_cons, not_or] at h
    have hc : isLineEnd c = (c == '\r') := by simp [isLineEnd, Ne.symm h.1]
    rw [List.splitOn_cons_eq_if_modifyHead, List.splitOnP_cons_eq_if_modifyHead, ih h.2, hc]

/-- Cutting at every single line end makes more empty lines, and no other ones. -/
theorem filledLines_eq (t : Text) :
    filledLines t = (t.splitOnP isLineEnd).filter fun l => !l.isEmpty := by
  have hpiece : ∀ piece ∈ split '\n' t,
      (split '\r' (dropTrailingReturn piece)).filter (fun l => !l.isEmpty) =
        (piece.splitOnP isLineEnd).filter fun l => !l.isEmpty := by
    intro piece hp
    have hfeed := sep_not_mem_of_mem_split hp
    by_cases hl : piece.getLast? = some '\r'
    · obtain ⟨front, rfl⟩ := List.getLast?_eq_some_iff.mp hl
      have hfront : '\n' ∉ front := fun hm => hfeed (by simp [hm])
      rw [dropTrailingReturn_concat, split_return hfront,
        List.splitOnP_append_cons front [] (by decide), List.filter_append]
      simp
    · rw [dropTrailingReturn, if_neg hl, split_return hfeed]
  have hjoin : ∀ pieces : List Text,
      pieces.flatMap (fun piece => (piece.splitOnP isLineEnd).filter fun l => !l.isEmpty) =
        ((joinFeeds pieces).splitOnP isLineEnd).filter fun l => !l.isEmpty := by
    intro pieces
    induction pieces with
    | nil => rfl
    | cons piece pieces ih =>
      cases pieces with
      | nil => simp [joinFeeds]
      | cons next pieces =>
        rw [List.flatMap_cons, ih, joinFeeds, joinFeeds, List.intercalate_cons_cons,
          List.append_assoc, List.singleton_append, List.splitOnP_append_cons _ _ (by decide),
          List.filter_append]
  rw [filledLines, lines, List.filter_flatMap, List.flatMap_congr hpiece, hjoin, joinFeeds_split]

theorem filledLines_append_line_end {e : Char} (he : isLineEnd e = true) (a b : Text) :
    filledLines (a ++ e :: b) = filledLines a ++ filledLines b := by
  simp only [filledLines_eq, List.splitOnP_append_cons a b he, List.filter_append]

@[simp] theorem filledLines_nil : filledLines [] = [] := rfl

theorem filledLines_cons_line_end {e : Char} (he : isLineEnd e = true) (t : Text) :
    filledLines (e :: t) = filledLines t := by
  simpa using filledLines_append_line_end he [] t

theorem filledLines_of_line_free {t : Text} (hne : t ≠ []) (h : LineFree t) :
    filledLines t = [t] := by
  rw [filledLines_eq, List.splitOnP_eq_singleton h]
  simp [hne]

theorem filledLines_cons {c : Char} (hc : isLineEnd c = false) (t : Text) :
    filledLines (c :: t) = (c :: restOfLine t) :: filledLines (afterLine t) := by
  have hline : filledLines (c :: restOfLine t) = [c :: restOfLine t] :=
    filledLines_of_line_free (by simp) (line_free_cons.mpr ⟨hc, line_free_restOfLine t⟩)
  have hcut : c :: t = (c :: restOfLine t) ++ afterLine t := by
    simp [restOfLine, afterLine]
  rw [hcut]
  cases hafter : afterLine t with
  | nil => simp [hline]
  | cons e rest =>
    have he : isLineEnd e = true := by
      have hhead : (afterLine t).head? = some e := by rw [hafter]; rfl
      simpa using head_dropWhile hhead
    rw [filledLines_append_line_end he, hline, filledLines_cons_line_end he]
    rfl

end Text

namespace Layout

theorem joinLines_filled (last : Option Char) (lines : List Text) :
    joinLines last (lines.filter fun l => !l.isEmpty) = joinLines last lines := by
  induction lines generalizing last with
  | nil => rfl
  | cons line rest ih =>
    cases line with
    | nil =>
      have hskip : joinLines last ([] :: rest) = joinLines last rest := by
        simp [joinLines, startsDirective, formsMarker]
      rw [hskip, List.filter_cons_of_neg (by simp), ih]
    | cons c line =>
      rw [List.filter_cons_of_pos (by simp), joinLines, joinLines, ih, ih]

theorem arrange_congr {t u : Text} (h : Text.filledLines t = Text.filledLines u) :
    arrange t = arrange u := by
  have hisolate : isolateDirectives t = isolateDirectives u := by
    rw [isolateDirectives, isolateDirectives, ← joinLines_filled,
      ← joinLines_filled none (Text.lines u)]
    exact congrArg (joinLines none) h
  rw [arrange_eq, arrange_eq, hisolate]

end Layout

open CharacterScan

section LineEnds

variable {aware : Bool}

theorem resume_line_end_in_block {s : Cursor} {c : Char} (hs : s.inBlock = true)
    (hc : Text.isLineEnd c = true) (t : Text) :
    s.resume aware (c :: t) = s.newline.resume aware t := by
  have hpending : s.pending = [] := by cases s <;> first | rfl | cases hs
  rw [resume_cons, next_line_end s hc, emit_line_end s hc, hs, hpending]
  rfl

theorem filledLines_resume_line_end {s : Cursor} {c : Char} (hs : s.inBlock = false)
    (hc : Text.isLineEnd c = true) (w t : Text) :
    Text.filledLines (w ++ s.resume aware (c :: t)) =
      Text.filledLines (w ++ s.pending) ++ Text.filledLines (s.newline.resume aware t) := by
  have hcut : w ++ s.resume aware (c :: t) = (w ++ s.pending) ++ c :: s.newline.resume aware t := by
    rw [resume_cons, next_line_end s hc, emit_line_end s hc, hs]
    simp
  rw [hcut, Text.filledLines_append_line_end hc]

/-- Whatever stands in front, the scan leaves the same filled lines of a text and of the text with
line feeds for its line ends. -/
theorem filledLines_resume (s : Cursor) (w x : Text) :
    Text.filledLines (w ++ s.resume aware x) =
      Text.filledLines (w ++ s.resume aware (Text.unifyLineEnds x)) := by
  have hreturn : Text.isLineEnd '\r' = true := by decide
  have hfeed : Text.isLineEnd '\n' = true := by decide
  fun_induction Text.unifyLineEnds x generalizing s w with
  | case1 => rfl
  | case2 rest ih =>
    cases hs : s.inBlock with
    | true =>
      rw [resume_line_end_in_block hs hreturn, resume_line_end_in_block hs hfeed,
        resume_line_end_in_block (by rwa [s.inBlock_newline]) hfeed, s.newline_newline, ih]
    | false =>
      have hmiddle : Text.filledLines ([] ++ s.newline.resume aware ('\n' :: rest)) = _ :=
        filledLines_resume_line_end (by rwa [s.inBlock_newline]) hfeed [] rest
      simp only [s.newline_newline, s.pending_newline, List.nil_append,
        Text.filledLines_nil] at hmiddle
      rw [filledLines_resume_line_end hs hreturn, filledLines_resume_line_end hs hfeed, hmiddle]
      simpa using ih s.newline []
  | case3 rest _ ih =>
    cases hs : s.inBlock with
    | true => rw [resume_line_end_in_block hs hreturn, resume_line_end_in_block hs hfeed, ih]
    | false =>
      rw [filledLines_resume_line_end hs hreturn, filledLines_resume_line_end hs hfeed]
      simpa using ih s.newline []
  | case4 c rest _ _ ih =>
    rw [resume_cons, resume_cons, ← List.append_assoc, ← List.append_assoc, ih]

end LineEnds

/-- A source gives the same output whichever line ends it uses. -/
theorem minify_unifyLineEnds (aware : Bool) (source : Text) :
    minify aware source = minify aware (Text.unifyLineEnds source) := by
  have hlines : Text.filledLines ([] ++ (Cursor.code true).resume aware source) = _ :=
    filledLines_resume (.code true) [] source
  rw [List.nil_append, List.nil_append, ← removeComments_eq_resume,
    ← removeComments_eq_resume] at hlines
  exact Layout.arrange_congr hlines

end SqfMinifier
