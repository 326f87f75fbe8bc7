import SqfMinifier.Proofs.LineLayout
import SqfMinifier.Proofs.ScanContext

/-!
A directive line parts a source for good. What stands before it and what stands behind it are
minified each on its own, and the directive is set between the two with its blanks collapsed.
-/

namespace SqfMinifier

namespace Text

theorem lines_append_feed (a b : Text) : lines (a ++ '\n' :: b) = lines a ++ lines b := by
  rw [lines, split_append_sep, List.flatMap_append]
  rfl

theorem lines_of_line_free {t : Text} (h : LineFree t) : lines t = [t] := by
  rw [lines_eq_split (h.not_mem rfl), split_of_not_mem (h.not_mem rfl)]

end Text

namespace Layout

/-- A text with its last line ended, unless it is empty or ends in a line feed already. -/
def endLine (t : Text) : Text := if t = [] ∨ t.getLast? = some '\n' then t else t ++ ['\n']

theorem endLine_of_not_mem {line : Text} (h : '\n' ∉ line) :
    endLine line = line ++ if line.isEmpty then [] else ['\n'] := by
  have hlast : line.getLast? ≠ some '\n' := by
    intro hl
    exact h (List.mem_of_getLast? hl)
  by_cases hempty : line = []
  · simp [endLine, hempty]
  · simp [endLine, hempty, hlast]

theorem endLine_endLine (t : Text) : endLine (endLine t) = endLine t := by
  unfold endLine
  split_ifs <;> simp_all

theorem endLine_append (t u : Text) : endLine (endLine t ++ u) = endLine t ++ endLine u := by
  cases u with
  | nil =>
    have hnil : endLine [] = [] := rfl
    rw [List.append_nil, endLine_endLine, hnil, List.append_nil]
  | cons c u =>
    have hlast : (endLine t ++ c :: u).getLast? = (c :: u).getLast? :=
      List.getLast?_append_of_ne_nil _ (by simp)
    simp only [endLine.eq_1 (endLine t ++ c :: u), endLine.eq_1 (c :: u), hlast]
    split_ifs <;> simp_all

theorem joinFeeds_squeeze_append {before after : List Text} (hne : after ≠ [])
    (hfree : ∀ l ∈ before, '\n' ∉ l) :
    Text.joinFeeds (squeeze (before ++ after)) =
      before.flatMap endLine ++ Text.joinFeeds (squeeze after) := by
  induction before with
  | nil => rfl
  | cons line before ih =>
    obtain ⟨hline, hrest⟩ := List.forall_mem_cons.mp hfree
    rw [List.cons_append, joinFeeds_squeeze_cons (by simp [hne]), ih hrest, List.flatMap_cons,
      endLine_of_not_mem hline, List.append_assoc _ _ (Text.joinFeeds _)]

theorem endLine_joinFeeds_squeeze {lines : List Text} (hne : lines ≠ [])
    (hfree : ∀ l ∈ lines, '\n' ∉ l) :
    endLine (Text.joinFeeds (squeeze lines)) = lines.flatMap endLine := by
  induction lines with
  | nil => exact absurd rfl hne
  | cons line lines ih =>
    obtain ⟨hline, hrest⟩ := List.forall_mem_cons.mp hfree
    cases lines with
    | nil => simp [squeeze, Text.joinFeeds]
    | cons next lines =>
      rw [List.flatMap_cons, joinFeeds_squeeze_cons (by simp), ← endLine_of_not_mem hline,
        endLine_append, ih (by simp) hrest]

/-- Only a slash at the end of the text so far has an effect on the lines behind it. -/
theorem joinLines_congr {last : Option Char} (h : last ≠ some '/') (lines : List Text) :
    joinLines last lines = joinLines none lines := by
  induction lines generalizing last with
  | nil => rfl
  | cons line rest ih =>
    rw [joinLines, joinLines, formsMarker_eq_false h, formsMarker_eq_false (by simp)]
    cases line with
    | nil => simp [ih h]
    | cons c line => simp [List.getLast?_cons]

theorem joinLines_append_directive {directive : Text} (hd : startsDirective directive = true)
    (last : Option Char) (before after : List Text) :
    joinLines last (before ++ directive :: after) =
      joinLines last before ++ '\n' :: (directive ++ '\n' :: joinLines none after) := by
  induction before generalizing last with
  | nil => simp [joinLines, hd, joinLines_congr (show some '\n' ≠ some '/' by decide)]
  | cons line before ih =>
    rw [List.cons_append, joinLines, joinLines, ih, ih]
    split_ifs <;> simp

theorem isolateDirectives_append_directive {directive : Text}
    (hd : startsDirective directive = true) (hfree : Text.LineFree directive) (u v : Text) :
    isolateDirectives (u ++ '\n' :: (directive ++ '\n' :: v)) =
      isolateDirectives u ++ '\n' :: (directive ++ '\n' :: isolateDirectives v) := by
  rw [isolateDirectives, Text.lines_append_feed, Text.lines_append_feed,
    Text.lines_of_line_free hfree, List.singleton_append, joinLines_append_directive hd]
  rfl

theorem arrange_append_directive {directive : Text} (hd : startsDirective directive = true)
    (hfree : Text.LineFree directive) (u v : Text) :
    arrange (u ++ '\n' :: (directive ++ '\n' :: v)) =
      endLine (arrange u) ++ (collapseLine directive ++ '\n' :: arrange v) := by
  have hfilled : collapseLine directive ≠ [] :=
    ne_nil_of_startsDirective (by rw [startsDirective_collapseLine, hd])
  have hbefore : ∀ l ∈ (Text.split '\n' (isolateDirectives u)).map collapseLine, '\n' ∉ l := by
    intro l hl
    obtain ⟨piece, hpiece, rfl⟩ := List.mem_map.mp hl
    exact not_mem_collapseLine (by decide) (Text.sep_not_mem_of_mem_split hpiece)
  have hsplit : Text.split '\n' (isolateDirectives (u ++ '\n' :: (directive ++ '\n' :: v))) =
      Text.split '\n' (isolateDirectives u) ++
        directive :: Text.split '\n' (isolateDirectives v) := by
    rw [isolateDirectives_append_directive hd hfree, Text.split_append_sep, Text.split_append_sep,
      Text.split_of_not_mem (hfree.not_mem rfl)]
    rfl
  have hne : ∀ t, (Text.split '\n' t).map collapseLine ≠ [] := by
    intro t
    simpa using Text.split_ne_nil '\n' t
  rw [arrange_eq, hsplit, List.map_append, joinFeeds_squeeze_append (by simp) hbefore,
    ← endLine_joinFeeds_squeeze (hne _) hbefore, ← arrange_eq, List.map_cons,
    joinFeeds_squeeze_cons (hne _), ← arrange_eq]
  simp [hfilled]

end Layout

open CharacterScan

/-- A directive line is copied as it is, whatever stands in it. -/
theorem removeComments_directive_line (aware : Bool) {d : Text}
    (hd : Layout.startsDirective d = true) (hfree : Text.LineFree d) (b : Text) :
    removeComments aware (d ++ '\n' :: b) = d ++ '\n' :: removeComments aware b := by
  obtain ⟨line, rfl⟩ := List.head?_eq_some_iff.mp (by simpa [Layout.startsDirective] using hd)
  have hcut : Text.restOfLine (line ++ '\n' :: b) = line ∧
      Text.afterLine (line ++ '\n' :: b) = '\n' :: b := by
    apply Text.restOfLine_append (Text.line_free_cons.mp hfree).2
    intro c hc
    cases hc
    rfl
  have hopen : ∀ t, (Cursor.code true).resume aware ('#' :: t) =
      '#' :: copy aware (.copying .directive) t := by
    intro t
    rw [resume_cons]
    rfl
  rw [removeComments_eq_resume, removeComments_eq_resume, List.cons_append, hopen, copy_directive,
    hcut.1, hcut.2, copy_code_line_end (by decide)]
  rfl

/-- Minifying goes its own way on either side of a directive line, as long as nothing in front is
left open. -/
theorem minify_append_directive (aware : Bool) (a d b : Text)
    (ha : ∀ p ∈ (Scan.pieces aware a).getLast?, p.isOpen = false)
    (hd : Layout.startsDirective d = true) (hfree : Text.LineFree d) :
    minify aware (a ++ ['\n'] ++ d ++ ['\n'] ++ b) =
      Layout.endLine (minify aware a) ++ Layout.collapseLine d ++ ['\n'] ++ minify aware b := by
  have hlayout : ∀ t, minify aware t = Layout.arrange (removeComments aware t) := fun _ => rfl
  have hsource : a ++ ['\n'] ++ d ++ ['\n'] ++ b = a ++ '\n' :: (d ++ '\n' :: b) := by simp
  have hscan : removeComments aware (a ++ '\n' :: (d ++ '\n' :: b)) =
      removeComments aware a ++ '\n' :: (d ++ '\n' :: removeComments aware b) := by
    rw [removeComments_append_line_end ha (by decide), removeComments_directive_line aware hd hfree]
  rw [hlayout, hlayout, hlayout, hsource, hscan, Layout.arrange_append_directive hd hfree]
  simp

/-- The text in front ends in a slash behind a literal, the directive holds a quote and a marker,
and the text behind begins with a line end and a slash. -/
theorem minify_append_directive_slashes :
    (∀ p ∈ (Scan.pieces true "x = '//' /".toList).getLast?, p.isOpen = false) ∧
      Layout.startsDirective "#a \t\"//b  ".toList = true ∧ Text.LineFree "#a \t\"//b  ".toList ∧
      minify true ("x = '//' /".toList ++ ['\n'] ++ "#a \t\"//b  ".toList ++ ['\n'] ++
          "\r/ y".toList) =
        Layout.endLine (minify true "x = '//' /".toList) ++
          Layout.collapseLine "#a \t\"//b  ".toList ++ ['\n'] ++ minify true "\r/ y".toList := by
  have hclosed : ∀ p ∈ (Scan.pieces true "x = '//' /".toList).getLast?, p.isOpen = false := by
    decide +kernel
  have hstarts : Layout.startsDirective "#a \t\"//b  ".toList = true := by decide
  have hfree : Text.LineFree "#a \t\"//b  ".toList := by decide
  exact ⟨hclosed, hstarts, hfree, minify_append_directive true _ _ _ hclosed hstarts hfree⟩

end SqfMinifier
