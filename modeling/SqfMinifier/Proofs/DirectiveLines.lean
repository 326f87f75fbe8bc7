import SqfMinifier.Proofs.LineEndings

/-!
The directive lines of a source and of its output. Layout keeps the directive lines of a text, in
their order and with no others among them, each with its blanks collapsed. Where literals are not
respected, the directive lines that comment removal leaves are spans of the source: each begins at
a `#` that stands first on its line but for closed block comments, and runs to the end of the line.
-/

namespace SqfMinifier

namespace Layout

theorem filter_squeeze (lines : List Text) :
    (squeeze lines).filter startsDirective = lines.filter startsDirective := by
  fun_induction squeeze lines with
  | case1 => rfl
  | case2 => rfl
  | case3 line next rest hempty ih =>
    obtain rfl : line = [] := List.isEmpty_iff.mp hempty
    exact ih
  | case4 line next rest _ ih => simp only [List.filter_cons, ih]

theorem filter_map_collapseLine (lines : List Text) :
    (lines.map collapseLine).filter startsDirective =
      (lines.filter startsDirective).map collapseLine := by
  rw [List.filter_map]
  congr 2
  funext line
  exact startsDirective_collapseLine line

theorem filter_split_joinLines (last : Option Char) {lines : List Text}
    (h : ∀ l ∈ lines, '\n' ∉ l) :
    (Text.split '\n' (joinLines last lines)).filter startsDirective =
      lines.filter startsDirective := by
  induction lines generalizing last with
  | nil => rfl
  | cons line rest ih =>
    obtain ⟨hline, hlines⟩ := List.forall_mem_cons.mp h
    cases hd : startsDirective line with
    | true =>
      rw [split_joinLines_directive hd hline, List.filter_cons_of_neg (by simp [startsDirective]),
        List.filter_cons_of_pos hd, List.filter_cons_of_pos hd, ih _ hlines]
    | false =>
      have hrest := ih (line.getLast?.or last) hlines
      obtain ⟨code, others, hsplit, hcode⟩ :=
        (split_joinLines_alternates (line.getLast?.or last) hlines).head
      rw [hsplit, List.filter_cons_of_neg (by simp [hcode])] at hrest
      rw [split_joinLines_code hd hline, hsplit, List.modifyHead_cons,
        List.filter_cons_of_neg (by rw [startsDirective_joined hd hcode]; simp),
        List.filter_cons_of_neg (by simp [hd]), hrest]

/-- Layout keeps the directive lines of a text, and makes no new ones. -/
theorem filter_split_arrange (t : Text) :
    (Text.split '\n' (arrange t)).filter startsDirective =
      ((Text.lines t).filter startsDirective).map collapseLine := by
  have hfree : ∀ l ∈ Text.lines t, '\n' ∉ l := by
    intro l hl
    exact (Text.line_free_of_mem_lines hl).not_mem rfl
  rw [split_arrange, filter_squeeze, filter_map_collapseLine, isolateDirectives,
    filter_split_joinLines none hfree]

end Layout

/-- Going back over closed block comments one meets a line end, or nothing at all. -/
def Scan.opensLine (pieces : List Piece) : Bool :=
  (pieces.reverse.dropWhile fun p => p.kind == .blockComment && !p.isOpenComment).head?.all
    fun p => p.kind == .lineEnd

/-- A `#` stands here, and the text in front of it ends at the start of a line. -/
def OpensDirective (source : Text) (i : Nat) : Prop :=
  (source.drop i).head? = some '#' ∧ Scan.opensLine (Scan.pieces false (source.take i)) = true

instance (source : Text) (i : Nat) : Decidable (OpensDirective source i) :=
  inferInstanceAs (Decidable (_ ∧ _))

def directiveOffsets (source : Text) : List Nat :=
  (List.range source.length).filter fun i => OpensDirective source i

namespace CharacterScan

theorem opensLine_concat (pieces : List Piece) (p : Piece) :
    Scan.opensLine (pieces ++ [p]) =
      if p.kind == .blockComment && !p.isOpenComment then Scan.opensLine pieces
      else p.kind == .lineEnd := by
  unfold Scan.opensLine
  rw [List.reverse_append, List.reverse_singleton, List.singleton_append, List.dropWhile_cons]
  split <;> rfl

/-- Pieces end at the start of a line just when they leave the scan in fresh code. -/
theorem opensLine_eq_isFresh (pieces : List Piece) :
    Scan.opensLine pieces = (stand (.code true) pieces).isFresh := by
  induction pieces using List.reverseRecOn with
  | nil => rfl
  | append_singleton pieces p ih =>
    have hstand : stand (.code true) (pieces ++ [p]) =
        p.leaves (stand (.code true) pieces).isFresh := List.foldl_concat ..
    rw [hstand, ← ih, opensLine_concat]
    obtain ⟨kind, text⟩ := p
    cases kind with
    | lineComment => rfl
    | lineEnd => rfl
    | directive => rfl
    | blockComment =>
      simp only [Piece.leaves]
      cases Piece.isOpenComment ⟨.blockComment, text⟩ with
      | true => rfl
      | false => exact (isFresh_code _).symm
    | literal =>
      change false = _
      simp only [Piece.leaves]
      split_ifs
      · cases (text.head?.bind Quote.ofChar?) <;> rfl
      · rfl
    | plain =>
      change false = _
      simp only [Piece.leaves]
      split_ifs <;> rfl

/-- The lines of a text that start with `#`. The first line counts only if it begins here. -/
def headings (begins : Bool) (t : Text) : List Text :=
  (Text.filledLines (if begins then t else Text.afterLine t)).filter Layout.startsDirective

theorem headings_cons (begins : Bool) (c : Char) (t : Text) :
    headings begins (c :: t) =
      if Text.isLineEnd c then headings true t
      else (if begins ∧ c = '#' then [c :: Text.restOfLine t] else []) ++ headings false t := by
  by_cases hc : Text.isLineEnd c = true
  · cases begins <;> simp [headings, Text.afterLine, hc, Text.filledLines_cons_line_end hc]
  · rw [Bool.not_eq_true] at hc
    cases begins with
    | false => simp [headings, Text.afterLine, hc]
    | true =>
      have hfirst : Layout.startsDirective (c :: Text.restOfLine t) = (c == '#') := by
        simp [Layout.startsDirective]
      simp only [headings, if_true, Text.filledLines_cons hc, List.filter_cons, hfirst, hc]
      by_cases hhash : c = '#' <;> simp [hhash]

@[simp] theorem headings_nil (begins : Bool) : headings begins [] = [] := by
  cases begins <;> rfl

def Cursor.beginsLine : Cursor → Bool
  | .copying (.code fresh) => fresh
  | .slash fresh => fresh
  | .blockComment fresh _ => fresh
  | _ => false

def claimed : Cursor → Text → List Text
  | _, [] => []
  | s, c :: rest =>
    (if s.isFresh ∧ c = '#' then [c :: Text.restOfLine rest] else []) ++
      claimed (s.next false c) rest

theorem headings_code {fresh : Bool} {c : Char} (hslash : c ≠ '/')
    (hhash : c = '#' → fresh = false) (u : Text) :
    headings fresh (c :: u) = headings ((Cursor.code fresh).next false c).beginsLine u := by
  rw [headings_cons]
  cases hend : Text.isLineEnd c with
  | true =>
    rw [next_line_end _ hend]
    rfl
  | false =>
    have hmode := after_code_plain hend hhash (show Quote.opened? false c = none from rfl)
    have hfirst : ¬ (fresh = true ∧ c = '#') := by
      rintro ⟨rfl, hc⟩
      simpa using hhash hc
    simp [Cursor.next, Cursor.code, Cursor.beginsLine, hslash, hmode, hfirst]

theorem headings_emit {s : Cursor} {c : Char} (hs : ∀ q, s ≠ .copying (.literal q))
    (hdirective : ¬ (s.isFresh = true ∧ c = '#')) (hline : ∀ fresh, s = .slash fresh → c ≠ '/')
    (u : Text) :
    headings s.beginsLine (s.emit c ++ u) = headings (s.next false c).beginsLine u := by
  cases s with
  | copying mode =>
    cases mode with
    | literal q => exact absurd rfl (hs q)
    | directive =>
      by_cases hend : Text.isLineEnd c = true <;>
        simp [Cursor.emit, Cursor.next, Mode.isCode, Mode.after, Cursor.beginsLine, headings_cons,
          hend]
    | code fresh =>
      by_cases hslash : c = '/'
      · simp [Cursor.emit, Cursor.next, Mode.isCode, Cursor.beginsLine, hslash]
      · have hemit : (Cursor.copying (.code fresh)).emit c = [c] := by
          simp [Cursor.emit, hslash]
        have hhash : c = '#' → fresh = false := by
          intro hc
          cases fresh with
          | false => rfl
          | true => exact absurd ⟨rfl, hc⟩ hdirective
        rw [hemit]
        exact headings_code hslash hhash u
  | slash fresh =>
    have hslash := hline fresh rfl
    by_cases hstar : c = '*'
    · simp [Cursor.emit, Cursor.next, Cursor.beginsLine, completesMarker, hstar]
    · have hemit : (Cursor.slash fresh).emit c = ['/', c] := by
        simp [Cursor.emit, completesMarker, hslash, hstar]
      have hnext : (Cursor.slash fresh).next false c = (Cursor.code false).next false c := by
        simp [Cursor.next, Cursor.code, hslash, hstar]
      have hfirst : headings fresh ('/' :: c :: u) = headings false (c :: u) := by
        simp [headings_cons _ '/', Text.isLineEnd]
      rw [hemit, hnext, ← headings_code hslash (fun _ => rfl)]
      exact hfirst
  | lineComment =>
    by_cases hend : Text.isLineEnd c = true <;>
      simp [Cursor.emit, Cursor.next, Cursor.code, Cursor.beginsLine, headings_cons, hend]
  | blockComment fresh star =>
    by_cases hclose : star = true ∧ c = '/' <;>
      simp [Cursor.emit, Cursor.next, Cursor.code, Cursor.beginsLine, hclose]

theorem next_ne_literal {s : Cursor} (hs : ∀ q, s ≠ .copying (.literal q)) (c : Char) (q : Quote) :
    s.next false c ≠ .copying (.literal q) := by
  cases s with
  | copying mode =>
    have hmode : ∀ q, mode ≠ .literal q := by
      rintro q rfl
      exact hs q rfl
    have hafter := Mode.after_ne_literal hmode c q
    cases mode with
    | code fresh =>
      simp only [Cursor.next]
      split_ifs <;> simp [hafter]
    | directive => simpa [Cursor.next] using hafter
    | literal q => exact absurd rfl (hs q)
  | slash fresh =>
    have hafter : Mode.after false (.code false) c ≠ .literal q :=
      Mode.after_ne_literal (by simp) c q
    simp only [Cursor.next]
    split_ifs <;> simp [hafter]
  | lineComment =>
    simp only [Cursor.next, Cursor.code]
    split_ifs <;> simp
  | blockComment fresh star =>
    simp only [Cursor.next, Cursor.code]
    split_ifs <;> simp

theorem restOfLine_copy_directive (t : Text) :
    Text.restOfLine (copy false (.copying .directive) t) = Text.restOfLine t := by
  induction t with
  | nil => rfl
  | cons c t ih =>
    rw [copy_directive_cons]
    by_cases hend : Text.isLineEnd c = true
    · simp [Text.restOfLine, hend]
    · simpa [Text.restOfLine, Mode.after, hend] using ih

/-- Behind a line comment the line ends, so it does not count whether it has begun. -/
theorem headings_lineComment (begins : Bool) (t : Text) :
    headings begins (copy false .lineComment t) = headings false (copy false .lineComment t) := by
  induction t with
  | nil => simp
  | cons c t ih =>
    by_cases hend : Text.isLineEnd c = true
    · simp [copy, hend, headings_cons]
    · simpa [copy, hend] using ih

/-- The lines that begin with `#` once the comments are gone are those that the scan claims. -/
theorem headings_resume {s : Cursor} (hs : ∀ q, s ≠ .copying (.literal q)) (t : Text) :
    headings s.beginsLine (s.resume false t) = claimed s t := by
  induction t generalizing s with
  | nil =>
    rw [resume_nil]
    cases s <;> simp [Cursor.pending, claimed, headings_cons, Text.isLineEnd]
  | cons c t ih =>
    rw [resume_cons, claimed, ← ih (next_ne_literal hs c)]
    by_cases hdirective : s.isFresh = true ∧ c = '#'
    · obtain ⟨hfresh, rfl⟩ := hdirective
      obtain rfl : s = .code true := by simpa [Cursor.isFresh] using hfresh
      have hopen : (Cursor.code true).next false '#' = .copying .directive := rfl
      have hemit : (Cursor.code true).emit '#' = ['#'] := rfl
      have hhash : Text.isLineEnd '#' = false := by decide
      rw [hopen, hemit, List.singleton_append, headings_cons, hhash, Cursor.resume,
        restOfLine_copy_directive]
      simp [Cursor.code, Cursor.beginsLine, Cursor.isFresh]
    by_cases hline : ∃ fresh, s = .slash fresh ∧ c = '/'
    · obtain ⟨fresh, rfl, rfl⟩ := hline
      exact headings_lineComment fresh t
    rw [headings_emit hs hdirective (fun fresh h hc => hline ⟨fresh, h, hc⟩), if_neg hdirective]
    rfl

theorem claimed_eq (s : Cursor) (t : Text) :
    claimed s t = ((List.range t.length).filter fun i =>
      decide ((t.drop i).head? = some '#' ∧ (track false s (t.take i)).isFresh = true)).map
        fun i => Text.restOfLine (t.drop i) := by
  induction t generalizing s with
  | nil => rfl
  | cons c t ih =>
    have hhash : Text.restOfLine ('#' :: t) = '#' :: Text.restOfLine t := rfl
    rw [claimed, ih, List.length_cons, List.range_succ_eq_map, List.filter_cons, List.filter_map]
    by_cases hopen : s.isFresh = true ∧ c = '#'
    · obtain ⟨hfresh, rfl⟩ := hopen
      simp [hfresh, hhash, Function.comp_def]
    · have hskip : ¬ (c = '#' ∧ s.isFresh = true) := fun h => hopen ⟨h.2, h.1⟩
      simp [hopen, hskip, Function.comp_def]

end CharacterScan

open CharacterScan

/-- Where literals are not respected, the directive lines that comment removal leaves are the
spans of the source that open a directive. -/
theorem filter_lines_removeComments (source : Text) :
    (Text.lines (removeComments false source)).filter Layout.startsDirective =
      (directiveOffsets source).map fun i => Text.restOfLine (source.drop i) := by
  have hfilled : ∀ lines : List Text,
      lines.filter Layout.startsDirective =
        (lines.filter fun l => !l.isEmpty).filter Layout.startsDirective := by
    intro lines
    rw [List.filter_filter]
    congr 1
    funext line
    cases line <;> simp [Layout.startsDirective]
  have hoffsets : ∀ i, OpensDirective source i ↔ (source.drop i).head? = some '#' ∧
      (track false (.code true) (source.take i)).isFresh = true := by
    intro i
    rw [OpensDirective, opensLine_eq_isFresh, track_eq_stand]
    rfl
  have hstart : ∀ q, Cursor.code true ≠ .copying (.literal q) := by simp [Cursor.code]
  have hclaimed := headings_resume hstart source
  rw [claimed_eq, ← removeComments_eq_resume] at hclaimed
  rw [hfilled, directiveOffsets]
  simp only [hoffsets]
  exact hclaimed

/-- Directives are neither lost nor made, and keep their order: those of the output are those that
comment removal leaves, with their blanks collapsed, and these are spans of the source. -/
theorem directive_lines_kept (source : Text) :
    (∀ aware, (Text.split '\n' (minify aware source)).filter Layout.startsDirective =
      ((Text.lines (removeComments aware source)).filter Layout.startsDirective).map
        Layout.collapseLine) ∧
    (Text.lines (removeComments false source)).filter Layout.startsDirective =
      (directiveOffsets source).map fun i => Text.restOfLine (source.drop i) :=
  ⟨fun aware => Layout.filter_split_arrange (removeComments aware source),
    filter_lines_removeComments source⟩

/-- A line end inside a comment starts no line, and neither does a blank. -/
example : directiveOffsets "/*\n*/#a\nx/*\n*/#b\r #c\r/**//**/#//d".toList = [5, 29] := by
  decide +kernel

end SqfMinifier
