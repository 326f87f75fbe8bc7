import SqfMinifier.Proofs.DirectiveLines

/-!
Which directives keep their spacing. Collapsing does not look at blanks at the end of a line, and
the rest of the line it leaves alone just when that is singly spaced: it has no tab and no two
spaces in a row. So a directive stands in the output as it was written, but for the blanks at its
end, if it is singly spaced, and otherwise it does not.
-/

namespace SqfMinifier

def Text.dropTrailingBlanks (line : Text) : Text := line.rdropWhile Text.isBlank

namespace Layout

/-- Blanks of a line stand one by one, and are spaces. -/
structure SinglySpaced (line : Text) : Prop where
  noTab : '\t' ∉ line
  noGap : ¬ Text.Adjoins ' ' ' ' line

instance (line : Text) : Decidable (SinglySpaced line) :=
  decidable_of_iff ('\t' ∉ line ∧ ¬ Text.Adjoins ' ' ' ' line)
    ⟨fun h => ⟨h.1, h.2⟩, fun h => ⟨h.noTab, h.noGap⟩⟩

section Trailing

variable {blanks : Text}

theorem collapseFrom_blanks (hblanks : ∀ c ∈ blanks, Text.isBlank c = true)
    (last : Option Char) : collapseFrom last blanks = [] := by
  cases blanks with
  | nil => rw [collapseFrom]
  | cons c rest =>
    rw [List.forall_mem_cons] at hblanks
    have hafter : rest.dropWhile Text.isBlank = [] := List.dropWhile_eq_nil_iff.mpr hblanks.2
    rw [collapseFrom]
    simp [hblanks.1, hafter]

/-- Whether a gap keeps its space is seen from the first character behind it. -/
theorem keepsSpace_append (last : Option Char) (run : Text) {after : Text} (hafter : after ≠ [])
    (rest : Text) : keepsSpace last run (after ++ rest) = keepsSpace last run after := by
  obtain ⟨c, tail, rfl⟩ := List.exists_cons_of_ne_nil hafter
  rfl

/-- A gap is the same gap when more is set behind the line. -/
theorem collapseFrom_gap_append {c : Char} (hc : Text.isBlank c = true) (last : Option Char)
    {rest after : Text} (h : rest.dropWhile Text.isBlank = after) (hafter : after ≠ [])
    (more : Text) :
    collapseFrom last (c :: rest ++ more) =
      if keepsSpace last (c :: rest.takeWhile Text.isBlank) after then
        ' ' :: collapseFrom (some ' ') (after ++ more)
      else collapseFrom last (after ++ more) := by
  have hdrop : (rest ++ more).dropWhile Text.isBlank = after ++ more := by
    rw [List.dropWhile_append, h, if_neg (by simpa using hafter)]
  have htake : (rest ++ more).takeWhile Text.isBlank = rest.takeWhile Text.isBlank := by
    have hshort : (rest.takeWhile Text.isBlank).length ≠ rest.length := by
      intro hall
      have hblank := List.takeWhile_eq_self_iff.mp
        ((List.takeWhile_prefix Text.isBlank).eq_of_length hall)
      rw [List.dropWhile_eq_nil_iff.mpr hblank] at h
      exact hafter h.symm
    rw [List.takeWhile_append, if_neg hshort]
  rw [List.cons_append, collapseFrom]
  simp only [hc, if_true, hdrop, htake, keepsSpace_append _ _ hafter]
  rw [if_neg (by simp [hafter])]

theorem collapseFrom_append_blanks (hblanks : ∀ c ∈ blanks, Text.isBlank c = true)
    (last : Option Char) (line : Text) :
    collapseFrom last (line ++ blanks) = collapseFrom last line := by
  fun_induction collapseFrom last line with
  | case1 last => exact collapseFrom_blanks hblanks last
  | case2 last c rest hc after hafter =>
    have hrest : ∀ d ∈ rest, Text.isBlank d = true :=
      List.dropWhile_eq_nil_iff.mp (List.isEmpty_iff.mp hafter)
    apply collapseFrom_blanks
    simp only [List.forall_mem_append, List.forall_mem_cons]
    exact ⟨⟨hc, hrest⟩, hblanks⟩
  | case3 last c rest hc after hafter hkeeps ih =>
    rw [collapseFrom_gap_append hc last rfl (mt List.isEmpty_iff.mpr hafter), if_pos hkeeps, ih]
  | case4 last c rest hc after hafter hkeeps ih =>
    rw [collapseFrom_gap_append hc last rfl (mt List.isEmpty_iff.mpr hafter), if_neg hkeeps, ih]
  | case5 last c rest hc ih =>
    rw [Bool.not_eq_true] at hc
    rw [List.cons_append, collapseFrom_cons hc, ih]

end Trailing

theorem collapseLine_dropTrailingBlanks (line : Text) :
    collapseLine (Text.dropTrailingBlanks line) = collapseLine line := by
  have hblanks : ∀ c ∈ line.rtakeWhile Text.isBlank, Text.isBlank c = true := by
    intro c hc
    exact List.mem_rtakeWhile_imp hc
  calc collapseLine (Text.dropTrailingBlanks line)
      = collapseLine (Text.dropTrailingBlanks line ++ line.rtakeWhile Text.isBlank) :=
        (collapseFrom_append_blanks hblanks none _).symm
    _ = collapseLine line := by
        rw [Text.dropTrailingBlanks, List.rdropWhile_append_rtakeWhile]

theorem collapseLine_eq_dropTrailingBlanks_iff (line : Text) :
    collapseLine line = Text.dropTrailingBlanks line ↔
      SinglySpaced (Text.dropTrailingBlanks line) := by
  constructor
  · intro h
    have hcompact := collapseLine_compact line
    rw [h] at hcompact
    exact ⟨hcompact.noTab, hcompact.noGap⟩
  · intro h
    have htrail : (Text.dropTrailingBlanks line).getLast? ≠ some ' ' := by
      intro hlast
      cases Text.getLast_rdropWhile hlast
    rw [← collapseLine_dropTrailingBlanks]
    exact collapseLine_of_compact ⟨h.noTab, h.noGap, htrail⟩

end Layout

/-- The directive line that begins at a place of the source, without the blanks at its end. -/
def directiveLine (source : Text) (i : Nat) : Text :=
  Text.dropTrailingBlanks (Text.restOfLine (source.drop i))

theorem startsDirective_directiveLine {source : Text} {i : Nat}
    (h : i ∈ directiveOffsets source) :
    Layout.startsDirective (directiveLine source i) = true := by
  have hopens : OpensDirective source i := by simpa using (List.mem_filter.mp h).2
  obtain ⟨rest, hrest⟩ := List.head?_eq_some_iff.mp hopens.1
  have hline : Layout.startsDirective (Text.restOfLine (source.drop i)) = true := by
    rw [hrest]
    rfl
  rw [← Layout.startsDirective_collapseLine] at hline ⊢
  rwa [directiveLine, Layout.collapseLine_dropTrailingBlanks]

theorem filter_split_minify (source : Text) :
    (Text.split '\n' (minify false source)).filter Layout.startsDirective =
      (directiveOffsets source).map fun i =>
        Layout.collapseLine (Text.restOfLine (source.drop i)) := by
  have hkept := Layout.filter_split_arrange (removeComments false source)
  rw [filter_lines_removeComments, List.map_map] at hkept
  exact hkept

/-- Each directive of the source has its line in the output, in the same order, and stands there
as it was written just when it is singly spaced. All of them do just when all are. -/
theorem directive_verbatim_iff_singly_spaced (source : Text) :
    List.Forall₂
      (fun i line => line = directiveLine source i ↔
        Layout.SinglySpaced (directiveLine source i))
      (directiveOffsets source)
      ((Text.split '\n' (minify false source)).filter Layout.startsDirective) ∧
    (((directiveOffsets source).map (directiveLine source)).Sublist
        (Text.split '\n' (minify false source)) ↔
      ∀ i ∈ directiveOffsets source, Layout.SinglySpaced (directiveLine source i)) := by
  have hline : ∀ i, Layout.collapseLine (Text.restOfLine (source.drop i)) = directiveLine source i ↔
      Layout.SinglySpaced (directiveLine source i) := by
    intro i
    exact Layout.collapseLine_eq_dropTrailingBlanks_iff _
  refine ⟨?_, ?_, ?_⟩
  · rw [filter_split_minify, List.forall₂_map_right_iff, List.forall₂_same]
    intro i _
    exact hline i
  · intro hsublist i hi
    have hfilter := hsublist.filter Layout.startsDirective
    rw [filter_split_minify, List.filter_eq_self.mpr] at hfilter
    · have heq := hfilter.eq_of_length (by simp)
      rw [List.map_inj_left] at heq
      exact (hline i).mp (heq i hi).symm
    · intro line hmem
      obtain ⟨j, hj, rfl⟩ := List.mem_map.mp hmem
      exact startsDirective_directiveLine hj
  · intro hsingly
    have heq : (directiveOffsets source).map (directiveLine source) =
        (Text.split '\n' (minify false source)).filter Layout.startsDirective := by
      rw [filter_split_minify, List.map_inj_left]
      intro i hi
      exact ((hline i).mpr (hsingly i hi)).symm
    rw [heq]
    exact List.filter_sublist

/-- A tab counts where it stands alone, and spaces at the end of a line do not count. -/
example : ¬ Layout.SinglySpaced (directiveLine "#if\tA".toList 0) ∧
    Layout.SinglySpaced (directiveLine "#if A  \n".toList 0) := by decide

/-- Two spaces are none in the output, and the name of a macro takes up its value. -/
theorem directive_glued :
    minify false "#define A  1\n".toList = "#define A1\n".toList ∧
      ¬ ((directiveOffsets "#define A  1\n".toList).map
          (directiveLine "#define A  1\n".toList)).Sublist
        (Text.split '\n' (minify false "#define A  1\n".toList)) := by
  decide +kernel

end SqfMinifier
