import SqfMinifier.Proofs.LineEndings
import Mathlib.Data.List.Flatten

/-!
How long the output can be. Comment removal and the collapsing of blanks only take away. Setting
directives apart adds line feeds, and joining code lines may add a space at a seam, but each of
these bytes stands where the source had a line end. Only behind a directive that is the last line
there was none, so the output may then be one byte longer than the source.
-/

namespace SqfMinifier

namespace Text

theorem byteSize_le_of_sublist {t u : Text} (h : t.Sublist u) : byteSize t ≤ byteSize u := by
  induction h with
  | slnil => exact Nat.le_refl _
  | cons c _ ih => exact Nat.le_add_left_of_le ih
  | cons_cons c _ ih => exact Nat.add_le_add_left ih _

theorem byteSize_append_feed (line t : Text) :
    byteSize (line ++ '\n' :: t) = byteSize line + 1 + byteSize t := by
  rw [byteSize_append, byteSize, Nat.add_assoc]
  rfl

theorem byteSize_unifyLineEnds_le (t : Text) : byteSize (unifyLineEnds t) ≤ byteSize t := by
  fun_induction unifyLineEnds t with
  | case1 => exact Nat.le_refl _
  | case2 rest ih => exact Nat.add_le_add_left (Nat.le_add_left_of_le ih) _
  | case3 rest _ ih => exact Nat.add_le_add_left ih _
  | case4 c rest _ _ ih => exact Nat.add_le_add_left ih _

theorem unifyLineEnds_return_free (t : Text) : '\r' ∉ unifyLineEnds t := by
  fun_induction unifyLineEnds t with
  | case1 => simp
  | case2 rest ih => simp [ih]
  | case3 rest _ ih => simp [ih]
  | case4 c rest _ hreturn ih =>
    rw [List.mem_cons, not_or]
    exact ⟨fun hc => hreturn hc.symm, ih⟩

theorem filledLines_unifyLineEnds (before t : Text) :
    filledLines (before ++ unifyLineEnds t) = filledLines (before ++ t) := by
  have hreturn : isLineEnd '\r' = true := by decide
  have hfeed : isLineEnd '\n' = true := by decide
  fun_induction unifyLineEnds t generalizing before with
  | case1 => rfl
  | case2 rest ih =>
    rw [filledLines_append_line_end hreturn, filledLines_append_line_end hfeed,
      filledLines_cons_line_end hfeed]
    rw [show filledLines (unifyLineEnds rest) = filledLines rest from ih []]
  | case3 rest _ ih =>
    rw [filledLines_append_line_end hreturn, filledLines_append_line_end hfeed]
    rw [show filledLines (unifyLineEnds rest) = filledLines rest from ih []]
  | case4 c rest _ _ ih =>
    have hrest := ih (before ++ [c])
    rwa [List.append_assoc, List.append_assoc] at hrest

end Text

namespace Layout

open Text

/-- Each line but the last adds its size, and one byte for its line feed if it is not empty. -/
theorem byteSize_squeeze_cons {line : Text} {lines : List Text} (h : lines ≠ []) :
    byteSize (joinFeeds (squeeze (line :: lines))) =
      byteSize line + (!line.isEmpty).toNat + byteSize (joinFeeds (squeeze lines)) := by
  rw [joinFeeds_squeeze_cons h, byteSize_append, byteSize_append]
  cases line <;> rfl

section Collapsing

theorem byteSize_collapseFrom_le (last : Option Char) (line : Text) :
    byteSize (collapseFrom last line) ≤ byteSize line := by
  have hafter : ∀ rest : Text, byteSize (rest.dropWhile isBlank) ≤ byteSize rest := fun rest =>
    byteSize_le_of_sublist (List.dropWhile_sublist isBlank)
  fun_induction collapseFrom last line with
  | case1 => exact Nat.le_refl _
  | case2 => exact Nat.zero_le _
  | case3 last c rest _ after _ _ ih =>
    have hspace : ' '.utf8Size ≤ c.utf8Size := c.utf8Size_pos
    exact Nat.add_le_add hspace (ih.trans (hafter rest))
  | case4 last c rest _ after _ _ ih => exact Nat.le_add_left_of_le (ih.trans (hafter rest))
  | case5 last c rest _ ih => exact Nat.add_le_add_left ih _

theorem byteSize_squeeze_collapse_le (lines : List Text) :
    byteSize (joinFeeds (squeeze (lines.map collapseLine))) ≤
      byteSize (joinFeeds (squeeze lines)) := by
  induction lines with
  | nil => exact Nat.le_refl _
  | cons line lines ih =>
    have hline : byteSize (collapseLine line) ≤ byteSize line := byteSize_collapseFrom_le none line
    by_cases hne : lines = []
    · subst hne
      simpa [squeeze, joinFeeds] using hline
    rw [List.map_cons, byteSize_squeeze_cons (by simpa using hne), byteSize_squeeze_cons hne]
    cases line with
    | nil =>
      rw [show collapseLine [] = [] from collapseLine_of_compact compact_nil]
      exact Nat.add_le_add_left ih _
    | cons c line =>
      have hfeed := Bool.toNat_le (!(collapseLine (c :: line)).isEmpty)
      have hfilled : (!(c :: line).isEmpty).toNat = 1 := rfl
      omega

end Collapsing

section Isolating

/-- Text set before the first line adds its own size, and a line feed if that line was empty. -/
theorem byteSize_squeeze_modifyHead_le (a : Text) {lines : List Text} (h : lines ≠ []) :
    byteSize (joinFeeds (squeeze (lines.modifyHead (a ++ ·)))) ≤
      byteSize a + (lines.head? == some []).toNat + byteSize (joinFeeds (squeeze lines)) := by
  obtain ⟨first, rest, rfl⟩ := List.exists_cons_of_ne_nil h
  rw [List.modifyHead_cons]
  by_cases hne : rest = []
  · subst hne
    simp only [squeeze, joinFeeds, List.intercalate_singleton, byteSize_append]
    omega
  rw [byteSize_squeeze_cons hne, byteSize_squeeze_cons hne, byteSize_append]
  have hfeed := Bool.toNat_le (!(a ++ first).isEmpty)
  cases first with
  | nil =>
    have hempty : (([] :: rest : List Text).head? == some []).toNat = 1 := rfl
    omega
  | cons c first =>
    have hfilled : (!(c :: first).isEmpty).toNat = 1 := rfl
    omega

/-- A line that would make a marker with what is in front of it is code, and not empty. -/
theorem first_filled_of_formsMarker {last : Option Char} {next : Text}
    (h : formsMarker last next = true) (hfree : '\n' ∉ next) (rest : List Text) :
    (split '\n' (joinLines last (next :: rest))).head? ≠ some [] := by
  cases next with
  | nil => simp [formsMarker] at h
  | cons c next =>
    have hcode : startsDirective (c :: next) = false := by
      have hc : c = '/' ∨ c = '*' := by simpa [formsMarker] using (Bool.and_eq_true_iff.mp h).2
      rcases hc with rfl | rfl <;> rfl
    rw [split_joinLines_code hcode hfree]
    cases split '\n' (joinLines ((c :: next).getLast?.or last) rest) <;> simp

/-- Either the next line begins behind a line feed or a space stands in front of it, never both. -/
theorem feed_or_space (last : Option Char) {next : Text} (hfree : '\n' ∉ next)
    (rest : List Text) :
    ((split '\n' (joinLines last (next :: rest))).head? == some []).toNat +
      (formsMarker last next).toNat ≤ 1 := by
  cases hmarker : formsMarker last next with
  | false => exact Bool.toNat_le _
  | true =>
    have hfirst := first_filled_of_formsMarker hmarker hfree rest
    simp [hfirst]

theorem byteSize_seam (last : Option Char) (line : Text) :
    byteSize ((if formsMarker last line then [' '] else []) ++ line) =
      (formsMarker last line).toNat + byteSize line := by
  rw [byteSize_append]
  cases formsMarker last line <;> rfl

/-- A line end pays for the line feed or for the space that stands in its place. The last line has
none: if it is a directive, the line feed behind it is one too many. What stands in front of the
first line may need a space too. -/
theorem byteSize_joinLines_le (last : Option Char) {lines : List Text} (hne : lines ≠ [])
    (hfree : ∀ l ∈ lines, '\n' ∉ l) :
    byteSize (joinFeeds (squeeze (split '\n' (joinLines last lines)))) ≤
      byteSize (joinFeeds lines) + (lines.getLast?.any startsDirective).toNat +
        (lines.head?.any (formsMarker last)).toNat := by
  induction lines generalizing last with
  | nil => exact absurd rfl hne
  | cons line rest ih =>
    obtain ⟨hline, hlines⟩ := List.forall_mem_cons.mp hfree
    cases hd : startsDirective line with
    | true =>
      have hfilled : (!line.isEmpty).toNat = 1 := by
        simp [ne_nil_of_startsDirective hd]
      have hsplit := split_ne_nil '\n' (joinLines (some '\n') rest)
      rw [split_joinLines_directive hd hline, byteSize_squeeze_cons (by simp),
        byteSize_squeeze_cons hsplit, hfilled]
      cases rest with
      | nil => simp [joinLines, split, squeeze, joinFeeds, byteSize, hd]
      | cons next rest =>
        have hrest := ih (some '\n') (by simp) hlines
        have hseam : formsMarker (some '\n') next = false := formsMarker_eq_false (by decide) next
        rw [joinFeeds_cons (by simp), byteSize_append_feed, List.getLast?_cons_cons]
        simp only [List.head?_cons, Option.any_some, hseam, Bool.toNat_false] at hrest
        simp only [byteSize, List.isEmpty_nil, Bool.not_true, Bool.toNat_false]
        omega
    | false =>
      rw [split_joinLines_code hd hline, List.head?_cons, Option.any_some]
      cases rest with
      | nil =>
        have halone : joinFeeds (squeeze [(if formsMarker last line then [' '] else []) ++ line]) =
            (if formsMarker last line then [' '] else []) ++ line := List.intercalate_singleton
        rw [joinLines, split, List.modifyHead_cons, List.append_nil, halone, byteSize_seam]
        simp only [joinFeeds, List.intercalate_singleton]
        omega
      | cons next rest =>
        have hrest := ih (line.getLast?.or last) (by simp) hlines
        have hsplit := split_ne_nil '\n' (joinLines (line.getLast?.or last) (next :: rest))
        have hone := feed_or_space (line.getLast?.or last) (hlines next List.mem_cons_self) rest
        refine (byteSize_squeeze_modifyHead_le _ hsplit).trans ?_
        rw [byteSize_seam, joinFeeds_cons (by simp), byteSize_append_feed, List.getLast?_cons_cons]
        rw [List.head?_cons, Option.any_some] at hrest
        omega

end Isolating

theorem arrange_unifyLineEnds (t : Text) : arrange (unifyLineEnds t) = arrange t :=
  arrange_congr (filledLines_unifyLineEnds [] t)

theorem byteSize_arrange_le (t : Text) :
    byteSize (arrange t) ≤
      byteSize t + ((split '\n' (unifyLineEnds t)).getLast?.any startsDirective).toNat := by
  have hlines : lines (unifyLineEnds t) = split '\n' (unifyLineEnds t) :=
    lines_eq_split (unifyLineEnds_return_free t)
  have hjoined := byteSize_joinLines_le none (split_ne_nil '\n' (unifyLineEnds t))
    fun l hl => sep_not_mem_of_mem_split hl
  have hnothing : (split '\n' (unifyLineEnds t)).head?.any (formsMarker none) = false := by
    cases (split '\n' (unifyLineEnds t)).head? <;> rfl
  rw [joinFeeds_split, hnothing] at hjoined
  calc byteSize (arrange t)
      = byteSize (joinFeeds (squeeze
          ((split '\n' (joinLines none (split '\n' (unifyLineEnds t)))).map collapseLine))) := by
        rw [← arrange_unifyLineEnds, arrange_eq, isolateDirectives, hlines]
    _ ≤ byteSize (joinFeeds (squeeze
          (split '\n' (joinLines none (split '\n' (unifyLineEnds t)))))) :=
        byteSize_squeeze_collapse_le _
    _ ≤ byteSize (unifyLineEnds t) +
          ((split '\n' (unifyLineEnds t)).getLast?.any startsDirective).toNat := hjoined
    _ ≤ byteSize t + ((split '\n' (unifyLineEnds t)).getLast?.any startsDirective).toNat :=
        Nat.add_le_add_right (byteSize_unifyLineEnds_le t) _

end Layout

open Text

theorem byteSize_removeComments_le (aware : Bool) (source : Text) :
    byteSize (removeComments aware source) ≤ byteSize source := by
  have hsub := List.Sublist.flatMap (List.filter_sublist (p := fun p => !Piece.isComment p)
    (l := Scan.pieces aware source)) Piece.text
  exact (byteSize_le_of_sublist hsub).trans_eq
    (congrArg byteSize (Scan.flatMap_piecesFrom aware true source))

/-- The output is no longer than the source. Only where the last line that comment removal leaves
is a directive it may have one byte more, and there are sources for which it has. -/
theorem minify_size (aware : Bool) :
    (∀ source : Text, byteSize (minify aware source) ≤ byteSize source ∨
      byteSize (minify aware source) = byteSize source + 1 ∧
        ∃ line ∈ (split '\n' (unifyLineEnds (removeComments aware source))).getLast?,
          Layout.startsDirective line = true) ∧
    ∃ source : Text, byteSize (minify aware source) = byteSize source + 1 := by
  refine ⟨fun source => ?_, ['#'], ?_⟩
  · have hlayout := Layout.byteSize_arrange_le (removeComments aware source)
    have hscan := byteSize_removeComments_le aware source
    change byteSize (Layout.arrange (removeComments aware source)) ≤ _ ∨
      byteSize (Layout.arrange (removeComments aware source)) = _ ∧ _
    cases hlast : (split '\n' (unifyLineEnds (removeComments aware source))).getLast?.any
        Layout.startsDirective with
    | false =>
      rw [hlast] at hlayout
      exact .inl (hlayout.trans hscan)
    | true =>
      rw [hlast, Bool.toNat_true] at hlayout
      have hdirective := (Option.any_eq_true _ _).mp hlast
      by_cases hshort : byteSize (Layout.arrange (removeComments aware source)) ≤ byteSize source
      · exact .inl hshort
      · right
        constructor
        · omega
        · exact hdirective
  · cases aware <;> decide +kernel

end SqfMinifier
