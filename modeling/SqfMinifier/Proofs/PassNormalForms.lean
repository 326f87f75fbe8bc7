import SqfMinifier.Proofs.CommentFree
import SqfMinifier.Proofs.LineLayout

/-!
Each pass on its own, on any text. What a pass leaves behind is in a form that the same pass does
not change: free of comments, with code and directive lines taking turns, or with compact lines of
which none between the first and the last is empty.
-/

namespace SqfMinifier

namespace Layout

section Isolating

/-- Where code and directives take turns already, joining them sets the line feeds back in. -/
theorem Alternates.joinLines_eq {lines : List Text} (h : Alternates lines) {last : Option Char}
    (hlast : last ≠ some '/') : joinLines last lines = Text.joinFeeds lines := by
  induction h generalizing last with
  | last hcode => simp [joinLines, Text.joinFeeds, hcode, formsMarker_eq_false hlast]
  | @turn code directive rest hcode hd hrest ih =>
    have hjoined : joinLines (some '\n') rest = Text.joinFeeds rest := ih (by decide)
    rw [Text.joinFeeds_cons (by simp), Text.joinFeeds_cons hrest.ne_nil, ← hjoined]
    simp [joinLines, hcode, hd, formsMarker_eq_false hlast]

theorem isolateDirectives_of_alternates {t : Text} (hreturn : '\r' ∉ t)
    (h : Alternates (Text.split '\n' t)) : isolateDirectives t = t := by
  rw [isolateDirectives, Text.lines_eq_split hreturn, h.joinLines_eq (by simp),
    Text.joinFeeds_split]

end Isolating

section Collapsing

theorem squeeze_squeeze (lines : List Text) : squeeze (squeeze lines) = squeeze lines := by
  fun_induction squeeze lines with
  | case1 => rfl
  | case2 => rfl
  | case3 line next rest _ ih => exact ih
  | case4 line next rest hfilled ih =>
    rw [squeeze_cons (squeeze_ne_nil (by simp)), if_neg hfilled, ih]

variable {t first : Text} {rest : List Text}

theorem split_collapseBlanks (h : Text.split '\n' t = first :: rest) :
    Text.split '\n' (collapseBlanks t) =
      collapseLine first :: squeeze (rest.map collapseLine) := by
  have hcollapsed : ∀ line ∈ first :: rest, '\n' ∉ collapseLine line := by
    intro line hline
    rw [← h] at hline
    exact not_mem_collapseLine (by decide) (Text.sep_not_mem_of_mem_split hline)
  obtain ⟨hfirst, hrest⟩ := List.forall_mem_cons.mp hcollapsed
  rw [collapseBlanks_eq h]
  refine Text.split_joinFeeds (List.forall_mem_cons.mpr ⟨hfirst, fun l hl => ?_⟩) (by simp)
  obtain ⟨line, hline, rfl⟩ := List.mem_map.mp (squeeze_subset _ hl)
  exact hrest line hline

theorem map_collapseLine_squeeze (lines : List Text) :
    (squeeze (lines.map collapseLine)).map collapseLine = squeeze (lines.map collapseLine) := by
  have hsame : ∀ l ∈ squeeze (lines.map collapseLine), collapseLine l = id l := by
    intro l hl
    obtain ⟨line, -, rfl⟩ := List.mem_map.mp (squeeze_subset _ hl)
    exact collapseLine_of_compact (collapseLine_compact line)
  rw [List.map_congr_left hsame, List.map_id]

theorem collapseBlanks_collapseBlanks (t : Text) :
    collapseBlanks (collapseBlanks t) = collapseBlanks t := by
  obtain ⟨first, rest, hsplit⟩ := List.exists_cons_of_ne_nil (Text.split_ne_nil '\n' t)
  rw [collapseBlanks_eq (split_collapseBlanks hsplit), collapseBlanks_eq hsplit,
    collapseLine_of_compact (collapseLine_compact first), map_collapseLine_squeeze,
    squeeze_squeeze]

end Collapsing

end Layout

/-- Each of the first three passes leaves nothing for itself to do again, whatever text it is given.
-/
theorem passes_idempotent (aware : Bool) (t : Text) :
    removeComments aware (removeComments aware t) = removeComments aware t ∧
      isolateDirectives (isolateDirectives t) = isolateDirectives t ∧
      collapseBlanks (collapseBlanks t) = collapseBlanks t := by
  refine ⟨?_, ?_, Layout.collapseBlanks_collapseBlanks t⟩
  · exact removeComments_of_comment_free (removeComments_comment_free aware t)
  · exact Layout.isolateDirectives_of_alternates (Layout.isolateDirectives_return_free t)
      (Layout.isolateDirectives_alternates t)

end SqfMinifier
