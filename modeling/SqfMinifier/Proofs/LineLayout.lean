import SqfMinifier.Minify
import SqfMinifier.Proofs.BlankRuns

/-!
The layout passes seen line by line. Isolating directives makes code and directive lines take
turns, collapsing acts on each line alone, and of the empty lines only a last one stays. The
texts that come out are the tidy ones, and a tidy text is laid out as it stands.
-/

namespace SqfMinifier

namespace Layout

def arrange (t : Text) : Text := (Stages.ofUncommented t).output

/-- Drops empty lines but for the last. -/
def squeeze : List Text → List Text
  | [] => []
  | [line] => [line]
  | line :: next :: rest =>
    if line.isEmpty then squeeze (next :: rest) else line :: squeeze (next :: rest)

/-- A text in which nothing is left to lay out. -/
structure Tidy (y : Text) : Prop where
  noReturn : '\r' ∉ y
  noTab : '\t' ∉ y
  noGap : ¬ Text.Adjoins ' ' ' ' y
  noTrail : ∀ line ∈ Text.split '\n' y, line.getLast? ≠ some ' '
  noLeadingFeed : y.head? ≠ some '\n'
  noBlankLine : ¬ Text.Adjoins '\n' '\n' y
  separated : (Text.split '\n' y).IsChain fun a b => startsDirective a ∨ startsDirective b
  lastCode : ∀ line ∈ (Text.split '\n' y).getLast?, startsDirective line = false

structure TidyLines (lines : List Text) : Prop where
  compact : ∀ l ∈ lines, Compact l
  filled : ∀ l ∈ lines.dropLast, l ≠ []
  separated : lines.IsChain fun a b => startsDirective a ∨ startsDirective b
  lastCode : ∀ l ∈ lines.getLast?, startsDirective l = false

theorem mem_joinFeeds {x : Char} (hx : x ≠ '\n') (lines : List Text) :
    x ∈ Text.joinFeeds lines ↔ ∃ l ∈ lines, x ∈ l := by
  induction lines with
  | nil => simp [Text.joinFeeds]
  | cons line lines ih =>
    cases lines with
    | nil => simp [Text.joinFeeds]
    | cons next lines =>
      simp only [Text.joinFeeds, List.intercalate_cons_cons] at ih ⊢
      simp [ih, hx]

theorem ne_nil_of_startsDirective {line : Text} (h : startsDirective line = true) : line ≠ [] := by
  rintro rfl
  cases h

theorem tidy_iff (y : Text) : Tidy y ↔ '\r' ∉ y ∧ TidyLines (Text.split '\n' y) := by
  have hfree : ∀ l ∈ Text.split '\n' y, '\n' ∉ l := fun l hl => Text.sep_not_mem_of_mem_split hl
  have hjoin := Text.joinFeeds_split y
  have hblank := Text.no_blank_lines hfree
  have hgap : Text.Adjoins ' ' ' ' _ ↔ _ :=
    Text.adjoins_joinFeeds (by decide) (by decide) (Text.split '\n' y)
  have htab : '\t' ∈ _ ↔ _ := mem_joinFeeds (by decide) (Text.split '\n' y)
  rw [hjoin] at hblank hgap htab
  constructor
  · intro h
    refine ⟨h.noReturn, ⟨?_, hblank.mp ⟨h.noLeadingFeed, h.noBlankLine⟩, h.separated, h.lastCode⟩⟩
    intro l hl
    refine ⟨?_, ?_, h.noTrail l hl⟩
    · intro hm
      exact h.noTab (htab.mpr ⟨l, hl, hm⟩)
    · intro ha
      exact h.noGap (hgap.mpr ⟨l, hl, ha⟩)
  · rintro ⟨hr, h⟩
    obtain ⟨hlead, htwo⟩ := hblank.mpr h.filled
    refine ⟨hr, ?_, ?_, fun l hl => (h.compact l hl).noTrail, hlead, htwo, h.separated, h.lastCode⟩
    · rintro hm
      obtain ⟨l, hl, hm⟩ := htab.mp hm
      exact (h.compact l hl).noTab hm
    · intro hg
      obtain ⟨l, hl, ha⟩ := hgap.mp hg
      exact (h.compact l hl).noGap ha

section Stacking

theorem squeeze_ne_nil {lines : List Text} (h : lines ≠ []) : squeeze lines ≠ [] := by
  fun_induction squeeze lines with
  | case1 => exact h
  | case2 => simp
  | case3 _ _ _ _ ih => exact ih (by simp)
  | case4 => simp

theorem squeeze_cons {line : Text} {lines : List Text} (h : lines ≠ []) :
    squeeze (line :: lines) = if line.isEmpty then squeeze lines else line :: squeeze lines := by
  cases lines with
  | nil => exact absurd rfl h
  | cons next rest => rfl

theorem joinFeeds_squeeze_cons {line : Text} {lines : List Text} (h : lines ≠ []) :
    Text.joinFeeds (squeeze (line :: lines)) =
      line ++ (if line.isEmpty then [] else ['\n']) ++ Text.joinFeeds (squeeze lines) := by
  rw [squeeze_cons h]
  split_ifs with hempty
  · simp [List.isEmpty_iff.mp hempty]
  · rw [Text.joinFeeds_cons (squeeze_ne_nil h)]
    simp

theorem stackLines_eq (ended : Bool) {lines : List Text} (h : lines ≠ []) :
    stackLines ended lines =
      (if ended then [] else ['\n']) ++ Text.joinFeeds (squeeze (lines.map collapseLine)) := by
  induction lines generalizing ended with
  | nil => exact absurd rfl h
  | cons line lines ih =>
    rw [stackLines]
    cases lines with
    | nil => simp [stackLines, squeeze, Text.joinFeeds]
    | cons next rest =>
      have hne : (next :: rest).map collapseLine ≠ [] := by simp
      rw [List.map_cons, joinFeeds_squeeze_cons hne, ih _ (by simp)]
      simp only [List.append_assoc]

theorem trimLeadingNewline_of_head {t : Text} (h : t.head? ≠ some '\n') :
    trimLeadingNewline t = t := by
  unfold trimLeadingNewline
  split
  · simp at h
  · rfl

theorem collapseLine_head {line : Text} (h : '\n' ∉ line) :
    (collapseLine line).head? ≠ some '\n' := by
  intro hh
  exact not_mem_collapseLine (by decide) h (List.mem_of_head? hh)

/-- The first line stays even if it is empty, since the text may begin with a line feed. -/
theorem collapseBlanks_eq {t first : Text} {rest : List Text}
    (h : Text.split '\n' t = first :: rest) :
    collapseBlanks t =
      Text.joinFeeds (collapseLine first :: squeeze (rest.map collapseLine)) := by
  have hcut : collapseBlanks t = collapseLine first ++ stackLines false rest := by
    rw [collapseBlanks, h]
  rw [hcut]
  cases rest with
  | nil => simp [stackLines, squeeze, Text.joinFeeds]
  | cons next rest =>
    rw [stackLines_eq false (List.cons_ne_nil next rest),
      Text.joinFeeds_cons (squeeze_ne_nil (by simp))]
    rfl

/-- Collapsing and trimming a text: collapse each line, then drop the empty ones. -/
theorem trim_collapseBlanks (t : Text) :
    trimLeadingNewline (collapseBlanks t) =
      Text.joinFeeds (squeeze ((Text.split '\n' t).map collapseLine)) := by
  obtain ⟨first, rest, hs⟩ := List.exists_cons_of_ne_nil (Text.split_ne_nil '\n' t)
  have hfirst : first ∈ Text.split '\n' t := by simp [hs]
  have hhead := collapseLine_head (Text.sep_not_mem_of_mem_split hfirst)
  rw [collapseBlanks_eq hs, hs, List.map_cons]
  cases rest with
  | nil => simpa [squeeze, Text.joinFeeds] using trimLeadingNewline_of_head hhead
  | cons next rest =>
    have hne : squeeze ((next :: rest).map collapseLine) ≠ [] := squeeze_ne_nil (by simp)
    rw [squeeze_cons (by simp), Text.joinFeeds_cons hne]
    by_cases hempty : collapseLine first = []
    · simp [hempty, trimLeadingNewline]
    · have hkeep : (collapseLine first).isEmpty = false := by simpa using hempty
      rw [hkeep, if_neg Bool.false_ne_true, Text.joinFeeds_cons hne, trimLeadingNewline_of_head]
      rwa [List.head?_append_of_ne_nil _ hempty]

end Stacking

section Isolating

/-- Code and directive lines take turns, and code lines stand first and last. -/
inductive Alternates : List Text → Prop where
  | last {code : Text} (hc : startsDirective code = false) : Alternates [code]
  | turn {code directive : Text} {rest : List Text} (hc : startsDirective code = false)
      (hd : startsDirective directive = true) (hrest : Alternates rest) :
      Alternates (code :: directive :: rest)

theorem Alternates.ne_nil {lines : List Text} (h : Alternates lines) : lines ≠ [] := by
  cases h <;> simp

theorem Alternates.head {lines : List Text} (h : Alternates lines) :
    ∃ code rest, lines = code :: rest ∧ startsDirective code = false := by
  cases h with
  | last hc => exact ⟨_, _, rfl, hc⟩
  | turn hc _ _ => exact ⟨_, _, rfl, hc⟩

/-- Code set before the first line, when it leaves that line code. -/
theorem Alternates.modifyHead {lines : List Text} (h : Alternates lines) {f : Text → Text}
    (hf : ∀ code, startsDirective code = false → startsDirective (f code) = false) :
    Alternates (lines.modifyHead f) := by
  cases h with
  | last hc => exact .last (hf _ hc)
  | turn hc hd hrest => exact .turn (hf _ hc) hd hrest

theorem Alternates.map_collapseLine {lines : List Text} (h : Alternates lines) :
    Alternates (lines.map collapseLine) := by
  induction h with
  | last hc => exact .last (by rw [startsDirective_collapseLine, hc])
  | turn hc hd _ ih =>
    exact .turn (by rw [startsDirective_collapseLine, hc])
      (by rw [startsDirective_collapseLine, hd]) ih

theorem split_joinLines_directive {line : Text} (hd : startsDirective line = true)
    (hline : '\n' ∉ line) (last : Option Char) (rest : List Text) :
    Text.split '\n' (joinLines last (line :: rest)) =
      [] :: line :: Text.split '\n' (joinLines (some '\n') rest) := by
  rw [joinLines, if_pos hd, List.cons_append, Text.split, if_pos rfl, Text.split_append_sep,
    Text.split_of_not_mem hline]
  rfl

theorem split_joinLines_code {line : Text} (hd : startsDirective line = false)
    (hline : '\n' ∉ line) (last : Option Char) (rest : List Text) :
    Text.split '\n' (joinLines last (line :: rest)) =
      (Text.split '\n' (joinLines (line.getLast?.or last) rest)).modifyHead
        (((if formsMarker last line then [' '] else []) ++ line) ++ ·) := by
  have hfree : '\n' ∉ (if formsMarker last line then [' '] else []) ++ line := by
    split_ifs <;> simp [hline]
  rw [joinLines, hd, if_neg Bool.false_ne_true, Text.split_append_of_not_mem hfree]

/-- A code line set before another makes no directive of it. -/
theorem startsDirective_joined {line code : Text} (hline : startsDirective line = false)
    (hcode : startsDirective code = false) {last : Option Char} :
    startsDirective ((if formsMarker last line then [' '] else []) ++ line ++ code) = false := by
  split_ifs
  · rfl
  · cases line with
    | nil => exact hcode
    | cons c line => exact hline

theorem split_joinLines_alternates (last : Option Char) {lines : List Text}
    (h : ∀ l ∈ lines, '\n' ∉ l) : Alternates (Text.split '\n' (joinLines last lines)) := by
  induction lines generalizing last with
  | nil => exact .last rfl
  | cons line rest ih =>
    obtain ⟨hline, hlines⟩ := List.forall_mem_cons.mp h
    cases hd : startsDirective line with
    | true =>
      rw [split_joinLines_directive hd hline]
      exact .turn rfl hd (ih _ hlines)
    | false =>
      rw [split_joinLines_code hd hline]
      apply (ih _ hlines).modifyHead
      intro code hcode
      exact startsDirective_joined hd hcode

theorem TidyLines.cons {line : Text} {lines : List Text} (h : TidyLines lines) (hne : lines ≠ [])
    (hc : Compact line) (hfilled : line ≠ [])
    (hsep : ∀ next ∈ lines.head?, startsDirective line ∨ startsDirective next) :
    TidyLines (line :: lines) := by
  obtain ⟨first, others, rfl⟩ := List.exists_cons_of_ne_nil hne
  refine ⟨?_, ?_, .cons_cons (hsep first rfl) h.separated, ?_⟩
  · exact List.forall_mem_cons.mpr ⟨hc, h.compact⟩
  · rw [List.dropLast_cons_cons]
    exact List.forall_mem_cons.mpr ⟨hfilled, h.filled⟩
  · rw [List.getLast?_cons_cons]
    exact h.lastCode

/-- Dropping empty lines leaves directives set apart: only code lines are ever empty. -/
theorem Alternates.squeeze_tidy {lines : List Text} (h : Alternates lines)
    (hc : ∀ l ∈ lines, Compact l) : TidyLines (squeeze lines) := by
  induction h with
  | last hcode =>
    exact ⟨hc, by simp [squeeze], .singleton _, by simpa [squeeze] using hcode⟩
  | @turn code directive rest hcode hd hrest ih =>
    have htidy := ih fun l hl => hc l (by simp [hl])
    have hfilled := ne_nil_of_startsDirective hd
    have hdirective : TidyLines (directive :: squeeze rest) :=
      htidy.cons (squeeze_ne_nil hrest.ne_nil) (hc directive (by simp)) hfilled
        fun _ _ => Or.inl hd
    have hsqueeze : squeeze (directive :: rest) = directive :: squeeze rest := by
      rw [squeeze_cons hrest.ne_nil, if_neg (by simpa using hfilled)]
    rw [squeeze_cons (by simp), hsqueeze]
    split_ifs with hempty
    · exact hdirective
    · exact hdirective.cons (by simp) (hc code (by simp)) (by simpa using hempty)
        (by simpa using Or.inr hd)

theorem joinLines_return_free (last : Option Char) {lines : List Text}
    (h : ∀ l ∈ lines, '\r' ∉ l) : '\r' ∉ joinLines last lines := by
  induction lines generalizing last with
  | nil => simp [joinLines]
  | cons line rest ih =>
    obtain ⟨hline, hlines⟩ := List.forall_mem_cons.mp h
    rw [joinLines]
    split_ifs <;> simp [hline, ih _ hlines]

theorem isolateDirectives_return_free (t : Text) : '\r' ∉ isolateDirectives t := by
  apply joinLines_return_free
  intro l hl
  exact (Text.line_free_of_mem_lines hl).not_mem rfl

theorem isolateDirectives_alternates (t : Text) :
    Alternates (Text.split '\n' (isolateDirectives t)) := by
  apply split_joinLines_alternates
  intro l hl
  exact (Text.line_free_of_mem_lines hl).not_mem rfl

end Isolating

theorem arrange_eq (t : Text) :
    arrange t = Text.joinFeeds
      (squeeze ((Text.split '\n' (isolateDirectives t)).map collapseLine)) :=
  trim_collapseBlanks (isolateDirectives t)

theorem squeeze_subset (lines : List Text) : squeeze lines ⊆ lines := by
  fun_induction squeeze lines with
  | case1 => simp
  | case2 => simp
  | case3 line next rest _ ih => exact fun l hl => List.mem_cons_of_mem _ (ih hl)
  | case4 line next rest _ ih => exact List.cons_subset_cons line ih

/-- The lines of a laid out text are those that its layout joins. -/
theorem split_arrange (t : Text) :
    Text.split '\n' (arrange t) =
      squeeze ((Text.split '\n' (isolateDirectives t)).map collapseLine) := by
  rw [arrange_eq]
  refine Text.split_joinFeeds ?_ (squeeze_ne_nil (by simpa using Text.split_ne_nil '\n' _))
  intro l hl
  obtain ⟨piece, hpiece, rfl⟩ := List.mem_map.mp (squeeze_subset _ hl)
  exact not_mem_collapseLine (by decide) (Text.sep_not_mem_of_mem_split hpiece)

theorem arrange_tidy (t : Text) : Tidy (arrange t) := by
  rw [tidy_iff, split_arrange]
  refine ⟨?_, (isolateDirectives_alternates t).map_collapseLine.squeeze_tidy ?_⟩
  · rw [arrange_eq, mem_joinFeeds (by decide)]
    rintro ⟨l, hl, hm⟩
    obtain ⟨piece, hpiece, rfl⟩ := List.mem_map.mp (squeeze_subset _ hl)
    have hfree := Text.line_free_of_mem_split (isolateDirectives_return_free t) hpiece
    exact not_mem_collapseLine (by decide) (hfree.not_mem rfl) hm
  · intro l hl
    obtain ⟨piece, _, rfl⟩ := List.mem_map.mp hl
    exact collapseLine_compact piece

theorem TidyLines.tail {line next : Text} {rest : List Text}
    (h : TidyLines (line :: next :: rest)) : TidyLines (next :: rest) where
  compact := fun l hl => h.compact l (List.mem_cons_of_mem _ hl)
  filled := fun l hl => h.filled l (List.mem_cons_of_mem _ hl)
  separated := (List.isChain_cons_cons.mp h.separated).2
  lastCode := fun l hl => h.lastCode l (by rwa [List.getLast?_cons_cons])

theorem formsMarker_eq_false {last : Option Char} (h : last ≠ some '/') (next : Text) :
    formsMarker last next = false := by
  simp [formsMarker, h]

/-- Isolating, collapsing and squeezing tidy lines gives them back. A line that is no directive
follows a directive or nothing, so no space is set before it. -/
theorem squeeze_split_joinLines {lines : List Text} (h : TidyLines lines) (hne : lines ≠ [])
    (hfree : ∀ l ∈ lines, '\n' ∉ l) {last : Option Char} (hlast : last ≠ some '/') :
    squeeze ((Text.split '\n' (joinLines last lines)).map collapseLine) = lines := by
  have hempty : collapseLine [] = [] := collapseLine_of_compact compact_nil
  induction lines generalizing last with
  | nil => exact absurd rfl hne
  | cons line lines ih =>
    obtain ⟨hline, hlines⟩ := List.forall_mem_cons.mp hfree
    have hsame := collapseLine_of_compact (h.compact line List.mem_cons_self)
    have hmarker := formsMarker_eq_false hlast line
    cases lines with
    | nil =>
      have hcode : startsDirective line = false := h.lastCode line rfl
      rw [split_joinLines_code hcode hline, hmarker]
      simp [joinLines, Text.split, hsame, squeeze]
    | cons next rest =>
      have htail : ∀ {last : Option Char}, last ≠ some '/' →
          squeeze ((Text.split '\n' (joinLines last (next :: rest))).map collapseLine) =
            next :: rest := by
        intro last hl
        exact ih h.tail (by simp) hlines hl
      cases hd : startsDirective line with
      | true =>
        have hfilled := ne_nil_of_startsDirective hd
        rw [split_joinLines_directive hd hline, List.map_cons, List.map_cons, hempty, hsame,
          squeeze_cons (by simp), squeeze_cons (by simpa using Text.split_ne_nil '\n' _),
          htail (by decide)]
        simp [hfilled]
      | false =>
        have hnext : startsDirective next = true := by
          simpa [hd] using (List.isChain_cons_cons.mp h.separated).1
        have hfilled : line ≠ [] := h.filled line (by simp)
        have hrest := htail (show none ≠ some '/' by simp)
        have hfeed := hlines next List.mem_cons_self
        rw [split_joinLines_directive hnext hfeed, List.map_cons, hempty,
          squeeze_cons (by simp)] at hrest
        rw [split_joinLines_code hd hline, split_joinLines_directive hnext hfeed, hmarker]
        simp only [Bool.false_eq_true, if_false, List.nil_append, List.modifyHead_cons,
          List.append_nil]
        rw [List.map_cons, hsame, squeeze_cons (by simp)]
        simpa [hfilled] using hrest

theorem arrange_of_tidy {y : Text} (h : Tidy y) : arrange y = y := by
  obtain ⟨hreturn, hlines⟩ := (tidy_iff y).mp h
  have hsame := squeeze_split_joinLines hlines (Text.split_ne_nil '\n' y)
    (fun l hl => Text.sep_not_mem_of_mem_split hl) (show none ≠ some '/' by simp)
  rw [arrange_eq, isolateDirectives, Text.lines_eq_split hreturn, hsame, Text.joinFeeds_split]

end Layout

end SqfMinifier
