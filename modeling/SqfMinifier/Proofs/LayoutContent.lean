import SqfMinifier.Proofs.Readers

/-!
What layout keeps of a text. Its characters other than blanks and line ends stay as they are and in
their order, and it has as many comment markers as before: none comes about where lines are joined
or a gap goes, and none is torn apart. Both are told by readers that are blind to layout.
-/

namespace SqfMinifier

namespace Text

def ink (t : Text) : Text := t.filter isInk

/-- At how many places of a text a pattern stands. Occurrences may overlap. -/
def occurrences (pattern t : Text) : Nat := t.tails.countP fun rest => pattern.isPrefixOf rest

@[simp] theorem ink_nil : ink [] = [] := rfl

theorem ink_cons (c : Char) (t : Text) : ink (c :: t) = (if isInk c then [c] else []) ++ ink t := by
  rw [ink, List.filter_cons]
  split <;> rfl

theorem ink_append (a b : Text) : ink (a ++ b) = ink a ++ ink b :=
  List.filter_append a b

@[simp] theorem ink_ink (t : Text) : ink (ink t) = ink t := by
  simp [ink]

theorem isInk_of_blank {c : Char} (hc : isBlank c = true) : isInk c = false := by
  simp [isInk, hc]

theorem isInk_of_line_end {c : Char} (hc : isLineEnd c = true) : isInk c = false := by
  simp [isInk, hc]

theorem occurrences_pair_nil (a b : Char) : occurrences [a, b] [] = 0 := by
  simp [occurrences]

theorem occurrences_pair_cons (a b c : Char) (t : Text) :
    occurrences [a, b] (c :: t) =
      (if c = a ∧ t.head? = some b then 1 else 0) + occurrences [a, b] t := by
  have hhead : [a, b].isPrefixOf (c :: t) = decide (c = a ∧ t.head? = some b) := by
    rw [Bool.eq_iff_iff, List.isPrefixOf_iff_prefix, List.cons_prefix_cons, decide_eq_true_iff]
    cases t with
    | nil => simp
    | cons d t => simp [List.cons_prefix_cons, @eq_comm _ a, @eq_comm _ b]
  rw [occurrences, List.tails, List.countP_cons, hhead, Nat.add_comm]
  simp [occurrences]

end Text

namespace Layout

section Ink

def inkReader : Reader Unit Char where
  next _ _ := ()
  note _ c := if Text.isInk c then [c] else []

theorem inkReader_blind : inkReader.Blind where
  line_end _ c hc := ⟨rfl, by simp [inkReader, Text.isInk_of_line_end hc]⟩
  blank _ c hc := ⟨rfl, by simp [inkReader, Text.isInk_of_blank hc]⟩
  newline_newline _ := rfl
  newline_spaced _ := rfl
  spaced_spaced _ := rfl
  line_start _ _ _ _ := ⟨rfl, rfl⟩
  gap _ _ _ _ _ _ := ⟨rfl, rfl⟩
  joins _ _ _ _ _ := rfl
  joins_hash _ _ _ _ := rfl

theorem inkReader_notes (t : Text) : (inkReader.read () t).1 = Text.ink t := by
  induction t with
  | nil => rfl
  | cons c t ih =>
    rw [Text.ink_cons, ← ih]
    rfl

theorem ink_arrange (t : Text) : Text.ink (arrange t) = Text.ink t := by
  rw [← inkReader_notes, ← inkReader_notes t]
  exact inkReader_blind.notes_arrange rfl t

end Ink

section Markers

def markerReader (second : Char) : Reader Bool Unit where
  next _ c := c == '/'
  note slash c := if slash ∧ c = second then [()] else []

theorem markerReader_blind {second : Char} (h : second = '/' ∨ second = '*') :
    (markerReader second).Blind where
  line_end slash c hc := by
    have hcase : c = '\r' ∨ c = '\n' := by simpa [Text.isLineEnd] using hc
    constructor
    · rcases hcase with rfl | rfl <;> rfl
    · rcases hcase with rfl | rfl <;> rcases h with rfl | rfl <;> simp [markerReader]
  blank slash c hc := by
    have hcase : c = ' ' ∨ c = '\t' := by simpa [Text.isBlank] using hc
    constructor
    · rcases hcase with rfl | rfl <;> rfl
    · rcases hcase with rfl | rfl <;> rcases h with rfl | rfl <;> simp [markerReader]
  newline_newline _ := rfl
  newline_spaced _ := rfl
  spaced_spaced _ := rfl
  line_start _ _ _ _ := ⟨rfl, rfl⟩
  gap slash l c _ _ hmarker := by
    refine ⟨rfl, ?_⟩
    have hfree : ¬ (l = '/' ∧ c = second) := by
      rintro ⟨rfl, rfl⟩
      rcases h with rfl | rfl <;> simp [formsMarker] at hmarker
    simp [markerReader, Reader.spaced, hfree]
  joins _ _ _ _ _ := rfl
  joins_hash _ _ _ _ := rfl

theorem markerReader_notes (second : Char) (slash : Bool) (t : Text) :
    ((markerReader second).read slash t).1.length =
      (if slash ∧ t.head? = some second then 1 else 0) + Text.occurrences ['/', second] t := by
  induction t generalizing slash with
  | nil => simp [Text.occurrences_pair_nil]
  | cons c t ih =>
    have hstep : ((markerReader second).read slash (c :: t)).1.length =
        (if slash ∧ c = second then 1 else 0) +
          ((markerReader second).read (c == '/') t).1.length := by
      simp only [Reader.read, markerReader, Prod.map_fst, List.length_append]
      split <;> rfl
    rw [hstep, ih, Text.occurrences_pair_cons]
    simp

theorem occurrences_arrange {second : Char} (h : second = '/' ∨ second = '*') (t : Text) :
    Text.occurrences ['/', second] (arrange t) = Text.occurrences ['/', second] t := by
  have hnotes := congrArg List.length ((markerReader_blind h).notes_arrange (s := false) rfl t)
  rw [markerReader_notes, markerReader_notes] at hnotes
  simpa using hnotes

end Markers

end Layout

/-- Layout only moves blanks and line ends: all other characters are those of the text, in their
order. So what minifying keeps of a source is what comment removal keeps. -/
theorem layout_keeps_ink :
    (∀ t : Text, Text.ink (trimLeadingNewline (collapseBlanks (isolateDirectives t))) =
      Text.ink t) ∧
    ∀ (aware : Bool) (source : Text),
      Text.ink (minify aware source) = Text.ink (removeComments aware source) := by
  constructor
  · intro t
    exact Layout.ink_arrange t
  · intro aware source
    exact Layout.ink_arrange (removeComments aware source)

/-- Layout neither makes comment markers nor takes them apart. -/
theorem layout_keeps_markers (t : Text) :
    Text.occurrences ['/', '/'] (trimLeadingNewline (collapseBlanks (isolateDirectives t))) =
        Text.occurrences ['/', '/'] t ∧
      Text.occurrences ['/', '*'] (trimLeadingNewline (collapseBlanks (isolateDirectives t))) =
        Text.occurrences ['/', '*'] t := by
  constructor
  · exact Layout.occurrences_arrange (.inl rfl) t
  · exact Layout.occurrences_arrange (.inr rfl) t

end SqfMinifier
