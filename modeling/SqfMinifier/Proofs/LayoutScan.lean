import SqfMinifier.Proofs.CommentFree
import SqfMinifier.Proofs.Readers

/-!
The scan reads a text and its layout alike. Line ends move and blanks go, but the automaton is
in the same state at every line end of the one and of the other, whether or not it respects
literals. So layout neither makes comments nor opens or closes literals and directives.
-/

namespace SqfMinifier

namespace CharacterScan

variable {aware : Bool}

section Modes

/-- Whether code is fresh matters to a `#` only. -/
theorem after_code_congr {c : Char} (hc : c ≠ '#') (fresh other : Bool) :
    Mode.after aware (.code fresh) c = Mode.after aware (.code other) c := by
  simp [Mode.after, hc]

/-- Only a line end makes code fresh. -/
theorem after_ne_fresh {c : Char} (hc : Text.isLineEnd c = false) (mode : Mode) :
    mode.after aware c ≠ .code true := by
  cases mode with
  | code fresh =>
    simp only [Mode.after, hc, Bool.false_eq_true, if_false]
    split_ifs
    · simp
    · cases Quote.opened? aware c <;> simp
  | directive => simp [Mode.after, hc]
  | literal q =>
    simp only [Mode.after]
    split_ifs <;> simp

/-- Only a `#` in fresh code opens a directive. -/
theorem after_ne_directive {c : Char} {mode : Mode} (hmode : mode ≠ .directive)
    (hc : mode = .code true → c ≠ '#') : mode.after aware c ≠ .directive := by
  cases mode with
  | code fresh =>
    have hhash : ¬ (c = '#' ∧ fresh = true) := fun h => hc (by rw [h.2]) h.1
    simp only [Mode.after, hhash, if_false]
    split_ifs
    · simp
    · cases Quote.opened? aware c <;> simp
  | directive => exact absurd rfl hmode
  | literal q =>
    simp only [Mode.after]
    split_ifs <;> simp

theorem after_spaced_newline (mode : Mode) {c : Char} (hc : c ≠ '#') :
    mode.newline.spaced.after aware c = mode.newline.after aware c := by
  cases mode with
  | literal q => rfl
  | _ => exact after_code_congr hc false true

theorem Mode.spaced_of_ne_fresh {mode : Mode} (h : mode ≠ .code true) : mode.spaced = mode := by
  cases mode with
  | code fresh =>
    cases fresh with
    | false => rfl
    | true => exact absurd rfl h
  | _ => rfl

/-- Of all modes only a directive does not go on behind a line end as behind a blank. -/
theorem Mode.spaced_newline_iff {mode : Mode} :
    mode.newline.spaced = mode.spaced ↔ mode ≠ .directive := by
  cases mode <;> simp [Mode.newline, Mode.spaced]

@[simp] theorem Mode.isCode_spaced (mode : Mode) : mode.spaced.isCode = mode.isCode := by
  cases mode <;> rfl

end Modes

def State.spaced (s : State) : State := ⟨s.mode.spaced, false⟩

theorem step_blank (s : State) {c : Char} (hc : Text.isBlank c = true) :
    step aware s c = some s.spaced := by
  have hmark : completesMarker c = false := by
    have hcase : c = ' ' ∨ c = '\t' := by simpa [Text.isBlank] using hc
    rcases hcase with rfl | rfl <;> rfl
  rw [step_of_not_marker s hmark, Mode.after_blank aware s.mode hc, State.spaced]

/-- The automaton as a reader that notes nothing. Where it stops it has no state any more. -/
def automaton (aware : Bool) : Reader (Option State) Empty where
  next s c := s.bind fun u => step aware u c
  note _ _ := []

theorem automaton_read (s : State) (t : Text) :
    ((automaton aware).read (some s) t).2 = run aware s t := by
  have hnone : ∀ t, ((automaton aware).read none t).2 = none := by
    intro t
    induction t with
    | nil => rfl
    | cons c t ih => exact ih
  induction t generalizing s with
  | nil => rfl
  | cons c t ih =>
    have hstep : ((automaton aware).read (some s) (c :: t)).2 =
        ((automaton aware).read (step aware s c) t).2 := rfl
    rw [hstep, run]
    cases step aware s c with
    | none => exact hnone t
    | some u => exact ih u

theorem automaton_newline (s : Option State) :
    (automaton aware).newline s = s.map State.newline := by
  cases s with
  | none => rfl
  | some u => exact step_line_end u (by decide)

theorem automaton_spaced (s : Option State) : (automaton aware).spaced s = s.map State.spaced := by
  cases s with
  | none => rfl
  | some u => exact step_blank u (by decide)

theorem automaton_joins_iff {s : Option State} :
    (automaton aware).Joins s ↔ ∀ u ∈ s, u.mode ≠ .directive := by
  rw [Reader.Joins, automaton_newline, automaton_spaced, automaton_spaced]
  cases s with
  | none => simp
  | some u => simp [State.spaced, State.newline, Mode.spaced_newline_iff]

theorem automaton_next_eq_some {s : Option State} {c : Char} {u : State}
    (h : (automaton aware).next s c = some u) : ∃ v ∈ s, step aware v c = some u := by
  obtain ⟨v, hv, hstep⟩ := Option.bind_eq_some_iff.mp h
  exact ⟨v, hv, hstep⟩

/-- A blank behind a character that is no line end matters only to a marker. -/
theorem step_spaced {s u : State} {l c : Char} (h : step aware s l = some u)
    (hl : Text.isLineEnd l = false) (hmarker : Layout.formsMarker (some l) [c] = false) :
    step aware u.spaced c = step aware u c := by
  obtain ⟨hmode, hslash⟩ := step_eq_some h
  have hfresh : u.mode ≠ .code true := by
    rw [hmode]
    exact after_ne_fresh hl s.mode
  have hmark : (u.slash && completesMarker c) = false := by
    rw [hslash]
    by_cases hl : l = '/'
    · have hc : completesMarker c = false := by
        simpa [hl, Layout.formsMarker, completesMarker] using hmarker
      simp [hc]
    · simp [hl]
  simp [step, State.spaced, Mode.spaced_of_ne_fresh hfresh, hmark]

theorem automaton_blind : (automaton aware).Blind where
  line_end s c hc := by
    refine ⟨?_, rfl⟩
    rw [automaton_newline]
    cases s with
    | none => rfl
    | some u => exact step_line_end u hc
  blank s c hc := by
    refine ⟨?_, rfl⟩
    rw [automaton_spaced]
    cases s with
    | none => rfl
    | some u => exact step_blank u hc
  newline_newline s := by
    cases s <;> simp [automaton_newline]
  newline_spaced s := by
    cases s <;> simp [automaton_newline, automaton_spaced, State.newline, State.spaced]
  spaced_spaced s := by
    cases s <;> simp [automaton_spaced, State.spaced]
  line_start s c _ hhash := by
    refine ⟨?_, rfl⟩
    rw [automaton_newline, automaton_spaced]
    cases s with
    | none => rfl
    | some u =>
      have hafter : u.mode.newline.spaced.after aware c = _ := after_spaced_newline u.mode hhash
      simp [automaton, step, State.newline, State.spaced, hafter]
  gap s l c hl _ hmarker := by
    refine ⟨?_, rfl⟩
    rw [automaton_spaced]
    cases hnext : (automaton aware).next s l with
    | none => rfl
    | some u =>
      obtain ⟨v, _, hstep⟩ := automaton_next_eq_some hnext
      exact step_spaced hstep (Text.isInk_iff.mp hl).2 hmarker
  joins s c hs _ hhash := by
    rw [automaton_joins_iff] at hs ⊢
    intro u hu
    obtain ⟨v, hv, hstep⟩ := automaton_next_eq_some hu
    rw [(step_eq_some hstep).1]
    exact after_ne_directive (hs v hv) fun _ => hhash
  joins_hash s l hs hl := by
    rw [automaton_joins_iff] at hs ⊢
    intro u hu
    obtain ⟨v, hv, hstep⟩ := automaton_next_eq_some hu
    obtain ⟨w, _, hlast⟩ := automaton_next_eq_some hv
    rw [(step_eq_some hstep).1]
    apply after_ne_directive (hs v hv)
    intro hfresh
    rw [(step_eq_some hlast).1] at hfresh
    exact absurd hfresh (after_ne_fresh hl w.mode)

/-- A text and its layout end alike, up to a line end. -/
theorem run_arrange (t : Text) :
    (run aware .start (Layout.arrange t)).map State.newline =
      (run aware .start t).map State.newline := by
  have hend : ∀ u : Text, ((automaton aware).read (some .start) (u ++ ['\n'])).2 =
      (run aware .start u).map State.newline := by
    intro u
    rw [automaton_read, run_append]
    cases run aware .start u with
    | none => rfl
    | some v => simp [run, step_line_end v (show Text.isLineEnd '\n' = true by decide)]
  have hstart : (automaton aware).newline (some .start) = some .start := automaton_newline _
  rw [← hend, ← hend t, automaton_blind.read_arrange hstart]

end CharacterScan

/-- Layout makes no comments, and hides none. -/
theorem arrange_comment_free_iff (aware : Bool) (t : Text) :
    CommentFree aware (Layout.arrange t) ↔ CommentFree aware t := by
  have hends : (CharacterScan.run aware .start (Layout.arrange t)).map _ = _ :=
    CharacterScan.run_arrange t
  have hsome := congrArg Option.isSome hends
  simp only [Option.isSome_map] at hsome
  rw [CommentFree, CommentFree, hsome]

end SqfMinifier
