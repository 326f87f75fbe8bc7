import SqfMinifier.Proofs.CharacterScan

/-!
Texts in which the scan meets no comment, as the language of a small automaton. Its state is what
the last character belongs to and whether it was a slash in code, and it stops at a character
that would complete a comment marker. Comment removal leaves exactly such texts behind, and it
leaves them as they are.
-/

namespace SqfMinifier

namespace CharacterScan

namespace Mode

def isCode : Mode → Bool
  | code _ => true
  | _ => false

def newline : Mode → Mode
  | literal q => literal q
  | _ => code true

/-- The mode behind a blank: code that had not begun its line now has. -/
def spaced : Mode → Mode
  | code _ => code false
  | mode => mode

theorem after_line_end (aware : Bool) (mode : Mode) {c : Char} (hc : Text.isLineEnd c = true) :
    mode.after aware c = mode.newline := by
  cases mode with
  | code fresh => simp [after, newline, hc]
  | directive => simp [after, newline, hc]
  | literal q =>
    have hq : c ≠ q.char := by
      rintro rfl
      simp [Quote.char_not_line_end] at hc
    simp [after, newline, hq]

theorem after_blank (aware : Bool) (mode : Mode) {c : Char} (hc : Text.isBlank c = true) :
    mode.after aware c = mode.spaced := by
  have hcase : c = ' ' ∨ c = '\t' := by simpa [Text.isBlank] using hc
  cases mode with
  | code fresh =>
    rcases hcase with rfl | rfl <;>
      simp [after, spaced, Text.isLineEnd, Quote.opened?, Quote.ofChar?]
  | directive => rcases hcase with rfl | rfl <;> rfl
  | literal q => rcases hcase with rfl | rfl <;> cases q <;> rfl

@[simp] theorem newline_newline (mode : Mode) : mode.newline.newline = mode.newline := by
  cases mode <;> rfl

theorem after_ne_literal {mode : Mode} (h : ∀ q, mode ≠ literal q) (c : Char) (q : Quote) :
    mode.after false c ≠ literal q := by
  cases mode with
  | literal q => exact absurd rfl (h q)
  | code fresh =>
    simp only [after, Quote.opened?, Bool.false_eq_true, if_false]
    split_ifs <;> simp
  | directive =>
    simp only [after]
    split_ifs <;> simp

@[simp] theorem newline_spaced (mode : Mode) : mode.spaced.newline = mode.newline := by
  cases mode <;> rfl

@[simp] theorem spaced_spaced (mode : Mode) : mode.spaced.spaced = mode.spaced := by
  cases mode <;> rfl

end Mode

structure State where
  mode : Mode
  slash : Bool
  deriving DecidableEq, Repr

def State.start : State := ⟨.code true, false⟩

def State.newline (s : State) : State := ⟨s.mode.newline, false⟩

def completesMarker (c : Char) : Bool := c == '/' || c == '*'

def step (aware : Bool) (s : State) (c : Char) : Option State :=
  if s.slash && completesMarker c then none
  else some ⟨s.mode.after aware c, s.mode.isCode && c == '/'⟩

def run (aware : Bool) : State → Text → Option State
  | s, [] => some s
  | s, c :: rest => (step aware s c).bind fun u => run aware u rest

end CharacterScan

/-- The scan of this text meets no comment. -/
def CommentFree (aware : Bool) (t : Text) : Prop :=
  (CharacterScan.run aware .start t).isSome = true

instance (aware : Bool) (t : Text) : Decidable (CommentFree aware t) :=
  inferInstanceAs (Decidable (_ = _))

namespace CharacterScan

variable {aware : Bool}

@[simp] theorem State.newline_newline (s : State) : s.newline.newline = s.newline := by
  simp [State.newline]

@[simp] theorem run_nil (s : State) : run aware s [] = some s := rfl

theorem run_append (s : State) (a b : Text) :
    run aware s (a ++ b) = (run aware s a).bind fun u => run aware u b := by
  induction a generalizing s with
  | nil => rfl
  | cons c a ih =>
    simp only [List.cons_append, run]
    cases step aware s c with
    | none => rfl
    | some u => exact ih u

theorem step_eq_some {s u : State} {c : Char} (h : step aware s c = some u) :
    u.mode = s.mode.after aware c ∧ u.slash = (s.mode.isCode && c == '/') := by
  unfold step at h
  split at h
  · cases h
  · cases h; exact ⟨rfl, rfl⟩

theorem step_of_not_marker (s : State) {c : Char} (hc : completesMarker c = false) :
    step aware s c = some ⟨s.mode.after aware c, false⟩ := by
  have hslash : (c == '/') = false := (Bool.or_eq_false_iff.mp hc).1
  simp [step, hc, hslash]

theorem step_line_end (s : State) {c : Char} (hc : Text.isLineEnd c = true) :
    step aware s c = some s.newline := by
  have hmark : completesMarker c = false := by
    have hcase : c = '\r' ∨ c = '\n' := by simpa [Text.isLineEnd] using hc
    rcases hcase with rfl | rfl <;> rfl
  rw [step_of_not_marker s hmark, Mode.after_line_end aware s.mode hc, State.newline]

/-- Whether a slash came last matters only to what completes a marker. -/
theorem run_slash {mode : Mode} {c : Char} (hc : completesMarker c = false) (slash : Bool)
    (rest : Text) :
    run aware ⟨mode, slash⟩ (c :: rest) = run aware ⟨mode, false⟩ (c :: rest) := by
  simp [run, step, hc]

theorem run_slash_isSome {mode : Mode} {t : Text}
    (h : ∀ c ∈ t.head?, completesMarker c = false) :
    (run aware ⟨mode, true⟩ t).isSome = (run aware ⟨mode, false⟩ t).isSome := by
  cases t with
  | nil => rfl
  | cons c rest => rw [run_slash (h c rfl)]

theorem copy_of_run {s u : State} {t : Text} (h : run aware s t = some u) :
    copy aware (.copying s.mode) t = t := by
  induction t generalizing s with
  | nil => simp
  | cons c rest ih =>
    obtain ⟨v, hstep, hrest⟩ := Option.bind_eq_some_iff.mp h
    have hmode := step_eq_some hstep
    have htail := ih hrest
    rw [hmode.1] at htail
    cases hm : s.mode with
    | directive => rw [copy_directive_cons, ← hm, htail]
    | literal q => rw [copy_literal_cons, ← hm, htail]
    | code fresh =>
      have hopen : ¬ OpensComment c rest := by
        rintro ⟨rfl, hnext⟩
        have hslash : v.slash = true := by simp [hmode.2, hm, Mode.isCode]
        rcases hnext with hnext | hnext <;>
          · obtain ⟨tail, rfl⟩ := List.head?_eq_some_iff.mp hnext
            simp [run, step, hslash, completesMarker] at hrest
      rw [copy_code_cons hopen, ← hm, htail]

/-- Where the automaton may stand when the scan is at a place. Behind a line comment the line
ends, so what its code was does not count. -/
def Place.Fits : Place → State → Prop
  | .copying mode, s => s = ⟨mode, false⟩
  | .lineComment, s => ∃ fresh, s = ⟨.code fresh, false⟩
  | .blockComment fresh, s => s = ⟨.code fresh, false⟩

/-- Behind a lone slash the scan copies the next character, which completes no marker. -/
theorem copy_head_after_slash {fresh : Bool} {t : Text}
    (h : ∀ c ∈ t.head?, completesMarker c = false) :
    ∀ c ∈ (copy aware (.copying (.code fresh)) t).head?, completesMarker c = false := by
  cases t with
  | nil => simp
  | cons c rest =>
    have hc := h c rfl
    have hslash : c ≠ '/' := by
      rintro rfl
      simp [completesMarker] at hc
    rw [copy_code_cons (not_opens_comment hslash rest)]
    simpa using hc

theorem run_copy_isSome (place : Place) (t : Text) {s : State} (h : place.Fits s) :
    (run aware s (copy aware place t)).isSome = true := by
  fun_induction copy aware place t generalizing s with
  | case1 => rfl
  | case2 fresh rest ih => exact ih ⟨fresh, h⟩
  | case3 fresh rest ih => exact ih h
  | case4 mode c rest hline hblock ih =>
    obtain rfl : s = ⟨mode, false⟩ := h
    simp only [run, step, Bool.false_and, Bool.false_eq_true, if_false, Option.bind_some]
    by_cases hslash : (mode.isCode && c == '/') = true
    · obtain ⟨fresh, rfl, rfl⟩ : ∃ fresh, mode = .code fresh ∧ c = '/' := by
        cases mode <;> simp_all [Mode.isCode]
      have hnext : ∀ d ∈ rest.head?, completesMarker d = false := by
        intro d hd
        obtain ⟨tail, rfl⟩ := List.head?_eq_some_iff.mp hd
        have hslash : d ≠ '/' := by
          rintro rfl
          exact hline fresh tail rfl rfl rfl
        have hstar : d ≠ '*' := by
          rintro rfl
          exact hblock fresh tail rfl rfl rfl
        simp [completesMarker, hslash, hstar]
      have hmode := after_code_slash aware fresh
      rw [hslash, hmode, run_slash_isSome (copy_head_after_slash hnext), ← hmode]
      exact ih rfl
    · rw [Bool.not_eq_true] at hslash
      rw [hslash]
      exact ih rfl
  | case5 c rest hc ih =>
    obtain ⟨fresh, rfl⟩ := h
    simp only [run, step_line_end _ hc, Option.bind_some]
    exact ih rfl
  | case6 c rest _ ih => exact ih h
  | case7 fresh rest ih => exact ih h
  | case8 fresh c rest _ ih => exact ih h

end CharacterScan

theorem removeComments_comment_free (aware : Bool) (source : Text) :
    CommentFree aware (removeComments aware source) := by
  have hcopy : removeComments aware source = _ := CharacterScan.kept_pieces aware true source
  rw [CommentFree, hcopy]
  exact CharacterScan.run_copy_isSome _ _ rfl

theorem removeComments_of_comment_free {aware : Bool} {t : Text} (h : CommentFree aware t) :
    removeComments aware t = t := by
  obtain ⟨u, hu⟩ := Option.isSome_iff_exists.mp h
  have hcopy : removeComments aware t = _ := CharacterScan.kept_pieces aware true t
  exact hcopy.trans (CharacterScan.copy_of_run hu)

end SqfMinifier
