import SqfMinifier.Proofs.LayoutScan

/-!
The texts that minifying can give. Where literals are not respected they are exactly the normal
texts: tidy, and without comment markers outside directive lines. Where literals are respected
the output is tidy too, and in both cases a second run changes nothing.
-/

namespace SqfMinifier

/-- A tidy text whose code lines hold no comment marker. -/
structure Normal (y : Text) : Prop extends Layout.Tidy y where
  noMarker : ∀ line ∈ Text.split '\n' y, Layout.startsDirective line = false →
    ¬ Text.Adjoins '/' '/' line ∧ ¬ Text.Adjoins '/' '*' line

namespace CharacterScan

theorem run_directive {aware : Bool} {t : Text} (hfree : Text.LineFree t) :
    run aware ⟨.directive, false⟩ t = some ⟨.directive, false⟩ := by
  induction t with
  | nil => rfl
  | cons c rest ih =>
    obtain ⟨hc, hrest⟩ := Text.line_free_cons.mp hfree
    have hstep : step aware ⟨.directive, false⟩ c = some ⟨.directive, false⟩ := by
      simp [step, Mode.after, Mode.isCode, hc]
    rw [run, hstep]
    exact ih hrest

/-- Where literals are not respected, code is read to the end unless it holds a marker. -/
theorem run_code_isSome_iff {line : Text} (hfree : Text.LineFree line) {fresh slash : Bool}
    (hhead : fresh = true → line.head? ≠ some '#') :
    (run false ⟨.code fresh, slash⟩ line).isSome = true ↔
      (slash = true → ∀ c ∈ line.head?, completesMarker c = false) ∧
        ¬ Text.Adjoins '/' '/' line ∧ ¬ Text.Adjoins '/' '*' line := by
  induction line generalizing fresh slash with
  | nil => simp
  | cons c rest ih =>
    obtain ⟨hend, htail⟩ := Text.line_free_cons.mp hfree
    have hmode : Mode.after false (.code fresh) c = .code false := by
      refine after_code_plain hend ?_ rfl
      intro e
      cases fresh with
      | false => rfl
      | true => exact absurd (by rw [e]; rfl) (hhead rfl)
    have hrest : (run false ⟨.code false, c == '/'⟩ rest).isSome = true ↔ _ :=
      ih htail (by simp)
    rw [Text.adjoins_cons, Text.adjoins_cons, run, step, hmode]
    by_cases hmark : (slash && completesMarker c) = true
    · have hslash : slash = true ∧ completesMarker c = true := by simpa using hmark
      simp [hslash.1, hslash.2]
    · have hslash : slash = true → ∀ d ∈ (c :: rest).head?, completesMarker d = false := by
        intro h d hd
        cases hd
        simpa [h] using hmark
      have hnext : ((c == '/') = true → ∀ d ∈ rest.head?, completesMarker d = false) ↔
          ¬ (c = '/' ∧ rest.head? = some '/') ∧ ¬ (c = '/' ∧ rest.head? = some '*') := by
        by_cases hc : c = '/' <;> cases rest <;> simp [hc, completesMarker]
      rw [if_neg hmark, Option.bind_some, not_or, not_or]
      rw [hnext] at hrest
      refine hrest.trans ⟨?_, ?_⟩
      · rintro ⟨⟨hline, hblock⟩, hlines, hblocks⟩
        exact ⟨hslash, ⟨hline, hlines⟩, hblock, hblocks⟩
      · rintro ⟨_, ⟨hline, hlines⟩, hblock, hblocks⟩
        exact ⟨⟨hline, hblock⟩, hlines, hblocks⟩

theorem run_line_isSome_iff {line : Text} (hfree : Text.LineFree line) :
    (run false .start line).isSome = true ↔
      (Layout.startsDirective line = false →
        ¬ Text.Adjoins '/' '/' line ∧ ¬ Text.Adjoins '/' '*' line) := by
  cases hd : Layout.startsDirective line with
  | true =>
    obtain ⟨rest, rfl⟩ := List.head?_eq_some_iff.mp (by simpa [Layout.startsDirective] using hd)
    have hopen : run false .start ('#' :: rest) = run false ⟨.directive, false⟩ rest := rfl
    rw [hopen, run_directive (Text.line_free_cons.mp hfree).2]
    simp
  | false =>
    have hhead : line.head? ≠ some '#' := by simpa [Layout.startsDirective] using hd
    have hcode : (run false ⟨.code true, false⟩ line).isSome = true ↔ _ :=
      run_code_isSome_iff hfree fun _ => hhead
    simpa [State.start] using hcode

/-- Without literals every line begins as the text does. -/
theorem run_newline_start {s u : State} {t : Text} (h : run false s t = some u)
    (hs : ∀ q, s.mode ≠ .literal q) : u.newline = .start := by
  induction t generalizing s with
  | nil =>
    obtain rfl : s = u := Option.some.inj h
    cases hm : s.mode with
    | literal q => exact absurd hm (hs q)
    | code fresh => simp [State.newline, Mode.newline, State.start, hm]
    | directive => simp [State.newline, Mode.newline, State.start, hm]
  | cons c rest ih =>
    obtain ⟨v, hstep, hrest⟩ := Option.bind_eq_some_iff.mp h
    apply ih hrest
    rw [(step_eq_some hstep).1]
    exact Mode.after_ne_literal hs c

def runLines (aware : Bool) : State → List Text → Option State
  | s, [] => some s
  | s, line :: rest => (run aware s line).bind fun u => runLines aware u.newline rest

theorem runLines_split {aware : Bool} {sep : Char} (hsep : Text.isLineEnd sep = true) (s : State)
    (t : Text) :
    runLines aware s (Text.split sep t) = (run aware s t).map State.newline := by
  induction t generalizing s with
  | nil => rfl
  | cons c rest ih =>
    rw [Text.split, run]
    by_cases hc : c = sep
    · rw [if_pos hc, step_line_end s (hc ▸ hsep)]
      exact ih s.newline
    · rw [if_neg hc]
      cases hs : Text.split sep rest with
      | nil => exact absurd hs (Text.split_ne_nil sep rest)
      | cons piece pieces =>
        simp only [runLines, run]
        cases step aware s c with
        | none => rfl
        | some u => simpa [hs, runLines] using ih u

theorem runLines_isSome_iff (lines : List Text) :
    (runLines false .start lines).isSome = true ↔
      ∀ l ∈ lines, (run false .start l).isSome = true := by
  induction lines with
  | nil => simp [runLines]
  | cons line rest ih =>
    rw [runLines, List.forall_mem_cons, ← ih]
    cases hu : run false .start line with
    | none => simp
    | some u =>
      have hstart := run_newline_start hu (by simp [State.start])
      simp [hstart]

end CharacterScan

/-- Without literals, freedom from comments can be told line by line. -/
theorem comment_free_iff_lines {y : Text} (hreturn : '\r' ∉ y) :
    CommentFree false y ↔
      ∀ line ∈ Text.split '\n' y, Layout.startsDirective line = false →
        ¬ Text.Adjoins '/' '/' line ∧ ¬ Text.Adjoins '/' '*' line := by
  have hlines : CharacterScan.runLines false .start (Text.split '\n' y) = _ :=
    CharacterScan.runLines_split (by decide) .start y
  have hsplit := congrArg Option.isSome hlines
  rw [Option.isSome_map] at hsplit
  rw [CommentFree, ← hsplit, CharacterScan.runLines_isSome_iff]
  apply forall₂_congr
  intro line hline
  exact CharacterScan.run_line_isSome_iff (Text.line_free_of_mem_split hreturn hline)

theorem minify_tidy (aware : Bool) (source : Text) : Layout.Tidy (minify aware source) :=
  Layout.arrange_tidy (removeComments aware source)

theorem minify_comment_free (aware : Bool) (source : Text) :
    CommentFree aware (minify aware source) :=
  (arrange_comment_free_iff aware _).mpr (removeComments_comment_free aware source)

theorem minify_of_tidy {aware : Bool} {y : Text} (htidy : Layout.Tidy y)
    (hfree : CommentFree aware y) : minify aware y = y := by
  have hlayout : minify aware y = Layout.arrange (removeComments aware y) := rfl
  rw [hlayout, removeComments_of_comment_free hfree, Layout.arrange_of_tidy htidy]

/-- A second run changes nothing, whether or not literals are respected. -/
theorem minify_idempotent (aware : Bool) (source : Text) :
    minify aware (minify aware source) = minify aware source :=
  minify_of_tidy (minify_tidy aware source) (minify_comment_free aware source)

theorem normal_iff (y : Text) : Normal y ↔ Layout.Tidy y ∧ CommentFree false y := by
  constructor
  · intro h
    exact ⟨h.toTidy, (comment_free_iff_lines h.noReturn).mpr h.noMarker⟩
  · rintro ⟨htidy, hfree⟩
    exact ⟨htidy, (comment_free_iff_lines htidy.noReturn).mp hfree⟩

/-- The normal texts are exactly what minifying gives where literals are not respected; where
they are, the output is tidy all the same. -/
theorem minify_range :
    (∀ y : Text, (∃ source, minify false source = y) ↔ Normal y) ∧
      ∀ source : Text, Layout.Tidy (minify true source) := by
  refine ⟨fun y => ?_, minify_tidy true⟩
  rw [normal_iff]
  constructor
  · rintro ⟨source, rfl⟩
    exact ⟨minify_tidy false source, minify_comment_free false source⟩
  · rintro ⟨htidy, hfree⟩
    exact ⟨y, minify_of_tidy htidy hfree⟩

end SqfMinifier
