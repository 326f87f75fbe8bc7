import SqfMinifier.Proofs.LineLayout

/-!
Layout as a reader sees it that goes over a text one character at a time, keeps a state and notes
things down. Layout moves line ends and drops blanks. A reader that is blind to these, but for the
places that layout itself looks after, notes the same of a text and of its layout. Whether a reader
is blind can be told from what it does on one character, or on two in a row.
-/

namespace SqfMinifier

namespace Text

def isInk (c : Char) : Bool := !(isBlank c || isLineEnd c)

theorem isInk_iff {c : Char} : isInk c = true ↔ isBlank c = false ∧ isLineEnd c = false := by
  simp [isInk]

def feedLines (lines : List Text) : Text := lines.flatMap (· ++ ['\n'])

@[simp] theorem feedLines_nil : feedLines [] = [] := rfl

@[simp] theorem feedLines_cons (line : Text) (rest : List Text) :
    feedLines (line :: rest) = line ++ '\n' :: feedLines rest := by
  simp [feedLines]

end Text

structure Reader (σ α : Type) where
  next : σ → Char → σ
  note : σ → Char → List α

namespace Reader

variable {σ α : Type}

def read (R : Reader σ α) : σ → Text → List α × σ
  | s, [] => ([], s)
  | s, c :: rest => (R.read (R.next s c) rest).map (R.note s c ++ ·) id

def newline (R : Reader σ α) (s : σ) : σ := R.next s '\n'

def spaced (R : Reader σ α) (s : σ) : σ := R.next s ' '

def Skips (R : Reader σ α) (s : σ) (c : Char) (u : σ) : Prop := R.next s c = u ∧ R.note s c = []

def Agree (R : Reader σ α) (s u : σ) (c : Char) : Prop :=
  R.next s c = R.next u c ∧ R.note s c = R.note u c

/-- A line may be joined to the text so far: a line end goes unnoticed if a blank follows. -/
def Joins (R : Reader σ α) (s : σ) : Prop := R.spaced (R.newline s) = R.spaced s

/-- A reader that notices a blank or a line end only where it keeps a comment marker apart, and
where a `#` comes first on its line. -/
structure Blind (R : Reader σ α) : Prop where
  line_end : ∀ s c, Text.isLineEnd c = true → R.Skips s c (R.newline s)
  blank : ∀ s c, Text.isBlank c = true → R.Skips s c (R.spaced s)
  newline_newline : ∀ s, R.newline (R.newline s) = R.newline s
  newline_spaced : ∀ s, R.newline (R.spaced s) = R.newline s
  spaced_spaced : ∀ s, R.spaced (R.spaced s) = R.spaced s
  line_start : ∀ s c, Text.isInk c = true → c ≠ '#' →
    R.Agree (R.spaced (R.newline s)) (R.newline s) c
  gap : ∀ s l c, Text.isInk l = true → Text.isInk c = true →
    Layout.formsMarker (some l) [c] = false → R.Agree (R.spaced (R.next s l)) (R.next s l) c
  joins : ∀ s c, R.Joins s → Text.isInk c = true → c ≠ '#' → R.Joins (R.next s c)
  joins_hash : ∀ s l, R.Joins (R.next s l) → Text.isLineEnd l = false →
    R.Joins (R.next (R.next s l) '#')

section Reading

variable {R : Reader σ α}

@[simp] theorem read_nil (s : σ) : R.read s [] = ([], s) := rfl

theorem read_append (s : σ) (a b : Text) :
    R.read s (a ++ b) = (R.read (R.read s a).2 b).map ((R.read s a).1 ++ ·) id := by
  induction a generalizing s with
  | nil => rfl
  | cons c a ih =>
    rw [List.cons_append, read, ih, read]
    simp [Prod.map]

theorem read_skip {s u : σ} {c : Char} (h : R.Skips s c u) (t : Text) :
    R.read s (c :: t) = R.read u t := by
  rw [read, h.1, h.2]
  rfl

theorem read_agree {s u : σ} {c : Char} (h : R.Agree s u c) (t : Text) :
    R.read s (c :: t) = R.read u (c :: t) := by
  rw [read, read, h.1, h.2]

theorem read_append_right {s u : σ} {a b : Text} (h : R.read s a = R.read u b) (t : Text) :
    R.read s (a ++ t) = R.read u (b ++ t) := by
  rw [read_append, read_append, h]

theorem read_append_left {s : σ} {a t u : Text}
    (h : R.read (R.read s a).2 t = R.read (R.read s a).2 u) :
    R.read s (a ++ t) = R.read s (a ++ u) := by
  rw [read_append, read_append, h]

end Reading

inductive Follows (R : Reader σ α) : Option Char → σ → Prop where
  | start {s : σ} (h : R.newline s = s) : Follows R none s
  | feed (s : σ) : Follows R (some '\n') (R.newline s)
  | char (s : σ) {c : Char} (hc : Text.isLineEnd c = false) : Follows R (some c) (R.next s c)

namespace Blind

variable {R : Reader σ α}

theorem joins_newline (hR : R.Blind) (s : σ) : R.Joins (R.newline s) := by
  rw [Joins, hR.newline_newline]

theorem read_line_end (hR : R.Blind) (s : σ) {c : Char} (hc : Text.isLineEnd c = true) (t : Text) :
    R.read s (c :: t) = R.read (R.newline s) t :=
  read_skip (hR.line_end s c hc) t

theorem read_feed (hR : R.Blind) (s : σ) (t : Text) :
    R.read s ('\n' :: t) = R.read (R.newline s) t :=
  hR.read_line_end s (by decide) t

/-- A gap counts for nothing unless it keeps a marker apart or a `#` from the start of its line. -/
theorem read_spaced (hR : R.Blind) {last : Option Char} {s : σ} {c : Char} {t : Text}
    (h : R.Follows last s) (hc : Text.isLineEnd c = false)
    (hmarker : Layout.formsMarker last (c :: t) = false)
    (hhash : c = '#' → ∃ l ∈ last, Text.isLineEnd l = false) (u : Text) :
    R.read (R.spaced s) (c :: u) = R.read s (c :: u) := by
  by_cases hblank : Text.isBlank c = true
  · rw [read_skip (hR.blank _ c hblank), read_skip (hR.blank _ c hblank), hR.spaced_spaced]
  have hink : Text.isInk c = true := by simp [Text.isInk, hblank, hc]
  apply read_agree
  cases h with
  | start hs =>
    have hne : c ≠ '#' := by
      intro e
      obtain ⟨l, hl, _⟩ := hhash e
      cases hl
    rw [← hs]
    exact hR.line_start s c hink hne
  | feed s =>
    have hne : c ≠ '#' := by
      intro e
      obtain ⟨l, hl, hend⟩ := hhash e
      cases hl
      simp [Text.isLineEnd] at hend
    exact hR.line_start s c hink hne
  | @char s l hl =>
    by_cases hblank : Text.isBlank l = true
    · rw [(hR.blank s l hblank).1, hR.spaced_spaced]
      exact ⟨rfl, rfl⟩
    · have hlast : Text.isInk l = true := by simp [Text.isInk, hblank, hl]
      exact hR.gap s l c hlast hink hmarker

section Collapsing

theorem read_gap (hR : R.Blind) (s : σ) {c : Char} (hc : Text.isBlank c = true) (rest t : Text) :
    R.read s (c :: rest ++ t) = R.read (R.spaced s) (rest.dropWhile Text.isBlank ++ t) := by
  rw [List.cons_append, read_skip (hR.blank s c hc)]
  induction rest with
  | nil => rfl
  | cons d rest ih =>
    by_cases hd : Text.isBlank d = true
    · rw [List.cons_append, read_skip (hR.blank _ d hd), hR.spaced_spaced, ih,
        List.dropWhile_cons_of_pos hd]
    · rw [List.dropWhile_cons_of_neg hd]

theorem read_collapseFrom (hR : R.Blind) {line : Text} (hfree : Text.LineFree line)
    {last : Option Char} {s : σ} (h : R.Follows last s)
    (hlast : ∀ l ∈ last, Text.isLineEnd l = false) :
    R.read s (Layout.collapseFrom last line ++ ['\n']) = R.read s (line ++ ['\n']) := by
  fun_induction Layout.collapseFrom last line generalizing s with
  | case1 => rfl
  | case2 last c rest hc after hempty =>
    have hnone : rest.dropWhile Text.isBlank = [] := List.isEmpty_iff.mp hempty
    rw [hR.read_gap s hc, hnone, List.nil_append, hR.read_feed, hR.read_feed, hR.newline_spaced]
  | case3 last c rest hc after hafter hkeep ih =>
    have hrest := (Text.line_free_cons.mp hfree).2.dropWhile Text.isBlank
    rw [hR.read_gap s hc, List.cons_append, read_skip (hR.blank s ' ' (by decide))]
    exact ih hrest (.char s (by decide)) (by simp [Text.isLineEnd])
  | case4 last c rest hc after hafter hkeep ih =>
    have hrest := (Text.line_free_cons.mp hfree).2.dropWhile Text.isBlank
    obtain ⟨d, tail, hd, _⟩ := Layout.after_run_cases rest hafter
    rw [hR.read_gap s hc, ih hrest h hlast]
    rw [Bool.not_eq_true, show after = d :: tail from hd] at hkeep
    simp only [Layout.keepsSpace, Bool.or_eq_false_iff] at hkeep
    obtain ⟨⟨_, hmarker⟩, hhash⟩ := hkeep
    rw [show after = d :: tail from hd, hd]
    refine (hR.read_spaced h ?_ hmarker ?_ _).symm
    · apply hrest
      simp [hd]
    · rintro rfl
      cases last with
      | none => simp [Layout.startsDirective] at hhash
      | some l => exact ⟨l, rfl, hlast l rfl⟩
  | case5 last c rest hc ih =>
    obtain ⟨hend, hrest⟩ := Text.line_free_cons.mp hfree
    rw [List.cons_append, List.cons_append, read, read]
    rw [ih hrest (.char s hend)]
    intro l hl
    cases hl
    exact hend

theorem read_collapseLines (hR : R.Blind) {s : σ} (hs : R.newline s = s) {lines : List Text}
    (hfree : ∀ l ∈ lines, Text.LineFree l) :
    R.read s (Text.feedLines (lines.map Layout.collapseLine)) =
      R.read s (Text.feedLines lines) := by
  induction lines generalizing s with
  | nil => rfl
  | cons line rest ih =>
    obtain ⟨hline, hlines⟩ := List.forall_mem_cons.mp hfree
    have hfirst : R.read s (Layout.collapseLine line ++ ['\n']) = R.read s (line ++ ['\n']) :=
      hR.read_collapseFrom hline (.start hs) (by simp)
    have happ := read_append_right hfirst (Text.feedLines (rest.map Layout.collapseLine))
    simp only [List.append_assoc, List.singleton_append] at happ
    rw [List.map_cons, Text.feedLines_cons, Text.feedLines_cons, happ]
    apply read_append_left
    rw [hR.read_feed, hR.read_feed, ih (hR.newline_newline _) hlines]

theorem read_squeeze (hR : R.Blind) {s : σ} (hs : R.newline s = s) (lines : List Text) :
    R.read s (Text.feedLines (Layout.squeeze lines)) = R.read s (Text.feedLines lines) := by
  fun_induction Layout.squeeze lines generalizing s with
  | case1 => rfl
  | case2 => rfl
  | case3 line next rest hempty ih =>
    obtain rfl : line = [] := List.isEmpty_iff.mp hempty
    rw [ih hs, Text.feedLines_cons [], List.nil_append, hR.read_feed, hs]
  | case4 line next rest _ ih =>
    rw [Text.feedLines_cons, Text.feedLines_cons]
    apply read_append_left
    rw [hR.read_feed, hR.read_feed, ih (hR.newline_newline _)]

end Collapsing

section Joining

theorem joins_next (hR : R.Blind) {s : σ} {c : Char} (h : R.Joins s)
    (hc : Text.isLineEnd c = false) (hhash : c ≠ '#') : R.Joins (R.next s c) := by
  by_cases hblank : Text.isBlank c = true
  · rw [(hR.blank s c hblank).1, Joins, hR.newline_spaced, hR.spaced_spaced]
    exact h
  · exact hR.joins s c h (by simp [Text.isInk, hblank, hc]) hhash

theorem joins_read_within (hR : R.Blind) {s : σ} {l : Char} (h : R.Joins (R.next s l))
    (hl : Text.isLineEnd l = false) {t : Text} (hfree : Text.LineFree t) :
    R.Joins (R.read (R.next s l) t).2 := by
  induction t generalizing s l with
  | nil => exact h
  | cons c t ih =>
    obtain ⟨hc, ht⟩ := Text.line_free_cons.mp hfree
    have hnext : R.Joins (R.next (R.next s l) c) := by
      by_cases hhash : c = '#'
      · rw [hhash]
        exact hR.joins_hash s l h hl
      · exact hR.joins_next h hc hhash
    exact ih hnext hc ht

theorem joins_read (hR : R.Blind) {s : σ} (h : R.Joins s) {c : Char} {t : Text} (hhash : c ≠ '#')
    (hfree : Text.LineFree (c :: t)) : R.Joins (R.read s (c :: t)).2 := by
  obtain ⟨hc, ht⟩ := Text.line_free_cons.mp hfree
  exact hR.joins_read_within (hR.joins_next h hc hhash) hc ht

theorem follows_read (s : σ) {c : Char} {t : Text} (hfree : Text.LineFree (c :: t)) :
    R.Follows (c :: t).getLast? (R.read s (c :: t)).2 := by
  induction t generalizing s c with
  | nil => exact .char s (hfree c (by simp))
  | cons d t ih =>
    rw [List.getLast?_cons_cons]
    exact ih (R.next s c) (Text.line_free_cons.mp hfree).2

/-- A code line reads the same joined to what came before as on a line of its own. -/
theorem read_joined_line (hR : R.Blind) {last : Option Char} {s : σ} {c : Char} {line : Text}
    (h : R.Follows last s) (hj : R.Joins s) (hc : Text.isLineEnd c = false) (hhash : c ≠ '#')
    (t : Text) :
    R.read s ((if Layout.formsMarker last (c :: line) then [' '] else []) ++ (c :: line) ++ t) =
      R.read (R.newline s) ((c :: line) ++ t) := by
  have hstart : R.read (R.spaced s) (c :: (line ++ t)) =
      R.read (R.newline s) (c :: (line ++ t)) := by
    rw [← show R.spaced (R.newline s) = R.spaced s from hj]
    exact hR.read_spaced (.feed s) hc (Layout.formsMarker_eq_false (by decide) (c :: line))
      (fun e => absurd e hhash) _
  split_ifs with hmarker
  · exact (read_skip (hR.blank s ' ' (by decide)) _).trans hstart
  · rw [Bool.not_eq_true] at hmarker
    exact (hR.read_spaced h hc hmarker (fun e => absurd e hhash) _).symm.trans hstart

/-- Joining lines is the same to a reader as ending each: only the line end in front of the first
is missing. -/
theorem read_joinLines (hR : R.Blind) {lines : List Text} (hfree : ∀ l ∈ lines, Text.LineFree l)
    {last : Option Char} {s : σ} (h : R.Follows last s) (hj : R.Joins s) :
    R.read s (Layout.joinLines last lines ++ ['\n']) =
      R.read (R.newline s) (Text.feedLines lines) := by
  induction lines generalizing last s with
  | nil => exact hR.read_feed s []
  | cons line rest ih =>
    obtain ⟨hline, hlines⟩ := List.forall_mem_cons.mp hfree
    rw [Layout.joinLines, Text.feedLines_cons]
    by_cases hd : Layout.startsDirective line = true
    · rw [if_pos hd, List.cons_append, List.cons_append, hR.read_feed, List.append_assoc]
      apply read_append_left
      rw [List.cons_append, hR.read_feed, hR.read_feed, ih hlines (.feed _) (hR.joins_newline _),
        hR.newline_newline]
    rw [if_neg hd]
    cases line with
    | nil =>
      rw [List.nil_append, hR.read_feed, hR.newline_newline, ← ih hlines h hj]
      simp [Layout.formsMarker]
    | cons c line =>
      have hhash : c ≠ '#' := by simpa [Layout.startsDirective] using hd
      have hend := (Text.line_free_cons.mp hline).1
      have hlast : ∃ l, (c :: line).getLast? = some l := by
        cases hl : (c :: line).getLast? with
        | none => simp at hl
        | some l => exact ⟨l, rfl⟩
      obtain ⟨l, hl⟩ := hlast
      have hfollows := follows_read (R := R) (R.newline s) hline
      rw [hl] at hfollows
      rw [List.append_assoc, hR.read_joined_line h hj hend hhash, hl, Option.some_or]
      apply read_append_left
      rw [hR.read_feed, ih hlines hfollows (hR.joins_read (hR.joins_newline s) hhash hline)]

end Joining

section Lines

theorem read_split (hR : R.Blind) {sep : Char} (hsep : Text.isLineEnd sep = true) (s : σ)
    (t : Text) : R.read s (Text.feedLines (Text.split sep t)) = R.read s (t ++ ['\n']) := by
  induction t generalizing s with
  | nil => rfl
  | cons c t ih =>
    rw [Text.split]
    by_cases hc : c = sep
    · rw [if_pos hc, Text.feedLines_cons, List.nil_append, hR.read_feed, List.cons_append,
        hR.read_line_end s (hc ▸ hsep), ih]
    · rw [if_neg hc]
      cases hs : Text.split sep t with
      | nil => exact absurd hs (Text.split_ne_nil sep t)
      | cons piece pieces =>
        have hrest := ih (R.next s c)
        rw [hs, Text.feedLines_cons] at hrest
        rw [Text.feedLines_cons, List.cons_append, List.cons_append, read, read, hrest]

/-- A carriage return before the line end counts for nothing. -/
theorem read_dropTrailingReturn (hR : R.Blind) (s : σ) (piece : Text) :
    R.read s (Text.dropTrailingReturn piece ++ ['\n']) = R.read s (piece ++ ['\n']) := by
  by_cases hl : piece.getLast? = some '\r'
  · obtain ⟨front, rfl⟩ := List.getLast?_eq_some_iff.mp hl
    rw [Text.dropTrailingReturn_concat, List.append_assoc]
    apply read_append_left
    rw [List.singleton_append, hR.read_line_end _ (show Text.isLineEnd '\r' = true by decide),
      hR.read_feed, hR.read_feed, hR.newline_newline]
  · rw [Text.dropTrailingReturn, if_neg hl]

theorem read_lines (hR : R.Blind) (s : σ) (t : Text) :
    R.read s (Text.feedLines (Text.lines t)) = R.read s (t ++ ['\n']) := by
  rw [← hR.read_split (show Text.isLineEnd '\n' = true by decide), Text.lines]
  generalize Text.split '\n' t = pieces
  induction pieces generalizing s with
  | nil => rfl
  | cons piece pieces ih =>
    have hpiece := hR.read_split (show Text.isLineEnd '\r' = true by decide) s
      (Text.dropTrailingReturn piece)
    rw [hR.read_dropTrailingReturn] at hpiece
    have hfeed : Text.feedLines (piece :: pieces) = (piece ++ ['\n']) ++ Text.feedLines pieces := by
      simp
    rw [List.flatMap_cons, hfeed, ← read_append_right hpiece, Text.feedLines, List.flatMap_append]
    apply read_append_left
    exact ih _

end Lines

/-- Layout is not noticed from the start of a line to the next line end. -/
theorem read_arrange (hR : R.Blind) {s : σ} (hs : R.newline s = s) (t : Text) :
    R.read s (Layout.arrange t ++ ['\n']) = R.read s (t ++ ['\n']) := by
  have hlines : ∀ l ∈ Text.lines t, Text.LineFree l := by
    intro l hl
    exact Text.line_free_of_mem_lines hl
  have hpieces : ∀ l ∈ Text.split '\n' (isolateDirectives t), Text.LineFree l := by
    intro l hl
    exact Text.line_free_of_mem_split (Layout.isolateDirectives_return_free t) hl
  have hfeed : Text.isLineEnd '\n' = true := by decide
  have hj : R.Joins s := by rw [Joins, hs]
  calc R.read s (Layout.arrange t ++ ['\n'])
      = R.read s (Text.feedLines (Text.split '\n' (Layout.arrange t))) :=
        (hR.read_split hfeed s _).symm
    _ = R.read s (Text.feedLines (Text.split '\n' (isolateDirectives t))) := by
        rw [Layout.split_arrange, hR.read_squeeze hs, hR.read_collapseLines hs hpieces]
    _ = R.read s (isolateDirectives t ++ ['\n']) := hR.read_split hfeed s _
    _ = R.read s (Text.feedLines (Text.lines t)) := by
        rw [isolateDirectives, hR.read_joinLines hlines (.start hs) hj, hs]
    _ = R.read s (t ++ ['\n']) := hR.read_lines s t

/-- Of a text and of its layout the same is noted. -/
theorem notes_arrange (hR : R.Blind) {s : σ} (hs : R.newline s = s) (t : Text) :
    (R.read s (Layout.arrange t)).1 = (R.read s t).1 := by
  have hend : ∀ u : Text, (R.read s (u ++ ['\n'])).1 = (R.read s u).1 := by
    intro u
    rw [read_append, hR.read_feed]
    simp
  rw [← hend, ← hend t, hR.read_arrange hs]

end Blind

end Reader

end SqfMinifier
