import SqfMinifier.Proofs.CommentFree

/-!
Where the scan stands behind a text. The cursor moves one character at a time and never looks
ahead: a slash in code waits until the next character tells whether it opens a comment. So the
scan of two texts in a row is the scan of the first, then that of the second from where the first
left the cursor.
-/

namespace SqfMinifier

namespace CharacterScan

/-- `slash` stands behind a slash not yet copied, `fresh` tells what code was in front of it. The
star of a block comment closes it if a slash comes next. -/
inductive Cursor where
  | copying (mode : Mode)
  | slash (fresh : Bool)
  | lineComment
  | blockComment (fresh star : Bool)
  deriving DecidableEq, Repr

namespace Cursor

def code (fresh : Bool) : Cursor := .copying (.code fresh)

def next (aware : Bool) : Cursor → Char → Cursor
  | .copying mode, c =>
    match mode with
    | .code fresh =>
      if c = '/' then .slash fresh else .copying (Mode.after aware (.code fresh) c)
    | _ => .copying (mode.after aware c)
  | .slash fresh, c =>
    if c = '/' then .lineComment
    else if c = '*' then .blockComment fresh false
    else .copying (Mode.after aware (.code false) c)
  | .lineComment, c => if Text.isLineEnd c then code true else .lineComment
  | .blockComment fresh star, c =>
    if star ∧ c = '/' then code fresh else .blockComment fresh (c == '*')

def emit : Cursor → Char → Text
  | .copying mode, c => if mode.isCode ∧ c = '/' then [] else [c]
  | .slash _, c => if completesMarker c then [] else ['/', c]
  | .lineComment, c => if Text.isLineEnd c then [c] else []
  | .blockComment _ _, _ => []

/-- What is copied of a text from here on, the slash that waits included. -/
def resume (aware : Bool) : Cursor → Text → Text
  | .copying mode, t => copy aware (.copying mode) t
  | .slash fresh, t => copy aware (.copying (.code fresh)) ('/' :: t)
  | .lineComment, t => copy aware .lineComment t
  | .blockComment fresh star, t =>
    copy aware (.blockComment fresh) (if star then '*' :: t else t)

def pending : Cursor → Text
  | .slash _ => ['/']
  | _ => []

def newline : Cursor → Cursor
  | .copying mode => .copying mode.newline
  | .blockComment fresh _ => .blockComment fresh false
  | _ => code true

def inBlock : Cursor → Bool
  | .blockComment _ _ => true
  | _ => false

def isFresh (s : Cursor) : Bool := s == code true

end Cursor

def track (aware : Bool) (s : Cursor) (t : Text) : Cursor := t.foldl (Cursor.next aware) s

def emitted (aware : Bool) : Cursor → Text → Text
  | _, [] => []
  | s, c :: rest => s.emit c ++ emitted aware (s.next aware c) rest

variable {aware : Bool}

@[simp] theorem track_nil (s : Cursor) : track aware s [] = s := rfl

@[simp] theorem track_cons (s : Cursor) (c : Char) (t : Text) :
    track aware s (c :: t) = track aware (s.next aware c) t := rfl

theorem track_append (s : Cursor) (a b : Text) :
    track aware s (a ++ b) = track aware (track aware s a) b := List.foldl_append

section Resuming

theorem resume_code_cons (fresh : Bool) (c : Char) (t : Text) :
    (Cursor.code fresh).resume aware (c :: t) =
      (Cursor.code fresh).emit c ++ ((Cursor.code fresh).next aware c).resume aware t := by
  by_cases hc : c = '/'
  · simp [Cursor.code, Cursor.next, Cursor.emit, Cursor.resume, Mode.isCode, hc]
  · simp [Cursor.code, Cursor.next, Cursor.emit, Cursor.resume, hc,
      copy_code_cons (not_opens_comment hc t)]

theorem resume_slash_cons (fresh : Bool) (c : Char) (t : Text) :
    (Cursor.slash fresh).resume aware (c :: t) =
      (Cursor.slash fresh).emit c ++ ((Cursor.slash fresh).next aware c).resume aware t := by
  by_cases hslash : c = '/'
  · subst hslash
    simp [Cursor.next, Cursor.emit, Cursor.resume, completesMarker, copy]
  by_cases hstar : c = '*'
  · subst hstar
    simp [Cursor.next, Cursor.emit, Cursor.resume, completesMarker, copy]
  have hopen : ¬ OpensComment '/' (c :: t) := by
    simp [OpensComment, hslash, hstar]
  simp [Cursor.next, Cursor.emit, Cursor.resume, completesMarker, hslash, hstar,
    copy_code_cons hopen, after_code_slash, copy_code_cons (not_opens_comment hslash t)]

theorem copy_blockComment_cons {fresh : Bool} {c : Char} {t : Text}
    (h : ¬ (c = '*' ∧ t.head? = some '/')) :
    copy aware (.blockComment fresh) (c :: t) = copy aware (.blockComment fresh) t := by
  rw [copy]
  rintro rest rfl rfl
  exact h ⟨rfl, rfl⟩

theorem resume_blockComment_cons (fresh star : Bool) (c : Char) (t : Text) :
    (Cursor.blockComment fresh star).resume aware (c :: t) =
      ((Cursor.blockComment fresh star).next aware c).resume aware t := by
  by_cases hclose : star = true ∧ c = '/'
  · obtain ⟨rfl, rfl⟩ := hclose
    simp [Cursor.next, Cursor.code, Cursor.resume, copy]
  have hskip : copy aware (.blockComment fresh) (if star then '*' :: c :: t else c :: t) =
      copy aware (.blockComment fresh) (c :: t) := by
    cases star with
    | false => rfl
    | true =>
      refine copy_blockComment_cons ?_
      simpa using hclose
  rw [Cursor.next, if_neg hclose, Cursor.resume, hskip, Cursor.resume]
  by_cases hstar : c = '*'
  · simp [hstar]
  · rw [copy_blockComment_cons fun h => hstar h.1]
    simp [hstar]

/-- One step of the scan: what it copies now, then what it copies from the next place on. -/
theorem resume_cons (s : Cursor) (c : Char) (t : Text) :
    s.resume aware (c :: t) = s.emit c ++ (s.next aware c).resume aware t := by
  cases s with
  | copying mode =>
    cases mode with
    | code fresh => exact resume_code_cons fresh c t
    | directive => exact copy_directive_cons c t
    | literal q => exact copy_literal_cons q c t
  | slash fresh => exact resume_slash_cons fresh c t
  | lineComment =>
    by_cases hc : Text.isLineEnd c = true <;>
      simp [Cursor.resume, Cursor.emit, Cursor.next, Cursor.code, copy, hc]
  | blockComment fresh star => exact resume_blockComment_cons fresh star c t

theorem resume_nil (s : Cursor) : s.resume aware [] = s.pending := by
  cases s with
  | slash fresh => simp [Cursor.resume, Cursor.pending, copy]
  | blockComment fresh star => cases star <;> simp [Cursor.resume, Cursor.pending, copy]
  | _ => simp [Cursor.resume, Cursor.pending]

theorem resume_append (s : Cursor) (a b : Text) :
    s.resume aware (a ++ b) = emitted aware s a ++ (track aware s a).resume aware b := by
  induction a generalizing s with
  | nil => rfl
  | cons c a ih => rw [List.cons_append, resume_cons, ih, emitted, track_cons, List.append_assoc]

/-- The whole scan of a text is what it is sure of and the slash that still waits. -/
theorem resume_eq_emitted (s : Cursor) (t : Text) :
    s.resume aware t = emitted aware s t ++ (track aware s t).pending := by
  have happ : s.resume aware (t ++ []) = _ := resume_append s t []
  rwa [List.append_nil, resume_nil] at happ

end Resuming

section LineEnds

theorem next_line_end (s : Cursor) {c : Char} (hc : Text.isLineEnd c = true) :
    s.next aware c = s.newline := by
  have hcase : c = '\r' ∨ c = '\n' := by simpa [Text.isLineEnd] using hc
  have hslash : c ≠ '/' := by rcases hcase with rfl | rfl <;> decide
  have hstar : c ≠ '*' := by rcases hcase with rfl | rfl <;> decide
  cases s with
  | copying mode =>
    rw [Cursor.newline, ← Mode.after_line_end aware mode hc]
    cases mode <;> simp [Cursor.next, hslash]
  | slash fresh =>
    simp [Cursor.next, Cursor.newline, Cursor.code, hslash, hstar,
      Mode.after_line_end aware _ hc, Mode.newline]
  | lineComment => simp [Cursor.next, Cursor.newline, hc]
  | blockComment fresh star => simp [Cursor.next, Cursor.newline, hslash, hstar]

theorem emit_line_end (s : Cursor) {c : Char} (hc : Text.isLineEnd c = true) :
    s.emit c = s.pending ++ if s.inBlock then [] else [c] := by
  have hcase : c = '\r' ∨ c = '\n' := by simpa [Text.isLineEnd] using hc
  cases s <;> rcases hcase with rfl | rfl <;>
    simp [Cursor.emit, Cursor.pending, Cursor.inBlock, completesMarker, Text.isLineEnd]

@[simp] theorem Cursor.newline_newline (s : Cursor) : s.newline.newline = s.newline := by
  cases s with
  | copying mode => simp [Cursor.newline]
  | slash fresh => rfl
  | lineComment => rfl
  | blockComment fresh star => rfl

theorem Cursor.inBlock_newline (s : Cursor) : s.newline.inBlock = s.inBlock := by
  cases s <;> rfl

theorem Cursor.pending_newline (s : Cursor) : s.newline.pending = [] := by
  cases s <;> rfl

end LineEnds

end CharacterScan

end SqfMinifier
