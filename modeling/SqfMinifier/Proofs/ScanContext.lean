import SqfMinifier.Minify
import SqfMinifier.Proofs.ScanEnds

/-!
Comment removal in context. A text whose scan ends in code, with no slash at its end, can be
carried on by any other: what follows is scanned on its own, so a comment set in between goes
without a trace. A text that leaves no comment and no literal open can be carried on by a line
end, behind which the scan begins anew.
-/

namespace SqfMinifier

namespace Piece

def isOpen (p : Piece) : Bool := p.isOpenComment || p.isOpenLiteral

/-- Nothing that follows on the same line belongs to this piece or makes a marker with it. -/
structure Settled (p : Piece) : Prop where
  notLineComment : p.kind ≠ .lineComment
  notDirective : p.kind ≠ .directive
  notOpen : p.isOpen = false
  notSlash : p ≠ ⟨.plain, ['/']⟩

instance (p : Piece) : Decidable p.Settled :=
  decidable_of_iff
    (p.kind ≠ .lineComment ∧ p.kind ≠ .directive ∧ p.isOpen = false ∧ p ≠ ⟨.plain, ['/']⟩)
    ⟨fun h => ⟨h.1, h.2.1, h.2.2.1, h.2.2.2⟩,
      fun h => ⟨h.notLineComment, h.notDirective, h.notOpen, h.notSlash⟩⟩

end Piece

namespace CharacterScan

variable {aware : Bool}

/-- The last piece of a text tells where its scan stands, but for the freshness of code. -/
theorem track_of_last {a : Text} {p : Piece} (h : (Scan.pieces aware a).getLast? = some p) :
    ∃ fresh, track aware (.code true) a = p.leaves fresh := by
  obtain ⟨front, hpieces⟩ := List.getLast?_eq_some_iff.mp h
  refine ⟨(stand (.code true) front).isFresh, ?_⟩
  rw [track_eq_stand, show Scan.piecesFrom aware true a = _ from hpieces, stand, List.foldl_concat]
  rfl

theorem track_of_settled {a : Text} (h : ∀ p ∈ (Scan.pieces aware a).getLast?, p.Settled) :
    ∃ fresh, track aware (.code true) a = .code fresh := by
  cases hlast : (Scan.pieces aware a).getLast? with
  | none =>
    obtain rfl := Scan.piecesFrom_eq_nil (List.getLast?_eq_none_iff.mp hlast)
    exact ⟨true, rfl⟩
  | some p =>
    obtain ⟨fresh, htrack⟩ := track_of_last hlast
    obtain ⟨hline, hdirective, hopen, hslash⟩ := h p hlast
    obtain ⟨hcomment, hliteral⟩ := Bool.or_eq_false_iff.mp hopen
    obtain ⟨kind, text⟩ := p
    rw [htrack]
    cases kind with
    | lineComment => exact absurd rfl hline
    | directive => exact absurd rfl hdirective
    | lineEnd => exact ⟨true, rfl⟩
    | blockComment => exact ⟨fresh, by simp [Piece.leaves, hcomment]⟩
    | literal => exact ⟨false, by simp [Piece.leaves, hliteral]⟩
    | plain =>
      have htext : text ≠ ['/'] := by
        rintro rfl
        exact hslash rfl
      exact ⟨false, by simp [Piece.leaves, htext]⟩

/-- Neither in a block comment nor in a literal: a line end leads to the start of a code line. -/
theorem track_of_closed {a : Text}
    (h : ∀ p ∈ (Scan.pieces aware a).getLast?, p.isOpen = false) :
    (track aware (.code true) a).inBlock = false ∧
      (track aware (.code true) a).newline = .code true := by
  cases hlast : (Scan.pieces aware a).getLast? with
  | none =>
    obtain rfl := Scan.piecesFrom_eq_nil (List.getLast?_eq_none_iff.mp hlast)
    exact ⟨rfl, rfl⟩
  | some p =>
    obtain ⟨fresh, htrack⟩ := track_of_last hlast
    obtain ⟨hcomment, hliteral⟩ := Bool.or_eq_false_iff.mp (h p hlast)
    obtain ⟨kind, text⟩ := p
    rw [htrack]
    cases kind with
    | lineComment => exact ⟨rfl, rfl⟩
    | directive => exact ⟨rfl, rfl⟩
    | lineEnd => exact ⟨rfl, rfl⟩
    | blockComment =>
      simp only [Piece.leaves, hcomment]
      exact ⟨rfl, rfl⟩
    | literal =>
      simp only [Piece.leaves, hliteral]
      exact ⟨rfl, rfl⟩
    | plain =>
      simp only [Piece.leaves]
      split_ifs <;> exact ⟨rfl, rfl⟩

end CharacterScan

open CharacterScan

theorem removeComments_eq_resume (aware : Bool) (source : Text) :
    removeComments aware source = (Cursor.code true).resume aware source :=
  kept_pieces aware true source

/-- What follows a settled text is scanned on its own, as code that the text leaves fresh or not. -/
theorem removeComments_append {aware : Bool} {a : Text}
    (h : ∀ p ∈ (Scan.pieces aware a).getLast?, p.Settled) :
    ∃ fresh, ∀ b, removeComments aware (a ++ b) =
      removeComments aware a ++ (Cursor.code fresh).resume aware b := by
  obtain ⟨fresh, htrack⟩ := track_of_settled h
  refine ⟨fresh, fun b => ?_⟩
  have hwhole : (Cursor.code true).resume aware a = emitted aware (.code true) a := by
    rw [resume_eq_emitted, htrack]
    exact List.append_nil _
  rw [removeComments_eq_resume, removeComments_eq_resume, resume_append, hwhole, htrack]

theorem removeComments_append_line_end {aware : Bool} {a : Text} {e : Char}
    (h : ∀ p ∈ (Scan.pieces aware a).getLast?, p.isOpen = false) (he : Text.isLineEnd e = true)
    (b : Text) :
    removeComments aware (a ++ e :: b) = removeComments aware a ++ e :: removeComments aware b := by
  obtain ⟨hblock, hnewline⟩ := track_of_closed h
  simp only [removeComments_eq_resume]
  rw [resume_append, resume_cons, next_line_end _ he, emit_line_end _ he, hblock, hnewline,
    resume_eq_emitted _ a]
  simp

theorem removeComments_cons_line_end {aware : Bool} {e : Char} (he : Text.isLineEnd e = true)
    (b : Text) : removeComments aware (e :: b) = e :: removeComments aware b := by
  have hnothing : ∀ p ∈ (Scan.pieces aware []).getLast?, p.isOpen = false := by simp [Scan.pieces]
  have hempty : removeComments aware [] = [] := by simp [removeComments, Scan.pieces]
  have hcut := removeComments_append_line_end hnothing he b
  rwa [hempty, List.nil_append, List.nil_append] at hcut

/-- Comments are removed on either side of a line end apart, whichever line end it is, as long as
the text in front leaves neither a block comment nor a literal open. -/
theorem line_end_parts_removal (aware : Bool) (a e b : Text)
    (ha : ∀ p ∈ (Scan.pieces aware a).getLast?, p.isOpen = false)
    (he : e ∈ [['\n'], ['\r', '\n'], ['\r']]) :
    removeComments aware (a ++ e ++ b) =
      removeComments aware a ++ e ++ removeComments aware b := by
  have hreturn : Text.isLineEnd '\r' = true := by decide
  have hfeed : Text.isLineEnd '\n' = true := by decide
  simp only [List.mem_cons, List.not_mem_nil, or_false] at he
  simp only [List.append_assoc]
  rcases he with rfl | rfl | rfl
  · exact removeComments_append_line_end ha hfeed b
  · calc removeComments aware (a ++ '\r' :: '\n' :: b)
        = removeComments aware a ++ '\r' :: removeComments aware ('\n' :: b) :=
          removeComments_append_line_end ha hreturn ('\n' :: b)
      _ = removeComments aware a ++ '\r' :: '\n' :: removeComments aware b := by
          rw [removeComments_cons_line_end hfeed]
  · exact removeComments_append_line_end ha hreturn b

/-- The directive holds a quote and a marker that open nothing, and the carriage return behind it
makes one line end with the line feed. -/
theorem line_end_parts_removal_in_pair :
    (∀ p ∈ (Scan.pieces true "'//' /\n#a \"/*\r".toList).getLast?, p.isOpen = false) ∧
      ['\n'] ∈ [['\n'], ['\r', '\n'], ['\r']] ∧
      removeComments true ("'//' /\n#a \"/*\r".toList ++ ['\n'] ++ "/*\n*/#b //".toList) =
        removeComments true "'//' /\n#a \"/*\r".toList ++ ['\n'] ++
          removeComments true "/*\n*/#b //".toList := by
  have hclosed : ∀ p ∈ (Scan.pieces true "'//' /\n#a \"/*\r".toList).getLast?,
      p.isOpen = false := by decide +kernel
  have hend : ['\n'] ∈ [['\n'], ['\r', '\n'], ['\r']] := by decide
  exact ⟨hclosed, hend, line_end_parts_removal true _ _ _ hclosed hend⟩

theorem resume_block_comment {aware fresh : Bool} {body : Text} (h : ¬ Text.Adjoins '*' '/' body)
    (b : Text) :
    (Cursor.code fresh).resume aware (['/', '*'] ++ body ++ ['*', '/'] ++ b) =
      (Cursor.code fresh).resume aware b := by
  have hclosed : Text.EndsAtClose (body ++ ['*', '/']) := by
    refine ⟨⟨body, rfl⟩, ?_⟩
    rw [show body ++ ['*', '/'] = body ++ ['*'] ++ ['/'] by simp, List.dropLast_concat,
      Text.adjoins_concat (by decide)]
    exact h
  have hcopy : (Cursor.code fresh).resume aware ('/' :: '*' :: (body ++ ['*', '/'] ++ b)) =
      copy aware (.blockComment fresh) (body ++ ['*', '/'] ++ b) := by
    rw [Cursor.code, Cursor.resume, copy]
  rw [List.append_assoc, List.append_assoc, ← List.append_assoc body]
  exact hcopy.trans (by
    rw [copy_blockComment, Token.throughClose_of_ends_at_close hclosed]
    rfl)

theorem resume_line_comment {aware fresh : Bool} {line b : Text} (h : Text.LineFree line)
    (hb : ∀ c ∈ b.head?, Text.isLineEnd c = true) :
    (Cursor.code fresh).resume aware (['/', '/'] ++ line ++ b) =
      (Cursor.code fresh).resume aware b := by
  have hafter : Text.afterLine (line ++ b) = b := (Text.restOfLine_append h hb).2
  have hcopy : (Cursor.code fresh).resume aware ('/' :: '/' :: (line ++ b)) =
      copy aware .lineComment (line ++ b) := by
    rw [Cursor.code, Cursor.resume, copy]
  rw [List.append_assoc]
  exact hcopy.trans (by
    rw [copy_lineComment fresh, hafter]
    rfl)

/-- Comments go without a trace wherever the scan is in code and no slash stands right before
them. -/
theorem comments_invisible (aware : Bool) (a : Text)
    (h : ∀ p ∈ (Scan.pieces aware a).getLast?, p.Settled) :
    (∀ body b : Text, ¬ Text.Adjoins '*' '/' body →
      removeComments aware (a ++ ['/', '*'] ++ body ++ ['*', '/'] ++ b) =
          removeComments aware (a ++ b) ∧
        minify aware (a ++ ['/', '*'] ++ body ++ ['*', '/'] ++ b) = minify aware (a ++ b)) ∧
    ∀ line b : Text, Text.LineFree line → (∀ c ∈ b.head?, Text.isLineEnd c = true) →
      removeComments aware (a ++ ['/', '/'] ++ line ++ b) = removeComments aware (a ++ b) ∧
        minify aware (a ++ ['/', '/'] ++ line ++ b) = minify aware (a ++ b) := by
  obtain ⟨fresh, happ⟩ := removeComments_append h
  have hminify : ∀ {t u : Text}, removeComments aware t = removeComments aware u →
      minify aware t = minify aware u := by
    intro t u heq
    rw [minify, stages, heq]
    rfl
  refine ⟨fun body b hbody => ?_, fun line b hline hb => ?_⟩
  · have hgone : removeComments aware (a ++ ['/', '*'] ++ body ++ ['*', '/'] ++ b) =
        removeComments aware (a ++ b) := by
      have hassoc : a ++ ['/', '*'] ++ body ++ ['*', '/'] ++ b =
          a ++ (['/', '*'] ++ body ++ ['*', '/'] ++ b) := by simp only [List.append_assoc]
      rw [hassoc, happ, happ, resume_block_comment hbody]
    exact ⟨hgone, hminify hgone⟩
  · have hgone : removeComments aware (a ++ ['/', '/'] ++ line ++ b) =
        removeComments aware (a ++ b) := by
      have hassoc : a ++ ['/', '/'] ++ line ++ b = a ++ (['/', '/'] ++ line ++ b) := by
        simp only [List.append_assoc]
      rw [hassoc, happ, happ, resume_line_comment hline hb]
    exact ⟨hgone, hminify hgone⟩

def freshLine : Text := "\"/*\";\r/**/".toList

/-- The block comment holds a quote and a line feed and ends in stars, and a directive follows it.
Behind the line comment a line feed joins the carriage return in front of it. -/
theorem comments_invisible_fresh_line :
    (∀ p ∈ (Scan.pieces true freshLine).getLast?, p.Settled) ∧
    (¬ Text.Adjoins '*' '/' "'\n*".toList ∧
      removeComments true (freshLine ++ ['/', '*'] ++ "'\n*".toList ++ ['*', '/'] ++
          "#a // b".toList) = removeComments true (freshLine ++ "#a // b".toList)) ∧
    Text.LineFree "it's /*".toList ∧ (∀ c ∈ "\n#c".toList.head?, Text.isLineEnd c = true) ∧
      minify true (freshLine ++ ['/', '/'] ++ "it's /*".toList ++ "\n#c".toList) =
        minify true (freshLine ++ "\n#c".toList) := by
  have hsettled : ∀ p ∈ (Scan.pieces true freshLine).getLast?, p.Settled := by decide +kernel
  have hbody : ¬ Text.Adjoins '*' '/' "'\n*".toList := by decide
  have hline : Text.LineFree "it's /*".toList := by decide
  have hend : ∀ c ∈ "\n#c".toList.head?, Text.isLineEnd c = true := by
    intro c hc
    cases hc
    decide
  have hgone := comments_invisible true freshLine hsettled
  exact ⟨hsettled, ⟨hbody, (hgone.1 _ _ hbody).1⟩, hline, hend, (hgone.2 _ _ hline hend).2⟩

end SqfMinifier
