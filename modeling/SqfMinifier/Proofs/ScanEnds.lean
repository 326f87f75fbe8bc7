import SqfMinifier.Proofs.ScanCursor
import SqfMinifier.Proofs.TokenSpans

/-!
The pieces of a text tell where its scan stands. Each piece leaves the cursor at a place of its
own, whatever came before it but for one thing: behind a closed comment code is as fresh as it was
in front.
-/

namespace SqfMinifier

namespace Piece

/-- The shortest closed literal has two quotes: the one that opens it does not close it. -/
def isOpenLiteral (p : Piece) : Bool :=
  p.kind == .literal && (p.text.length < 2 || p.text.getLast? != p.text.head?)

open CharacterScan

def leaves (p : Piece) (fresh : Bool) : Cursor :=
  match p.kind with
  | .lineComment => .lineComment
  | .blockComment =>
    if p.isOpenComment then .blockComment fresh ((p.text.drop 2).getLast? == some '*')
    else .code fresh
  | .lineEnd => .code true
  | .directive => .copying .directive
  | .literal =>
    if p.isOpenLiteral then .copying ((p.text.head?.bind Quote.ofChar?).elim (.code false) .literal)
    else .code false
  | .plain => if p.text = ['/'] then .slash fresh else .code false

end Piece

namespace Text

theorem line_free_restOfLine (t : Text) : LineFree (restOfLine t) := by
  intro c hc
  simpa using List.mem_takeWhile_imp hc

theorem restOfLine_append {line t : Text} (h : LineFree line)
    (ht : ∀ c ∈ t.head?, isLineEnd c = true) :
    restOfLine (line ++ t) = line ∧ afterLine (line ++ t) = t := by
  apply Token.takeWhile_maximal
  · intro c hc
    simp [h c hc]
  · intro c hc
    simp [ht c hc]

end Text

namespace Scan

theorem throughQuote_cases (q : Char) (t : Text) :
    (∃ body, q ∉ body ∧ (throughQuote q t).1 = body ++ [q]) ∨
      q ∉ t ∧ throughQuote q t = (t, []) := by
  fun_induction throughQuote q t with
  | case1 => simp
  | case2 rest => exact .inl ⟨[], by simp⟩
  | case3 c rest hc ih =>
    rcases ih with ⟨body, hbody, hcut⟩ | ⟨hnone, hcut⟩
    · exact .inl ⟨c :: body, by simp [Ne.symm hc, hbody], by simp [hcut]⟩
    · exact .inr ⟨by simp [Ne.symm hc, hnone], by simp [hcut]⟩

end Scan

namespace CharacterScan

variable {aware : Bool}

def stand (s : Cursor) (pieces : List Piece) : Cursor :=
  pieces.foldl (fun s p => p.leaves s.isFresh) s

@[simp] theorem isFresh_code (fresh : Bool) : (Cursor.code fresh).isFresh = fresh := by
  cases fresh <;> rfl

/-- Of the place in front of a piece only its freshness counts. -/
theorem stand_congr {s u : Cursor} (h : s.isFresh = u.isFresh) {pieces : List Piece}
    (hne : pieces ≠ []) : stand s pieces = stand u pieces := by
  obtain ⟨p, rest, rfl⟩ := List.exists_cons_of_ne_nil hne
  simp only [stand, List.foldl_cons, h]

section Pieces

theorem track_line {s : Cursor} {t : Text} (hs : s = .lineComment ∨ s = .copying .directive)
    (hfree : Text.LineFree t) : track aware s t = s := by
  induction t with
  | nil => rfl
  | cons c rest ih =>
    obtain ⟨hc, hrest⟩ := Text.line_free_cons.mp hfree
    have hstay : s.next aware c = s := by
      rcases hs with rfl | rfl <;> simp [Cursor.next, Mode.after, hc]
    rw [track_cons, hstay, ih hrest]

/-- A character of a block comment that does not begin its end counts for nothing, but for a star
at the very end of the text. -/
theorem track_blockComment_cons (fresh : Bool) {c : Char} {body : Text} (hne : body ≠ [])
    (h : ¬ (c = '*' ∧ body.head? = some '/')) :
    track aware (.blockComment fresh false) (c :: body) =
      track aware (.blockComment fresh false) body := by
  obtain ⟨d, rest, rfl⟩ := List.exists_cons_of_ne_nil hne
  have hopen : ¬ (c = '*' ∧ d = '/') := by simpa using h
  simp [Cursor.next, hopen]

theorem track_closed_comment (fresh : Bool) {body : Text} (h : Text.EndsAtClose body) :
    track aware (.blockComment fresh false) body = .code fresh := by
  induction body with
  | nil => simp [Text.EndsAtClose] at h
  | cons c body ih =>
    by_cases hclose : c = '*' ∧ body.head? = some '/'
    · obtain ⟨rfl, hhead⟩ := hclose
      obtain ⟨tail, rfl⟩ := List.head?_eq_some_iff.mp hhead
      obtain rfl := Text.ends_at_close_star_slash.mp h
      simp [Cursor.next]
    · rw [Text.ends_at_close_cons hclose] at h
      have hne : body ≠ [] := by
        rintro rfl
        simp [Text.EndsAtClose] at h
      rw [track_blockComment_cons fresh hne hclose, ih h]

theorem track_open_comment (fresh : Bool) {body : Text} (h : ¬ Text.Adjoins '*' '/' body) :
    track aware (.blockComment fresh false) body =
      .blockComment fresh (body.getLast? == some '*') := by
  induction body with
  | nil => rfl
  | cons c body ih =>
    rw [Text.adjoins_cons, not_or] at h
    cases body with
    | nil => simp [Cursor.next]
    | cons d body =>
      rw [track_blockComment_cons fresh (by simp) h.1, ih h.2, List.getLast?_cons_cons]

theorem track_literal {q : Quote} {body : Text} (h : q.char ∉ body) :
    track aware (.copying (.literal q)) body = .copying (.literal q) := by
  induction body with
  | nil => rfl
  | cons c body ih =>
    rw [List.mem_cons, not_or] at h
    have hstay : (Cursor.copying (.literal q)).next aware c = .copying (.literal q) := by
      simp [Cursor.next, Mode.after, Ne.symm h.1]
    rw [track_cons, hstay, ih h.2]

theorem isOpenComment_of_ends_at_close {body : Text} (h : Text.EndsAtClose body) :
    Piece.isOpenComment ⟨.blockComment, '/' :: '*' :: body⟩ = false := by
  obtain ⟨⟨front, rfl⟩, -⟩ := h
  have hsuffix : ['*', '/'] <:+ '/' :: '*' :: (front ++ ['*', '/']) := ⟨'/' :: '*' :: front, rfl⟩
  have hsize : Text.byteSize ('/' :: '*' :: (front ++ ['*', '/'])) = 4 + Text.byteSize front := by
    have hslash : '/'.utf8Size = 1 := rfl
    have hstar : '*'.utf8Size = 1 := rfl
    simp only [Text.byteSize, Text.byteSize_append, hslash, hstar]
    omega
  simp only [Piece.isOpenComment, hsize, List.isSuffixOf_iff_suffix.mpr hsuffix]
  simp

theorem isOpenComment_of_not_adjoins {body : Text} (h : ¬ Text.Adjoins '*' '/' body) :
    Piece.isOpenComment ⟨.blockComment, '/' :: '*' :: body⟩ = true := by
  have hcase : ['*', '/'] <:+ '/' :: '*' :: body → body = ['/'] := by
    intro hs
    rw [List.suffix_cons_iff, List.suffix_cons_iff] at hs
    rcases hs with heq | heq | hs
    · simp at heq
    · simpa using heq.symm
    · exact absurd hs.isInfix h
  by_cases hs : ['*', '/'] <:+ '/' :: '*' :: body
  · rw [hcase hs]
    decide
  · have hnone : List.isSuffixOf ['*', '/'] ('/' :: '*' :: body) = false := by
      rw [← Bool.not_eq_true, List.isSuffixOf_iff_suffix]
      exact hs
    simp [Piece.isOpenComment, hnone]

theorem isOpenLiteral_closed {q : Char} (body : Text) :
    Piece.isOpenLiteral ⟨.literal, q :: (body ++ [q])⟩ = false := by
  have hlast : (q :: (body ++ [q])).getLast? = some q := by
    rw [← List.cons_append, List.getLast?_concat]
  simp [Piece.isOpenLiteral, hlast]

theorem isOpenLiteral_of_not_mem {q : Char} {body : Text} (h : q ∉ body) :
    Piece.isOpenLiteral ⟨.literal, q :: body⟩ = true := by
  cases body with
  | nil => rfl
  | cons c body =>
    have hlast : (c :: body).getLast? ≠ some q := by
      intro hl
      exact h (List.mem_of_getLast? hl)
    simp [Piece.isOpenLiteral, hlast]

end Pieces

section Tokens

/-- What follows, if anything does, is read from here as it would be in code. -/
def Resyncs (aware : Bool) (s : Cursor) (fresh : Bool) (rest : Text) : Prop :=
  ∀ c ∈ rest.head?, s.isFresh = fresh ∧ s.next aware c = (Cursor.code fresh).next aware c

theorem resyncs_code (fresh : Bool) (rest : Text) : Resyncs aware (.code fresh) fresh rest :=
  fun _ _ => ⟨isFresh_code fresh, rfl⟩

theorem resyncs_nil (s : Cursor) (fresh : Bool) : Resyncs aware s fresh [] := by
  simp [Resyncs]

theorem resyncs_afterLine {s : Cursor} (hs : s = .lineComment ∨ s = .copying .directive)
    (t : Text) : Resyncs aware s false (Text.afterLine t) := by
  intro c hc
  have hend : Text.isLineEnd c = true := by simpa using Text.head_dropWhile hc
  rcases hs with rfl | rfl <;> exact ⟨rfl, by rw [next_line_end _ hend, next_line_end _ hend]; rfl⟩

theorem resyncs_slash (fresh : Bool) {rest : Text}
    (h : rest.head? ≠ some '/' ∧ rest.head? ≠ some '*') :
    Resyncs aware (.slash fresh) false rest := by
  intro c hc
  have hslash : c ≠ '/' := by
    rintro rfl
    exact h.1 hc
  have hstar : c ≠ '*' := by
    rintro rfl
    exact h.2 hc
  exact ⟨rfl, by simp [Cursor.next, Cursor.code, hslash, hstar]⟩

/-- A piece that begins in code leaves the scan where it should, and the rest is read as the
pieces behind it are. -/
structure Passes (aware : Bool) (p : Piece) (fresh after : Bool) (rest : Text) : Prop where
  stands : track aware (.code fresh) p.text = p.leaves fresh
  resyncs : Resyncs aware (p.leaves fresh) after rest

theorem passes_lineComment {fresh : Bool} {t rest : Text} {token : Token}
    (h : Token.Reads t token rest) (hkind : token.kind = .lineComment) :
    Passes aware ⟨.lineComment, token.text⟩ fresh false rest := by
  cases h with
  | lineComment body =>
    refine ⟨?_, resyncs_afterLine (.inl rfl) body⟩
    exact track_line (.inl rfl) (Text.line_free_restOfLine body)
  | sign kind c rest hs => simp_all [TokenKind.sign?]
  | _ => cases hkind

theorem passes_blockComment {fresh : Bool} {t rest : Text} {token : Token}
    (h : Token.Reads t token rest) (hkind : token.kind = .blockComment) :
    Passes aware ⟨.blockComment, token.text⟩ fresh fresh rest := by
  cases h with
  | blockComment body =>
    have hopens : ∀ t, track aware (.code fresh) ('/' :: '*' :: t) =
        track aware (.blockComment fresh false) t := fun t => rfl
    rcases Token.throughClose_cases body with hend | ⟨hrest, hnone⟩
    · have hleaves : Piece.leaves ⟨.blockComment, '/' :: '*' :: (Token.throughClose body).1⟩ fresh =
          .code fresh := by
        simp [Piece.leaves, isOpenComment_of_ends_at_close hend]
      refine ⟨?_, ?_⟩
      · rw [hleaves, hopens, track_closed_comment fresh hend]
      · rw [hleaves]
        exact resyncs_code fresh _
    · rw [Token.throughClose_of_not_adjoins hnone]
      refine ⟨?_, resyncs_nil _ _⟩
      rw [hopens, track_open_comment fresh hnone]
      simp [Piece.leaves, isOpenComment_of_not_adjoins hnone]
  | sign kind c rest hs => simp_all [TokenKind.sign?]
  | _ => cases hkind

theorem passes_newline {fresh : Bool} {t rest : Text} {token : Token}
    (h : Token.Reads t token rest) (hkind : token.kind = .newline) :
    Passes aware ⟨.lineEnd, token.text⟩ fresh true rest := by
  refine ⟨?_, resyncs_code true rest⟩
  have hfeed : ∀ {s : Cursor} {c : Char}, s = .code fresh ∨ s = .code true →
      Text.isLineEnd c = true → s.next aware c = .code true := by
    rintro s c (rfl | rfl) hc <;> rw [next_line_end _ hc] <;> rfl
  cases h with
  | returnFeed rest =>
    rw [track_cons, hfeed (.inl rfl) (by decide), track_cons, hfeed (.inr rfl) (by decide)]
    rfl
  | loneReturn rest _ => exact hfeed (.inl rfl) (show Text.isLineEnd '\r' = true by decide)
  | lineFeed rest => exact hfeed (.inl rfl) (show Text.isLineEnd '\n' = true by decide)
  | sign kind c rest hs => simp_all [TokenKind.sign?]
  | _ => cases hkind

theorem passes_directive {t rest : Text} {token : Token} (h : Token.Reads t token rest)
    (hkind : token.kind = .hash) :
    Passes aware ⟨.directive, token.text ++ Text.restOfLine rest⟩ true false
      (Text.afterLine rest) := by
  cases h with
  | sign kind c rest hs =>
    obtain rfl : kind = .hash := hkind
    cases hs
    refine ⟨?_, resyncs_afterLine (.inr rfl) rest⟩
    exact track_line (.inr rfl) (Text.line_free_restOfLine rest)
  | _ => cases hkind

theorem passes_literal {fresh : Bool} {t rest : Text} {token : Token} {quote : Char}
    (h : Token.Reads t token rest)
    (hquote : (if aware then token.kind.quote? else none) = some quote) :
    Passes aware ⟨.literal, token.text ++ (Scan.throughQuote quote rest).1⟩ fresh false
      (Scan.throughQuote quote rest).2 := by
  obtain ⟨rfl, hkind⟩ : aware = true ∧ token.kind.quote? = some quote := by
    split_ifs at hquote with ha
    exact ⟨ha, hquote⟩
  cases h with
  | sign kind c rest hs =>
    rw [Quote.quote?_eq_of_sign hs, Option.map_eq_some_iff] at hkind
    obtain ⟨q, hq, rfl⟩ := hkind
    obtain rfl := Quote.ofChar?_eq_some hq
    have hopens : ∀ t, track true (.code fresh) (q.char :: t) =
        track true (.copying (.literal q)) t := by
      intro t
      cases q <;> rfl
    rcases Scan.throughQuote_cases q.char rest with ⟨body, hbody, hcut⟩ | ⟨hnone, hcut⟩
    · have hclosed := isOpenLiteral_closed (q := q.char) body
      have hleaves : Piece.leaves ⟨.literal, [q.char] ++ (Scan.throughQuote q.char rest).1⟩ fresh =
          .code false := by
        simp [Piece.leaves, hcut, hclosed]
      refine ⟨?_, ?_⟩
      · rw [hleaves, List.singleton_append, hopens, hcut, track_append, track_literal hbody]
        simp [Cursor.next, Mode.after, Cursor.code]
      · rw [hleaves]
        exact resyncs_code false _
    · rw [hcut]
      refine ⟨?_, resyncs_nil _ _⟩
      rw [List.singleton_append, hopens, track_literal hnone]
      simp [Piece.leaves, isOpenLiteral_of_not_mem hnone, hq]
  | _ => cases hquote

theorem track_run {fresh : Bool} {c : Char} {run : Text} (hslash : c ≠ '/')
    (hfirst : Mode.after aware (.code fresh) c = .code false)
    (hrun : ∀ d ∈ run, d ≠ '/' ∧ Mode.after aware (.code false) d = .code false) :
    track aware (.code fresh) (c :: run) = .code false := by
  have hstep : (Cursor.code fresh).next aware c = .code false := by
    simp [Cursor.next, Cursor.code, hslash, hfirst]
  rw [track_cons, hstep]
  induction run with
  | nil => rfl
  | cons d run ih =>
    obtain ⟨⟨hd, hmode⟩, hrest⟩ := List.forall_mem_cons.mp hrun
    have hstay : (Cursor.code false).next aware d = .code false := by
      simp [Cursor.next, Cursor.code, hd, hmode]
    rw [track_cons, hstay, ih hrest]

theorem passes_run {fresh : Bool} {c : Char} {run rest : Text} (hslash : c ≠ '/')
    (hfirst : Mode.after aware (.code fresh) c = .code false)
    (hrun : ∀ d ∈ run, d ≠ '/' ∧ Mode.after aware (.code false) d = .code false) :
    Passes aware ⟨.plain, c :: run⟩ fresh false rest := by
  have hleaves : Piece.leaves ⟨.plain, c :: run⟩ fresh = .code false := by
    simp [Piece.leaves, hslash]
  refine ⟨(track_run hslash hfirst hrun).trans hleaves.symm, ?_⟩
  rw [hleaves]
  exact resyncs_code false rest

theorem passes_plain {fresh : Bool} {t rest : Text} {token : Token}
    (h : Token.Reads t token rest)
    (hkind : token.kind ≠ .lineComment ∧ token.kind ≠ .blockComment ∧ token.kind ≠ .newline)
    (hhash : token.kind = .hash → fresh = false)
    (hquote : (if aware then token.kind.quote? else none) = none) :
    Passes aware ⟨.plain, token.text⟩ fresh false rest := by
  cases h with
  | lineComment => exact absurd rfl hkind.1
  | blockComment => exact absurd rfl hkind.2.1
  | returnFeed => exact absurd rfl hkind.2.2
  | loneReturn => exact absurd rfl hkind.2.2
  | lineFeed => exact absurd rfl hkind.2.2
  | slash rest hnext => exact ⟨rfl, resyncs_slash fresh hnext⟩
  | sign kind c rest hs =>
    obtain ⟨hslash, hmode⟩ := after_code_sign hs hhash hquote
    exact passes_run hslash hmode (by simp)
  | spaces rest =>
    refine passes_run (by decide) (after_code_space aware fresh) ?_
    intro d hd
    obtain rfl : d = ' ' := by simpa using List.mem_takeWhile_imp hd
    exact ⟨by decide, after_code_space aware false⟩
  | text c rest hplain =>
    obtain ⟨hslash, hfirst⟩ := after_code_isPlain aware fresh hplain
    refine passes_run hslash hfirst ?_
    intro d hd
    exact after_code_isPlain aware false (List.mem_takeWhile_imp hd)

theorem passes_cut {fresh after : Bool} {t rest : Text} {p : Piece}
    (h : Scan.Cuts aware fresh t p after rest) : Passes aware p fresh after rest := by
  cases h with
  | lineComment h hkind => exact passes_lineComment h hkind
  | blockComment h hkind => exact passes_blockComment h hkind
  | lineEnd h hkind => exact passes_newline h hkind
  | directive h hkind => exact passes_directive h hkind
  | literal h hquote => exact passes_literal h hquote
  | plain h hkind hhash hquote => exact passes_plain h hkind hhash hquote

theorem track_cons_piece {p : Piece} {fresh after : Bool} {rest : Text}
    (h : Passes aware p fresh after rest)
    (ih : track aware (.code after) rest =
      stand (.code after) (Scan.piecesFrom aware after rest)) :
    track aware (.code fresh) (p.text ++ rest) =
      stand (.code fresh) (p :: Scan.piecesFrom aware after rest) := by
  have hfirst : stand (.code fresh) (p :: Scan.piecesFrom aware after rest) =
      stand (p.leaves fresh) (Scan.piecesFrom aware after rest) := by
    simp [stand]
  rw [track_append, h.stands, hfirst]
  cases rest with
  | nil => simp [stand]
  | cons c rest =>
    obtain ⟨hfresh, hnext⟩ := h.resyncs c rfl
    have hne : Scan.piecesFrom aware after (c :: rest) ≠ [] := by
      intro h
      simpa using Scan.piecesFrom_eq_nil h
    have hcode : stand (p.leaves fresh) _ = stand (.code after) _ :=
      stand_congr (by simpa using hfresh) hne
    rw [hcode, ← ih, track_cons, track_cons, hnext]

end Tokens

/-- The pieces of a text leave the scan where its characters do. -/
theorem track_eq_stand (fresh : Bool) (source : Text) :
    track aware (.code fresh) source =
      stand (.code fresh) (Scan.piecesFrom aware fresh source) := by
  induction fresh, source using Scan.piecesFrom_induction aware with
  | nil fresh => simp [stand]
  | cut fresh t p after rest hcut hpieces ih =>
    rw [hpieces, ← hcut.append]
    exact track_cons_piece (passes_cut hcut) ih

end CharacterScan

end SqfMinifier
