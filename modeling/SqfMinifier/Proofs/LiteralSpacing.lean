import SqfMinifier.Proofs.LayoutAnchors
import SqfMinifier.Proofs.LiteralScan

/-!
Which literals keep their text. Comment removal copies a literal, but layout takes what stands in it
for code: it joins its lines and collapses its blanks. So a closed literal stands in the output as
it was written just when there is nothing in it to lay out, and what counts as such depends on
whether the line it begins on starts with `#`.
-/

namespace SqfMinifier

namespace Layout

/-- A text in which nothing is left to lay out, as it stands on a line that is a directive or on
one that is not. -/
structure LaidOut (onDirective : Bool) (t : Text) : Prop where
  noReturn : '\r' ∉ t
  compact : ∀ line ∈ Text.split '\n' (mark onDirective ++ t), Compact line
  filled : ∀ line ∈ (Text.split '\n' (mark onDirective ++ t)).dropLast, line ≠ []
  separated : (Text.split '\n' (mark onDirective ++ t)).IsChain fun a b =>
    startsDirective a ∨ startsDirective b

instance (line : Text) : Decidable (Compact line) :=
  decidable_of_iff ('\t' ∉ line ∧ ¬ Text.Adjoins ' ' ' ' line ∧ line.getLast? ≠ some ' ')
    ⟨fun h => ⟨h.1, h.2.1, h.2.2⟩, fun h => ⟨h.noTab, h.noGap, h.noTrail⟩⟩

instance (onDirective : Bool) (t : Text) : Decidable (LaidOut onDirective t) :=
  decidable_of_iff ('\r' ∉ t ∧ (∀ line ∈ Text.split '\n' (mark onDirective ++ t), Compact line) ∧
      (∀ line ∈ (Text.split '\n' (mark onDirective ++ t)).dropLast, line ≠ []) ∧
      (Text.split '\n' (mark onDirective ++ t)).IsChain fun a b =>
        startsDirective a ∨ startsDirective b)
    ⟨fun h => ⟨h.1, h.2.1, h.2.2.1, h.2.2.2⟩,
      fun h => ⟨h.noReturn, h.compact, h.filled, h.separated⟩⟩

/-- Lines with an empty one behind them are tidy if they are but for the last, a directive. -/
theorem tidy_lines_concat {lines : List Text} (hcompact : ∀ l ∈ lines, Compact l)
    (hfilled : ∀ l ∈ lines.dropLast, l ≠ [])
    (hseparated : lines.IsChain fun a b => startsDirective a ∨ startsDirective b)
    (hlast : ∀ l ∈ lines.getLast?, startsDirective l = true) : TidyLines (lines ++ [[]]) where
  compact := by
    rw [List.forall_mem_append]
    exact ⟨hcompact, by simp [compact_nil]⟩
  filled := by
    rw [List.dropLast_concat]
    cases hl : lines.getLast? with
    | none => simp [List.getLast?_eq_none_iff.mp hl]
    | some last =>
      obtain ⟨front, rfl⟩ := List.getLast?_eq_some_iff.mp hl
      rw [List.dropLast_concat] at hfilled
      rw [List.forall_mem_append]
      exact ⟨hfilled, by simpa using ne_nil_of_startsDirective (hlast last hl)⟩
  separated := by
    rw [List.isChain_append]
    refine ⟨hseparated, .singleton _, ?_⟩
    intro a ha b _
    exact .inl (hlast a ha)
  lastCode := by simp [startsDirective]

theorem laid_out_iff (on : Bool) (t : Text) :
    LaidOut on t ↔ ∃ ended, Tidy (mark on ++ t ++ feed ended) := by
  have hended : Text.split '\n' (mark on ++ t ++ feed true) =
      Text.split '\n' (mark on ++ t) ++ [[]] :=
    Text.split_append_sep '\n' _ []
  have hopen : Text.split '\n' (mark on ++ t ++ feed false) = Text.split '\n' (mark on ++ t) := by
    simp [feed]
  have hreturn : ∀ ended, '\r' ∉ mark on ++ t ++ feed ended ↔ '\r' ∉ t := by
    intro ended
    cases on <;> cases ended <;> simp [mark, feed]
  constructor
  · intro h
    by_cases hlast : ∀ l ∈ (Text.split '\n' (mark on ++ t)).getLast?, startsDirective l = false
    · refine ⟨false, (tidy_iff _).mpr ⟨(hreturn false).mpr h.noReturn, ?_⟩⟩
      rw [hopen]
      exact ⟨h.compact, h.filled, h.separated, hlast⟩
    · refine ⟨true, (tidy_iff _).mpr ⟨(hreturn true).mpr h.noReturn, ?_⟩⟩
      rw [hended]
      refine tidy_lines_concat h.compact h.filled h.separated ?_
      intro l hl
      simpa [Option.mem_def.mp hl] using hlast
  · rintro ⟨ended, htidy⟩
    obtain ⟨hr, hlines⟩ := (tidy_iff _).mp htidy
    replace hr := (hreturn ended).mp hr
    cases ended with
    | false =>
      rw [hopen] at hlines
      exact ⟨hr, hlines.compact, hlines.filled, hlines.separated⟩
    | true =>
      rw [hended] at hlines
      obtain ⟨hcompact, hfilled, hseparated, -⟩ := hlines
      rw [List.forall_mem_append] at hcompact
      rw [List.dropLast_concat] at hfilled
      refine ⟨hr, hcompact.1, ?_, hseparated.left_of_append⟩
      intro l hl
      exact hfilled l (List.dropLast_subset _ hl)

/-- Of two lines within a text one has to be a directive. -/
example : LaidOut false "'a\n#b'".toList ∧ LaidOut true "'a\nb'".toList ∧
    ¬ LaidOut false "'a\nb'".toList := by decide +kernel

/-- The image of what stands between two quotes is what stands there just when the whole is laid
out. -/
theorem image_eq_iff {c : Char} (hc : Anchor c) {on ended : Bool} {body image : Text}
    (h : arrange (mark on ++ c :: (body ++ [c])) = mark on ++ c :: (image ++ c :: feed ended)) :
    image = body ↔ LaidOut on (c :: (body ++ [c])) := by
  rw [laid_out_iff]
  constructor
  · rintro rfl
    refine ⟨ended, ?_⟩
    have htidy := arrange_tidy (mark on ++ c :: (image ++ [c]))
    rw [h] at htidy
    simpa using htidy
  · rintro ⟨e, htidy⟩
    have hsame : arrange (mark on ++ c :: (body ++ [c]) ++ feed e) =
        arrange (mark on ++ c :: (body ++ [c])) := by
      apply arrange_congr
      cases e with
      | false => simp [feed]
      | true =>
        rw [feed, if_pos rfl, Text.filledLines_append_line_end (by decide)]
        simp
    rw [arrange_of_tidy htidy, h] at hsame
    have hends : (body ++ [c]) ++ feed e = (image ++ [c]) ++ feed ended := by
      simpa using hsame
    have hfeed : e = ended := by
      have hne : c ≠ '\n' := by
        rintro rfl
        cases hc.notLineEnd
      have hlast := congrArg List.getLast? hends
      simp only [List.getLast?_append, List.getLast?_singleton, Option.some_or] at hlast
      clear hends hsame htidy h
      cases e <;> cases ended <;> simp_all [feed, eq_comm]
    rw [hfeed] at hends
    exact (List.append_cancel_right (List.append_cancel_right hends)).symm

end Layout

namespace CharacterScan

section Placing

theorem anchor_quote (q : Quote) : Layout.Anchor q.char := by
  cases q <;> exact ⟨rfl, rfl, by decide, by decide, by decide⟩

theorem countP_inscription (quote : Char) (body : Text) :
    (inscription (quote :: body)).countP Prod.fst = 1 := by
  have hbody : ((Text.ink body).map fun c => (false, c)).countP Prod.fst = 0 := by
    simp [List.countP_map, Function.comp_def]
  simp [inscription, hbody]

theorem countP_inscriptions {literals : List Text} (h : ∀ l ∈ literals, l ≠ []) :
    (literals.flatMap inscription).countP Prod.fst = literals.length := by
  induction literals with
  | nil => rfl
  | cons l literals ih =>
    obtain ⟨hl, hrest⟩ := List.forall_mem_cons.mp h
    obtain ⟨quote, body, rfl⟩ := List.exists_cons_of_ne_nil hl
    rw [List.flatMap_cons, List.countP_append, ih hrest, countP_inscription, List.length_cons,
      Nat.add_comm]

theorem no_comment_of_comment_free {y : Text} (h : CommentFree true y) :
    ∀ p ∈ Scan.pieces true y, p.isComment = false := by
  apply no_comment_of_kept
  · exact Scan.text_ne_nil_of_mem_piecesFrom true true _
  · exact (removeComments_of_comment_free h).trans (Scan.flatMap_piecesFrom true true _).symm

/-- In front of a quote that opens a literal, layout leaves a text that is in code as well, with as
many literals in it. -/
theorem read_front {q : Quote} {before front : Text} {notes : List (Bool × Char)}
    {fresh ended : Bool} (hread : literalReader.read (.code true) before = (notes, .code fresh))
    (hfront : Layout.arrange (before ++ [q.char]) = front ++ q.char :: Layout.feed ended) :
    ∃ other, literalReader.read (.code true) front = (notes, .code other) := by
  have hfeeds : ∀ (ended : Bool) (mode : Mode),
      literalReader.read mode (Layout.feed ended ++ ['\n']) = ([], mode.newline) := by
    intro ended mode
    cases ended <;>
      simp [Layout.feed, literalReader_blind.read_feed, literalReader_newline]
  have hends : ∀ (ended : Bool) (mode : Mode),
      literalReader.read mode (q.char :: (Layout.feed ended ++ ['\n'])) =
        (inscribed mode q.char, (mode.after true q.char).newline) := by
    intro ended mode
    have hnext : literalReader.next mode q.char = mode.after true q.char := rfl
    rw [Reader.read, hnext, hfeeds]
    simp [literalReader]
  have hopen : inscribed (.code fresh) q.char = [(true, q.char)] ∧
      ((Mode.code fresh).after true q.char).newline = .literal q := by
    cases q <;> exact ⟨rfl, rfl⟩
  have hsame := literalReader_blind.read_arrange (literalReader_newline (.code true))
    (before ++ [q.char])
  rw [hfront, List.append_assoc, List.append_assoc, List.cons_append, Reader.read_append _ front,
    Reader.read_append _ before, hread, hends, List.singleton_append] at hsame
  obtain ⟨hnotes, hmode⟩ := Prod.mk.inj (hsame.trans (congrArg _ (hends false _)))
  dsimp only [id] at hnotes hmode
  rw [hopen.1] at hnotes
  rw [hopen.2] at hmode
  generalize hread' : literalReader.read (.code true) front = inside at hnotes hmode
  obtain ⟨noted, mode⟩ := inside
  cases mode with
  | code other =>
    have hquote : inscribed (.code other) q.char = [(true, q.char)] := by cases q <;> rfl
    dsimp only at hnotes
    rw [hquote] at hnotes
    rw [List.append_cancel_right hnotes]
    exact ⟨other, rfl⟩
  | directive => cases q <;> cases hmode
  | literal other => cases q <;> cases other <;> cases hmode

theorem literal_at {q : Quote} {before rest : Text} {notes : List (Bool × Char)} {fresh : Bool}
    (hread : literalReader.read (.code true) before = (notes, .code fresh))
    (hfree : CommentFree true (before ++ q.char :: rest)) :
    ∃ back, Layout.arrange (Layout.mark (Layout.startsDirective (Text.lastLine before)) ++
          q.char :: rest) =
        Layout.mark (Layout.startsDirective (Text.lastLine before)) ++ q.char :: back ∧
      (Scan.literals (Layout.arrange (before ++ q.char :: rest)))[notes.countP Prod.fst]? =
        some (q.char :: (Scan.throughQuote q.char back).1) := by
  obtain ⟨front, hfront⟩ := Layout.arrange_append_anchor (anchor_quote q) before
  obtain ⟨last, hlast, halone⟩ := hfront []
  rw [Layout.arrange_mark_alone (anchor_quote q)] at halone
  obtain rfl : Layout.feed _ = last := by simpa using halone
  obtain ⟨other, hcode⟩ := read_front hread hlast
  obtain ⟨back, hback, hcontext⟩ := hfront rest
  refine ⟨back, hcontext, ?_⟩
  have hpieces := no_comment_of_comment_free ((arrange_comment_free_iff true _).mpr hfree)
  obtain ⟨pieces, hcut, hnotes⟩ := pieces_at_quote hpieces (keeps_code true _) hback hcode
  have hcount : notes.countP Prod.fst = (Scan.quotations pieces).length := by
    rw [hnotes]
    apply countP_inscriptions
    intro l hl
    obtain ⟨p, hp, rfl⟩ := List.mem_map.mp hl
    have hmem : p ∈ Scan.pieces true (Layout.arrange (before ++ q.char :: rest)) := by
      rw [Scan.pieces, hcut]
      exact List.mem_append_left _ (List.mem_filter.mp hp).1
    exact Scan.text_ne_nil_of_mem_piecesFrom true true _ p hmem
  have hliterals : Scan.literals (Layout.arrange (before ++ q.char :: rest)) =
      Scan.quotations pieces ++ (q.char :: (Scan.throughQuote q.char back).1) ::
        Scan.quotations (Scan.piecesFrom true false (Scan.throughQuote q.char back).2) := by
    rw [Scan.literals, Scan.pieces, hcut, Scan.quotations, List.filter_append, List.map_append]
    rfl
  rw [hcount, hliterals, List.getElem?_append_right (le_refl _), Nat.sub_self]
  rfl

end Placing

end CharacterScan

namespace Scan

def isClosed (l : Text) : Bool := !Piece.isOpenLiteral ⟨.literal, l⟩

/-- The literals among pieces, each with whether layout takes its line for a directive: the line
of what is kept of the text so far. -/
def placedFrom (before : Text) : List Piece → List (Bool × Text)
  | [] => []
  | p :: rest =>
    (quotations [p]).map (Layout.startsDirective (Text.lastLine before), ·) ++
      placedFrom (before ++ CharacterScan.copied p) rest

/-- The literals of a source as `literals` lists them, each with whether the line that it begins on
starts with `#` once comments are gone. -/
def placedLiterals (source : Text) : List (Bool × Text) := placedFrom [] (pieces true source)

theorem map_snd_placedFrom (before : Text) (pieces : List Piece) :
    (placedFrom before pieces).map Prod.snd = quotations pieces := by
  induction pieces generalizing before with
  | nil => rfl
  | cons p rest ih =>
    rw [placedFrom, List.map_append, ih, quotations_cons p rest, List.map_map]
    simp

theorem map_snd_placedLiterals (source : Text) :
    (placedLiterals source).map Prod.snd = literals source :=
  map_snd_placedFrom [] (pieces true source)

end Scan

namespace CharacterScan

structure ComesOut (l : Bool × Text) (out : Text) : Prop where
  closed : Scan.isClosed out = Scan.isClosed l.2
  verbatim : Scan.isClosed l.2 → (out = l.2 ↔ Layout.LaidOut l.1 l.2)

section OneLiteral

variable {q : Quote} {before tail : Text} {notes : List (Bool × Char)} {fresh : Bool}

/-- Layout keeps the two quotes of a closed literal, and what it makes of the text between them does
not depend on what comes behind. -/
theorem closed_literal_comes_out {body : Text} (hbody : q.char ∉ body)
    (hread : literalReader.read (.code true) before = (notes, .code fresh))
    (hfree : CommentFree true (before ++ q.char :: (body ++ q.char :: tail))) :
    ∃ out, (Scan.literals (Layout.arrange
          (before ++ q.char :: (body ++ q.char :: tail))))[notes.countP Prod.fst]? = some out ∧
      ComesOut (Layout.startsDirective (Text.lastLine before),
        q.char :: (body ++ [q.char])) out := by
  obtain ⟨back, hback, hout⟩ := literal_at hread hfree
  obtain ⟨image, ended, himage, halone, hwhole⟩ :=
    Layout.arrange_enclosed (anchor_quote q) (Layout.startsDirective (Text.lastLine before)) hbody
  obtain ⟨rest, hrest⟩ := hwhole tail
  obtain rfl : back = image ++ q.char :: rest := by simpa [hback] using hrest
  rw [Scan.throughQuote_of_not_mem himage] at hout
  refine ⟨_, hout, ?_, ?_⟩
  · simp [Scan.isClosed, isOpenLiteral_closed]
  · intro _
    rw [← Layout.image_eq_iff (anchor_quote q) halone]
    simp

/-- A literal that is open to the end stays open: layout adds no quote. -/
theorem open_literal_comes_out {r : Text} (hnone : q.char ∉ r)
    (hread : literalReader.read (.code true) before = (notes, .code fresh))
    (hfree : CommentFree true (before ++ q.char :: r)) :
    ∃ out, (Scan.literals (Layout.arrange (before ++ q.char :: r)))[notes.countP Prod.fst]? =
        some out ∧
      ComesOut (Layout.startsDirective (Text.lastLine before), q.char :: r) out := by
  obtain ⟨back, hback, hout⟩ := literal_at hread hfree
  have hink : Text.ink back = Text.ink r := by
    have hsame := congrArg Text.ink hback
    rw [Layout.ink_arrange, Text.ink_append, Text.ink_append, (anchor_quote q).ink_cons,
      (anchor_quote q).ink_cons] at hsame
    simpa using hsame.symm
  have hback : q.char ∉ back := by
    rwa [← (anchor_quote q).mem_ink, hink, (anchor_quote q).mem_ink]
  rw [Scan.throughQuote_of_none hback] at hout
  have hopen : Scan.isClosed (q.char :: r) = false := by
    simp [Scan.isClosed, isOpenLiteral_of_not_mem hnone]
  have hstays : Scan.isClosed (q.char :: back) = false := by
    simp [Scan.isClosed, isOpenLiteral_of_not_mem hback]
  exact ⟨_, hout, hstays.trans hopen.symm, by simp [hopen]⟩

theorem literal_comes_out {u r : Text} (hfree : CommentFree true u)
    (hu : u = before ++ (q.char :: (Scan.throughQuote q.char r).1) ++ tail)
    (htail : (Scan.throughQuote q.char r).2 = [] → tail = [])
    (hread : literalReader.read (.code true) before = (notes, .code fresh)) :
    ∃ out, (Scan.literals (Layout.arrange u))[notes.countP Prod.fst]? = some out ∧
      ComesOut (Layout.startsDirective (Text.lastLine before),
        q.char :: (Scan.throughQuote q.char r).1) out := by
  subst hu
  rcases Scan.throughQuote_cases q.char r with ⟨body, hbody, hcut⟩ | ⟨hnone, hcut⟩
  · have htext : before ++ (q.char :: (body ++ [q.char])) ++ tail =
        before ++ q.char :: (body ++ q.char :: tail) := by
      simp
    rw [hcut, htext] at hfree ⊢
    exact closed_literal_comes_out hbody hread hfree
  · rw [hcut] at htail hfree ⊢
    obtain rfl := htail rfl
    rw [List.append_nil] at hfree ⊢
    exact open_literal_comes_out hnone hread hfree

end OneLiteral

/-- Over the whole text the reader notes as many opening quotes as there are literals. -/
theorem countP_notes {u : Text} {notes : List (Bool × Char)} {mode : Mode}
    (hfree : CommentFree true u) (hread : literalReader.read (.code true) u = (notes, mode)) :
    notes.countP Prod.fst = (Scan.literals (Layout.arrange u)).length := by
  have hnotes : notes = (Scan.literals (Layout.arrange u)).flatMap inscription := by
    rw [← notes_removeComments,
      removeComments_of_comment_free ((arrange_comment_free_iff true u).mpr hfree),
      literalReader_blind.notes_arrange (literalReader_newline _), hread]
  rw [hnotes]
  exact countP_inscriptions fun l hl => Scan.ne_nil_of_mem_literals hl

/-- Piece by piece through a source, with what is kept of it in front and what the reader has noted
there. -/
theorem literals_come_out {u : Text} (hfree : CommentFree true u) (fresh : Bool) (source : Text) :
    ∀ {before : Text} {notes : List (Bool × Char)} {mode : Mode},
      u = before ++ kept (Scan.piecesFrom true fresh source) →
      literalReader.read (.code true) before = (notes, mode) → Keeps mode fresh source →
      List.Forall₂ ComesOut (Scan.placedFrom before (Scan.piecesFrom true fresh source))
        ((Scan.literals (Layout.arrange u)).drop (notes.countP Prod.fst)) := by
  induction fresh, source using Scan.piecesFrom_induction true with
  | nil fresh =>
    intro before notes mode hu hread _
    obtain rfl : u = before := by simpa using hu
    rw [Scan.piecesFrom_nil, countP_notes hfree hread, List.drop_length]
    exact .nil
  | cut fresh t p after rest hcut hpieces ih =>
    intro before notes mode hu hread hkeeps
    obtain ⟨mode', hpiece, hkeeps'⟩ := read_cut hcut hkeeps
    rw [hpieces, kept_cons, ← List.append_assoc] at hu
    have hnext : literalReader.read (.code true) (before ++ copied p) =
        (notes ++ (Scan.quotations [p]).flatMap inscription, mode') := by
      rw [Reader.read_append, hread, hpiece]
      rfl
    have hrest := ih hu hnext hkeeps'
    rw [hpieces, Scan.placedFrom]
    by_cases hp : p.kind = .literal
    · cases hcut with
      | @literal _ _ r _ _ h hquote =>
        obtain ⟨q, rfl, htext, rfl⟩ := literal_shape h hquote
        obtain rfl := hkeeps.code q.char_not_line_end
        have htail : (Scan.throughQuote q.char r).2 = [] →
            kept (Scan.piecesFrom true false (Scan.throughQuote q.char r).2) = [] := by
          intro hnil
          simp [hnil]
        rw [htext] at hu hrest ⊢
        obtain ⟨out, hout, hcomes⟩ := literal_comes_out hfree hu htail hread
        obtain ⟨hlt, hget⟩ := List.getElem?_eq_some_iff.mp hout
        have hone : (notes ++ inscription (q.char :: (Scan.throughQuote q.char r).1)).countP
            Prod.fst = notes.countP Prod.fst + 1 := by
          rw [List.countP_append, countP_inscription]
        rw [List.drop_eq_getElem_cons hlt, hget, ← hone]
        exact .cons hcomes (by simpa [Scan.quotations] using hrest)
      | _ => cases hp
    · have hnone : Scan.quotations [p] = [] := Scan.quotations_other hp []
      rw [hnone] at hrest ⊢
      simpa using hrest

theorem closed_length {placed : List (Bool × Text)} {out : List Text}
    (h : List.Forall₂ ComesOut placed out) :
    ((placed.map Prod.snd).filter Scan.isClosed).length = (out.filter Scan.isClosed).length := by
  induction h with
  | nil => rfl
  | cons h _ ih =>
    rw [List.map_cons, List.filter_cons, List.filter_cons, h.closed]
    split_ifs <;> simp [ih]

theorem closed_eq_iff {placed : List (Bool × Text)} {out : List Text}
    (h : List.Forall₂ ComesOut placed out) :
    (placed.map Prod.snd).filter Scan.isClosed = out.filter Scan.isClosed ↔
      ∀ l ∈ placed, Scan.isClosed l.2 → Layout.LaidOut l.1 l.2 := by
  induction h with
  | nil => simp
  | @cons l o placed out h _ ih =>
    rw [List.map_cons, List.filter_cons, List.filter_cons, h.closed, List.forall_mem_cons, ← ih]
    split_ifs with hclosed
    · rw [List.cons.injEq, eq_comm, h.verbatim hclosed]
      simp [hclosed]
    · simp [hclosed]

end CharacterScan

open CharacterScan in
/-- Each literal of the source has its literal in the output, in the same order, and if it is closed
that is the same text just when the literal is laid out already. All closed literals stand in the
output as they were written just when all are laid out. -/
theorem literal_verbatim_iff_laid_out (source : Text) :
    List.Forall₂
      (fun l out => Scan.isClosed l.2 → (out = l.2 ↔ Layout.LaidOut l.1 l.2))
      (Scan.placedLiterals source) (Scan.literals (minify true source)) ∧
    (((Scan.literals source).filter Scan.isClosed).Sublist (Scan.literals (minify true source)) ↔
      ∀ l ∈ Scan.placedLiterals source, Scan.isClosed l.2 → Layout.LaidOut l.1 l.2) := by
  have hkept : removeComments true source = [] ++ kept (Scan.pieces true source) := rfl
  have hall : List.Forall₂ ComesOut (Scan.placedLiterals source)
      (Scan.literals (minify true source)) :=
    literals_come_out (removeComments_comment_free true source) true source hkept rfl
      (keeps_code true source)
  refine ⟨hall.imp fun l out h => h.verbatim, ?_⟩
  rw [← closed_eq_iff hall, Scan.map_snd_placedLiterals]
  constructor
  · intro hsublist
    have hclosed := hsublist.filter Scan.isClosed
    simp only [List.filter_filter, Bool.and_self] at hclosed
    refine hclosed.eq_of_length ?_
    rw [← Scan.map_snd_placedLiterals]
    exact closed_length hall
  · intro hsame
    rw [hsame]
    exact List.filter_sublist

/-- Two spaces in a literal are none in the output. -/
theorem literal_squeezed :
    Scan.literals "x = \"a  b\";".toList = ["\"a  b\"".toList] ∧
      Scan.isClosed "\"a  b\"".toList ∧
      minify true "x = \"a  b\";".toList = "x = \"ab\";".toList ∧
      ¬ "\"a  b\"".toList <:+: minify true "x = \"a  b\";".toList := by
  decide +kernel

end SqfMinifier
