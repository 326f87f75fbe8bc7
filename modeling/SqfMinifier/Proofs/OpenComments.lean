import SqfMinifier.Event
import SqfMinifier.Proofs.LiteralScan
import SqfMinifier.Proofs.ScanContext

/-!
Block comments that are never closed. The scan ends inside one just when it comes, in code, to a
`/*` with no `*/` behind it, and there is only one such place in a source. It is reported once, and
what stands in front of it is all that comment removal looks at.
-/

namespace SqfMinifier

open CharacterScan

def Event.unclosed (aware : Bool) (source : Text) : List Event :=
  (Event.ofMinify aware source).filter fun e =>
    e.message == "unterminated block comment runs to end of input"

/-- The scan of a source comes to a `/*` in code, and no `*/` follows. The star of the `/*` is not
part of what could close it. -/
structure Scan.Unclosed (aware : Bool) (source front body : Text) : Prop where
  cut : source = front ++ '/' :: '*' :: body
  reached : ∀ p ∈ (Scan.pieces aware front).getLast?, p.Settled
  unclosed : ¬ Text.Adjoins '*' '/' body

theorem Event.unclosed_eq (aware : Bool) (source : Text) :
    Event.unclosed aware source = (openComments aware source).map .openComment := by
  have hopen : ∀ e ∈ (openComments aware source).map Event.openComment,
      (e.message == "unterminated block comment runs to end of input") = true := by
    intro e he
    obtain ⟨offset, -, rfl⟩ := List.mem_map.mp he
    rfl
  rw [Event.unclosed, Event.ofMinify, List.filter_append, List.filter_eq_self.mpr hopen]
  simp [Event.message]

section Standing

variable {aware : Bool}

theorem Scan.quote_of_literal (fresh : Bool) (source : Text) :
    ∀ p ∈ Scan.piecesFrom aware fresh source, p.kind = .literal →
      ∃ q : Quote, p.text.head? = some q.char := by
  induction fresh, source using Scan.piecesFrom_induction aware with
  | nil fresh => simp
  | cut fresh t p after rest hcut hpieces ih =>
    rw [hpieces, List.forall_mem_cons]
    refine ⟨fun hkind => ?_, ih⟩
    cases hcut with
    | literal h hquote =>
      obtain rfl : aware = true := by
        split_ifs at hquote with ha
        exact ha
      obtain ⟨q, -, htext, -⟩ := literal_shape h hquote
      exact ⟨q, by rw [htext]; rfl⟩
    | _ => cases hkind

/-- The last piece of a text is settled just when the scan of the text ends in code. -/
theorem settled_iff_track {a : Text} :
    (∀ p ∈ (Scan.pieces aware a).getLast?, p.Settled) ↔
      ∃ fresh, track aware (.code true) a = .code fresh := by
  refine ⟨track_of_settled, ?_⟩
  rintro ⟨after, hafter⟩ p hlast
  obtain ⟨fresh, htrack⟩ := track_of_last hlast
  have hleaves : p.leaves fresh = .code after := htrack.symm.trans hafter
  have hquote := Scan.quote_of_literal true a p (List.mem_of_getLast? hlast)
  obtain ⟨kind, text⟩ := p
  cases kind with
  | lineComment => cases hleaves
  | directive => cases hleaves
  | lineEnd => exact ⟨by simp, by simp, rfl, by simp⟩
  | blockComment =>
    have hclosed : Piece.isOpenComment ⟨.blockComment, text⟩ = false := by
      rw [Bool.eq_false_iff]
      intro hopen
      simp [Piece.leaves, hopen, Cursor.code] at hleaves
    refine ⟨by simp, by simp, ?_, by simp⟩
    rw [Piece.isOpen, hclosed]
    rfl
  | literal =>
    obtain ⟨q, hq⟩ := hquote rfl
    have hclosed : Piece.isOpenLiteral ⟨.literal, text⟩ = false := by
      rw [Bool.eq_false_iff]
      intro hopen
      have hof : Quote.ofChar? q.char = some q := by cases q <;> rfl
      simp [Piece.leaves, hopen, hq, hof, Cursor.code] at hleaves
    refine ⟨by simp, by simp, ?_, by simp⟩
    rw [Piece.isOpen, hclosed]
    rfl
  | plain =>
    refine ⟨by simp, by simp, rfl, ?_⟩
    intro heq
    cases heq
    cases hleaves

theorem eq_code_of_next_slash {s : Cursor} {fresh : Bool}
    (h : s.next aware '/' = .slash fresh) : s = .code fresh := by
  cases s with
  | copying mode =>
    cases mode with
    | code f => simpa [Cursor.next, Cursor.code] using h
    | directive => simp [Cursor.next] at h
    | literal q => simp [Cursor.next] at h
  | slash f => simp [Cursor.next] at h
  | lineComment => simp [Cursor.next, Text.isLineEnd] at h
  | blockComment f star => cases star <;> simp [Cursor.next, Cursor.code] at h

/-- Up to a slash in code, a text is read from here as it would be in code. -/
theorem track_of_resyncs {s : Cursor} {fresh : Bool} {a rest : Text}
    (h : Resyncs aware s fresh (a ++ '/' :: rest)) :
    track aware s a = track aware (.code fresh) a := by
  cases a with
  | nil =>
    obtain ⟨-, hnext⟩ := h '/' rfl
    have hslash : (Cursor.code fresh).next aware '/' = .slash fresh := rfl
    exact eq_code_of_next_slash (hnext.trans hslash)
  | cons c a =>
    obtain ⟨-, hnext⟩ := h c rfl
    rw [track_cons, track_cons, hnext]

theorem track_opening {front body : Text} {s : Cursor} {fresh : Bool}
    (hfront : track aware s front = .code fresh) (hbody : ¬ Text.Adjoins '*' '/' body) :
    (track aware s (front ++ '/' :: '*' :: body)).inBlock = true := by
  have hopens : track aware (.code fresh) ('/' :: '*' :: body) =
      track aware (.blockComment fresh false) body := rfl
  rw [track_append, hfront, hopens, track_open_comment fresh hbody]
  rfl

/-- Behind an opening that is never closed code is not reached again. -/
theorem nothing_behind_opening {front more body tail : Text} {s : Cursor}
    (heq : '/' :: '*' :: body = more ++ '/' :: '*' :: tail)
    (hfront : ∃ fresh, track aware s front = .code fresh)
    (hmore : ∃ fresh, track aware s (front ++ more) = .code fresh)
    (hbody : ¬ Text.Adjoins '*' '/' body) : more = [] := by
  obtain ⟨fresh, hfront⟩ := hfront
  obtain ⟨after, hmore⟩ := hmore
  match more with
  | [] => rfl
  | [c] => simp at heq
  | c :: d :: more =>
    simp only [List.cons_append, List.cons.injEq] at heq
    obtain ⟨rfl, rfl, rfl⟩ := heq
    have hopen : ¬ Text.Adjoins '*' '/' more := by
      intro h
      exact hbody (h.trans (List.prefix_append _ _).isInfix)
    have hblock := track_opening hfront hopen
    rw [hmore] at hblock
    cases hblock

/-- A source has only one place where a comment opens and is never closed. -/
theorem opening_unique {front other body tail : Text} {s : Cursor}
    (heq : front ++ '/' :: '*' :: body = other ++ '/' :: '*' :: tail)
    (hfront : ∃ fresh, track aware s front = .code fresh)
    (hother : ∃ fresh, track aware s other = .code fresh)
    (hbody : ¬ Text.Adjoins '*' '/' body) (htail : ¬ Text.Adjoins '*' '/' tail) :
    front = other := by
  rcases List.append_eq_append_iff.mp heq with ⟨more, rfl, hmore⟩ | ⟨more, rfl, hmore⟩
  · rw [nothing_behind_opening hmore hfront hother hbody, List.append_nil]
  · rw [nothing_behind_opening hmore hother hfront htail, List.append_nil]

end Standing

section Reporting

variable {aware : Bool}

theorem open_piece {fresh after : Bool} {t rest : Text} {p : Piece}
    (h : Scan.Cuts aware fresh t p after rest) (hopen : p.isOpenComment = true) :
    ∃ body, t = '/' :: '*' :: body ∧ ¬ Text.Adjoins '*' '/' body ∧ rest = [] := by
  cases h with
  | blockComment h hkind =>
    cases h with
    | blockComment body =>
      rcases Token.throughClose_cases body with hend | ⟨hrest, hnone⟩
      · rw [isOpenComment_of_ends_at_close hend] at hopen
        cases hopen
      · exact ⟨body, rfl, hnone, hrest⟩
    | sign kind c rest hs => simp_all [TokenKind.sign?]
    | _ => cases hkind
  | _ => cases hopen

theorem opening_of_mem {fresh : Bool} {t : Text} {start offset : Nat}
    (h : offset ∈ Scan.openCommentsFrom start (Scan.piecesFrom aware fresh t)) :
    ∃ front body, t = front ++ '/' :: '*' :: body ∧ offset = start + Text.byteSize front ∧
      (∃ after, track aware (.code fresh) front = .code after) ∧
      ¬ Text.Adjoins '*' '/' body := by
  induction fresh, t using Scan.piecesFrom_induction aware generalizing start with
  | nil fresh => simp [Scan.openCommentsFrom] at h
  | cut fresh t p after rest hcut hpieces ih =>
    rw [hpieces, Scan.openCommentsFrom, List.mem_append] at h
    rcases h with h | h
    · split_ifs at h with hopen
      · obtain ⟨body, ht, hbody, -⟩ := open_piece hcut hopen
        exact ⟨[], body, ht, by simpa [Text.byteSize] using h, ⟨fresh, rfl⟩, hbody⟩
      · cases h
    · obtain ⟨front, body, hrest, hoffset, ⟨last, hlast⟩, hbody⟩ := ih h
      have hpass := passes_cut hcut
      have hresume : track aware (.code fresh) (p.text ++ front) = .code last := by
        rw [track_append, hpass.stands, track_of_resyncs (hrest ▸ hpass.resyncs), hlast]
      refine ⟨p.text ++ front, body, ?_, ?_, ⟨last, hresume⟩, hbody⟩
      · rw [← hcut.append, hrest, List.append_assoc]
      · rw [hoffset, Text.byteSize_append, Nat.add_assoc]

theorem openCommentsFrom_length_le (fresh : Bool) (t : Text) (start : Nat) :
    (Scan.openCommentsFrom start (Scan.piecesFrom aware fresh t)).length ≤ 1 := by
  induction fresh, t using Scan.piecesFrom_induction aware generalizing start with
  | nil fresh => simp [Scan.openCommentsFrom]
  | cut fresh t p after rest hcut hpieces ih =>
    rw [hpieces, Scan.openCommentsFrom]
    by_cases hopen : p.isOpenComment = true
    · obtain ⟨_, _, _, rfl⟩ := open_piece hcut hopen
      simp [hopen, Scan.openCommentsFrom]
    · simpa [hopen] using ih (start + Text.byteSize p.text)

theorem inBlock_leaves (p : Piece) (fresh : Bool) :
    (p.leaves fresh).inBlock = p.isOpenComment := by
  obtain ⟨kind, text⟩ := p
  cases kind with
  | blockComment =>
    unfold Piece.leaves
    cases hopen : Piece.isOpenComment ⟨.blockComment, text⟩ <;> rfl
  | literal =>
    unfold Piece.leaves
    cases Piece.isOpenLiteral ⟨.literal, text⟩ <;> rfl
  | plain =>
    simp only [Piece.leaves]
    split_ifs <;> rfl
  | _ => rfl

theorem openCommentsFrom_ne_nil {s : Cursor} {pieces : List Piece} (start : Nat)
    (h : (stand s pieces).inBlock = true) (hs : s.inBlock = false) :
    Scan.openCommentsFrom start pieces ≠ [] := by
  induction pieces generalizing s start with
  | nil =>
    rw [stand, List.foldl_nil, hs] at h
    cases h
  | cons p pieces ih =>
    rw [Scan.openCommentsFrom]
    by_cases hopen : p.isOpenComment = true
    · simp [hopen]
    · have hclosed : (p.leaves s.isFresh).inBlock = false := by
        rw [inBlock_leaves]
        simpa using hopen
      have hrest := ih (start + Text.byteSize p.text) (s := p.leaves s.isFresh) h hclosed
      simpa [hopen] using hrest

theorem mem_openComments_iff (source : Text) (offset : Nat) :
    offset ∈ openComments aware source ↔
      ∃ front body, Scan.Unclosed aware source front body ∧ offset = Text.byteSize front := by
  constructor
  · intro h
    obtain ⟨front, body, hcut, hoffset, hreached, hbody⟩ := opening_of_mem h
    rw [Nat.zero_add] at hoffset
    exact ⟨front, body, ⟨hcut, settled_iff_track.mpr hreached, hbody⟩, hoffset⟩
  · rintro ⟨front, body, ⟨hcut, hsettled, hbody⟩, rfl⟩
    obtain ⟨fresh, hfront⟩ := settled_iff_track.mp hsettled
    have hblock : (stand (.code true) (Scan.pieces aware source)).inBlock = true := by
      have hend := track_opening hfront hbody
      rwa [← hcut, track_eq_stand] at hend
    obtain ⟨offset, hmem⟩ := List.exists_mem_of_ne_nil _ (openCommentsFrom_ne_nil 0 hblock rfl)
    obtain ⟨other, tail, hother, hoffset, hagain, htail⟩ := opening_of_mem hmem
    obtain rfl := opening_unique (hcut.symm.trans hother) ⟨fresh, hfront⟩ hagain hbody htail
    rw [Nat.zero_add] at hoffset
    exact hoffset ▸ hmem

theorem resume_open_comment {fresh : Bool} {body : Text} (h : ¬ Text.Adjoins '*' '/' body) :
    (Cursor.code fresh).resume aware ('/' :: '*' :: body) = [] := by
  rw [Cursor.code, Cursor.resume, copy, copy_blockComment, Token.throughClose_of_not_adjoins h,
    copy_nil]

theorem removeComments_of_unclosed {source front body : Text}
    (h : Scan.Unclosed aware source front body) :
    removeComments aware source = removeComments aware front := by
  obtain ⟨fresh, happ⟩ := removeComments_append h.reached
  rw [h.cut, happ, resume_open_comment h.unclosed, List.append_nil]

end Reporting

/-- A comment that is never closed is reported, once, at the byte where it opens, and nothing else
is reported as one. Comment removal gives what it gives of the bytes in front. -/
theorem unclosed_comment_reported (aware : Bool) (source : Text) :
    (Event.unclosed aware source).length ≤ 1 ∧
      (∀ e, e ∈ Event.unclosed aware source ↔
        ∃ front body, Scan.Unclosed aware source front body ∧
          e = .openComment (Text.byteSize front)) ∧
      ∀ offset, .openComment offset ∈ Event.unclosed aware source →
        removeComments aware source = removeComments aware (Text.slice source 0 offset) := by
  have hmem : ∀ e, e ∈ Event.unclosed aware source ↔ ∃ front body,
      Scan.Unclosed aware source front body ∧ e = .openComment (Text.byteSize front) := by
    intro e
    rw [Event.unclosed_eq, List.mem_map]
    simp only [mem_openComments_iff]
    constructor
    · rintro ⟨offset, ⟨front, body, h, rfl⟩, rfl⟩
      exact ⟨front, body, h, rfl⟩
    · rintro ⟨front, body, h, rfl⟩
      exact ⟨_, ⟨front, body, h, rfl⟩, rfl⟩
  refine ⟨?_, hmem, fun offset hoffset => ?_⟩
  · rw [Event.unclosed_eq, List.length_map]
    exact openCommentsFrom_length_le true source 0
  · obtain ⟨front, body, h, heq⟩ := (hmem _).mp hoffset
    cases heq
    have hfront : Text.slice source 0 (Text.byteSize front) = front := by
      have hslice := Text.slice_append [] front ('/' :: '*' :: body)
      rw [List.nil_append, ← h.cut] at hslice
      simpa [Text.byteSize] using hslice
    rw [hfront, removeComments_of_unclosed h]

/-- Markers in a literal, a directive and a line comment, a closed comment, and one that has only
the star it opens with. -/
def unclosedSource : Text := "'/*'é\n#a /*\n//*\r/**//*/\"".toList

theorem unclosed_comment_reported_behind_markers :
    Event.unclosed true unclosedSource = [.openComment 21] ∧
      removeComments true unclosedSource =
        removeComments true (Text.slice unclosedSource 0 21) := by
  have hreport : Event.unclosed true unclosedSource = [.openComment 21] := by decide +kernel
  have hmem : .openComment 21 ∈ Event.unclosed true unclosedSource := by simp [hreport]
  exact ⟨hreport, (unclosed_comment_reported true unclosedSource).2.2 21 hmem⟩

end SqfMinifier
