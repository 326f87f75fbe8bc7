import SqfMinifier.Proofs.LiteralLayout

/-!
The reader that notes down literals and the scan that cuts a source into pieces keep step. Over each
piece the reader comes to the mode that the scan is in, as far as what follows can tell the two
apart, and within a piece it is never in code in front of a quote. So where it is in code and meets
a quote, the scan has a literal.
-/

namespace SqfMinifier

namespace Scan

theorem throughQuote_of_not_mem {q : Char} {body : Text} (h : q ∉ body) (t : Text) :
    throughQuote q (body ++ q :: t) = (body ++ [q], t) := by
  induction body with
  | nil => simp [throughQuote]
  | cons c body ih =>
    rw [List.mem_cons, not_or] at h
    rw [List.cons_append, throughQuote, if_neg (Ne.symm h.1), ih h.2]
    rfl

theorem throughQuote_of_none {q : Char} {t : Text} (h : q ∉ t) :
    throughQuote q t = (t, []) := by
  rcases throughQuote_cases q t with ⟨body, -, hcut⟩ | ⟨-, hcut⟩
  · have hmem : q ∈ (throughQuote q t).1 ++ (throughQuote q t).2 := by simp [hcut]
    rw [throughQuote_append] at hmem
    exact absurd hmem h
  · exact hcut

end Scan

namespace CharacterScan

/-- The reader is where the scan is, as far as what comes next can tell. -/
def Keeps (mode : Mode) (fresh : Bool) (rest : Text) : Prop :=
  ∀ c ∈ rest.head?, mode = .code fresh ∨ (Text.isLineEnd c = true ∧ mode.newline = .code true)

theorem keeps_code (fresh : Bool) (rest : Text) : Keeps (.code fresh) fresh rest :=
  fun _ _ => .inl rfl

theorem Keeps.code {mode : Mode} {fresh : Bool} {c : Char} {t : Text}
    (h : Keeps mode fresh (c :: t)) (hc : Text.isLineEnd c = false) : mode = .code fresh := by
  rcases h c rfl with h | ⟨hend, -⟩
  · exact h
  · simp [hc] at hend

/-- The quote that a literal piece begins with, and what stands in it. -/
theorem literal_shape {t rest : Text} {token : Token} {quote : Char} (h : Token.Reads t token rest)
    (hquote : (if true then token.kind.quote? else none) = some quote) :
    ∃ q : Quote, quote = q.char ∧ token.text = [q.char] ∧ t = q.char :: rest := by
  rw [if_pos rfl] at hquote
  cases h with
  | sign kind c rest hs =>
    rw [Quote.quote?_eq_of_sign hs, Option.map_eq_some_iff] at hquote
    obtain ⟨q, hq, rfl⟩ := hquote
    obtain rfl := Quote.ofChar?_eq_some hq
    exact ⟨q, rfl, rfl, rfl⟩
  | _ => cases hquote

theorem read_literal (fresh : Bool) (q : Quote) (t : Text) :
    ∃ mode, literalReader.read (.code fresh) (q.char :: (Scan.throughQuote q.char t).1) =
        (inscription (q.char :: (Scan.throughQuote q.char t).1), mode) ∧
      Keeps mode false (Scan.throughQuote q.char t).2 := by
  have hopen : ∀ u, literalReader.read (.code fresh) (q.char :: u) =
      (literalReader.read (.literal q) u).map ((true, q.char) :: ·) id := by
    intro u
    cases q <;> rfl
  rcases Scan.throughQuote_cases q.char t with ⟨body, hbody, hcut⟩ | ⟨hnone, hcut⟩
  · have hclose : literalReader.read (.literal q) [q.char] = ([(false, q.char)], .code false) := by
      cases q <;> rfl
    have hink : Text.ink [q.char] = [q.char] := by cases q <;> rfl
    refine ⟨.code false, ?_, keeps_code _ _⟩
    rw [hcut, hopen, Reader.read_append, read_literal_body hbody, hclose]
    simp [inscription, Text.ink_append, hink]
  · refine ⟨.literal q, ?_, ?_⟩
    · rw [hcut, hopen, read_literal_body hnone]
      rfl
    · rw [hcut]
      simp [Keeps]

theorem head_of_reads {t rest : Text} {token : Token} (h : Token.Reads t token rest)
    (hkind : token.kind ≠ .newline) : ∃ c u, t = c :: u ∧ Text.isLineEnd c = false := by
  cases h with
  | lineComment body => exact ⟨_, _, rfl, by decide⟩
  | blockComment body => exact ⟨_, _, rfl, by decide⟩
  | slash => exact ⟨_, _, rfl, by decide⟩
  | spaces => exact ⟨_, _, rfl, by decide⟩
  | sign kind c rest hs =>
    refine ⟨_, _, rfl, ?_⟩
    cases kind <;> cases hs <;> decide
  | text c rest hplain =>
    refine ⟨_, _, rfl, ?_⟩
    simp only [Token.isPlain, Bool.not_eq_true', Bool.or_eq_false_iff,
      beq_eq_false_iff_ne] at hplain
    simp [Text.isLineEnd, hplain]
  | _ => exact absurd rfl hkind

theorem line_end_of_newline {t rest : Text} {token : Token} (h : Token.Reads t token rest)
    (hkind : token.kind = .newline) : ∀ c ∈ token.text, Text.isLineEnd c = true := by
  cases h with
  | returnFeed => decide
  | loneReturn => decide
  | lineFeed => decide
  | sign kind c rest hs => simp_all [TokenKind.sign?]
  | _ => cases hkind

theorem read_cut {mode : Mode} {fresh after : Bool} {t rest : Text} {p : Piece}
    (h : Scan.Cuts true fresh t p after rest) (hmode : Keeps mode fresh t) :
    ∃ mode', literalReader.read mode (copied p) =
        ((Scan.quotations [p]).flatMap inscription, mode') ∧ Keeps mode' after rest := by
  have hcode : ∀ {token rest}, Token.Reads t token rest → token.kind ≠ .newline →
      mode = .code fresh := by
    intro token rest hreads hkind
    obtain ⟨c, u, rfl, hc⟩ := head_of_reads hreads hkind
    exact hmode.code hc
  cases h with
  | lineComment h hkind =>
    obtain rfl := hcode h (by simp [hkind])
    refine ⟨_, rfl, ?_⟩
    intro c hc
    exact .inr ⟨line_end_of_lineComment h hkind c hc, rfl⟩
  | blockComment h hkind =>
    obtain rfl := hcode h (by simp [hkind])
    exact ⟨_, rfl, keeps_code _ _⟩
  | lineEnd h hkind =>
    refine ⟨.code true, ?_, keeps_code _ _⟩
    obtain ⟨c, u, htext⟩ := List.exists_cons_of_ne_nil h.text_ne_nil
    have hc := line_end_of_newline h hkind c (by simp [htext])
    have hnewline : mode.newline = .code true := by
      rcases hmode c (by rw [← h.append, htext]; rfl) with rfl | ⟨-, hnewline⟩
      · rfl
      · exact hnewline
    have hcopied : copied ⟨.lineEnd, _⟩ = _ := htext
    have hread := @read_newline_token true _ _ _ h hkind []
    rw [List.append_nil, htext, literalReader_blind.read_line_end _ hc,
      literalReader_newline] at hread
    rw [hcopied, literalReader_blind.read_line_end _ hc, literalReader_newline, hnewline]
    exact hread
  | directive h hkind =>
    obtain rfl := hcode h (by simp [hkind])
    refine ⟨.directive, ?_, ?_⟩
    · have hread := read_directive_token h hkind []
      rw [List.append_nil] at hread
      exact hread
    · intro c hc
      exact .inr ⟨line_end_afterLine _ c hc, rfl⟩
  | @literal _ _ rest _ _ h hquote =>
    obtain ⟨q, rfl, htext, rfl⟩ := literal_shape h hquote
    obtain rfl := hmode.code q.char_not_line_end
    obtain ⟨mode', hread, hkeeps⟩ := read_literal fresh q rest
    refine ⟨mode', ?_, hkeeps⟩
    rw [htext]
    simpa [Scan.quotations, copied, Piece.isComment] using hread
  | plain h hkind hhash hquote =>
    obtain rfl := hcode h hkind.2.2
    refine ⟨.code false, ?_, keeps_code _ _⟩
    have hread := read_plain_token h hkind hhash hquote []
    rw [List.append_nil] at hread
    exact hread

theorem not_mem_front_of_throughQuote {quote c : Char} {t front back : Text}
    (h : (Scan.throughQuote quote t).1 = front ++ c :: back) : quote ∉ front := by
  intro hm
  rcases Scan.throughQuote_cases quote t with ⟨body, hnone, hcut⟩ | ⟨hnone, hcut⟩
  · have hlast := congrArg List.dropLast (hcut.symm.trans h)
    rw [List.dropLast_concat, List.dropLast_append_of_ne_nil (by simp)] at hlast
    exact hnone (by simp [hlast, hm])
  · rw [hcut] at h
    dsimp only at h
    exact hnone (by simp [h, hm])

/-- A quote stands in no token of several characters that is read as code. -/
theorem no_quote_inside {t rest : Text} {token : Token} (h : Token.Reads t token rest)
    (hkind : token.kind ≠ .lineComment ∧ token.kind ≠ .blockComment ∧ token.kind ≠ .newline)
    {d : Char} {front back : Text} (q : Quote) : token.text ≠ d :: front ++ q.char :: back := by
  have hrun : ∀ {p : Char → Bool} {c : Char} {rest : Text},
      c :: rest.takeWhile p = d :: front ++ q.char :: back → p q.char = true := by
    intro p c rest htext
    have hm : q.char ∈ rest.takeWhile p := by
      rw [(List.cons.inj htext).2]
      simp
    exact List.mem_takeWhile_imp hm
  intro htext
  cases h with
  | lineComment => exact hkind.1 rfl
  | blockComment => exact hkind.2.1 rfl
  | returnFeed => exact hkind.2.2 rfl
  | loneReturn => exact hkind.2.2 rfl
  | lineFeed => exact hkind.2.2 rfl
  | slash => simp at htext
  | sign => simp at htext
  | spaces rest =>
    have hspace := hrun htext
    cases q <;> cases hspace
  | text c rest hc =>
    have hplain := hrun htext
    cases q <;> cases hplain

/-- Within a piece the reader is not in code where a quote could open a literal. -/
theorem inside_cut {mode : Mode} {fresh after : Bool} {t rest : Text} {p : Piece}
    (h : Scan.Cuts true fresh t p after rest) (hp : p.isComment = false)
    (hmode : Keeps mode fresh t) {d : Char} {front back : Text} {q : Quote}
    (htext : p.text = d :: front ++ q.char :: back) (other : Bool) :
    (literalReader.read mode (d :: front)).2 ≠ .code other := by
  cases h with
  | lineComment => cases hp
  | blockComment => cases hp
  | lineEnd h hkind =>
    dsimp only at htext
    have hc := line_end_of_newline h hkind q.char (by simp [htext])
    simp [q.char_not_line_end] at hc
  | @directive _ rest token h hkind =>
    obtain ⟨c, u, rfl, hc⟩ := head_of_reads h (by simp [hkind])
    obtain rfl := hmode.code hc
    have hhash : token.text = ['#'] := by
      cases h with
      | sign kind c rest hs =>
        obtain rfl : kind = .hash := hkind
        cases hs
        rfl
      | _ => cases hkind
    dsimp only at htext
    rw [hhash] at htext
    obtain ⟨rfl, hline⟩ := List.cons.inj htext
    have hfree : Text.LineFree front := by
      intro x hx
      exact Text.line_free_restOfLine rest x (by simp_all)
    have hopen : literalReader.Skips (.code true) '#' .directive := ⟨rfl, rfl⟩
    rw [Reader.read_skip hopen, read_directive_line hfree]
    simp
  | @literal _ _ rest _ _ h hquote =>
    obtain ⟨opening, rfl, hopening, rfl⟩ := literal_shape h hquote
    obtain rfl := hmode.code opening.char_not_line_end
    dsimp only at htext
    rw [hopening] at htext
    obtain ⟨rfl, hbody⟩ := List.cons.inj htext
    have hopen : (literalReader.read (.code fresh) (opening.char :: front)).2 =
        (literalReader.read (.literal opening) front).2 := by
      cases opening <;> rfl
    rw [hopen, read_literal_body (not_mem_front_of_throughQuote hbody)]
    simp
  | plain h hkind _ _ => exact absurd htext (no_quote_inside h hkind q)

theorem cut_at_quote {fresh after : Bool} {q : Quote} {t rest : Text} {p : Piece}
    (h : Scan.Cuts true fresh (q.char :: t) p after rest) :
    p = ⟨.literal, q.char :: (Scan.throughQuote q.char t).1⟩ ∧ after = false ∧
      rest = (Scan.throughQuote q.char t).2 := by
  obtain ⟨kind, hsign, hkind⟩ : ∃ kind : TokenKind, kind.sign? = some q.char ∧
      kind.quote? = some q.char := by
    cases q
    · exact ⟨.doubleQuote, rfl, rfl⟩
    · exact ⟨.singleQuote, rfl, rfl⟩
  have htoken : ∀ {token rest}, Token.Reads (q.char :: t) token rest → token.kind = kind := by
    intro token rest hreads
    have hlex := (Token.lex_of_reads hreads).symm.trans
      (Token.lex_of_reads (.sign kind q.char t hsign))
    cases hlex
    rfl
  cases h with
  | lineComment h hk => simp [← htoken h, hk, TokenKind.quote?] at hkind
  | blockComment h hk => simp [← htoken h, hk, TokenKind.quote?] at hkind
  | lineEnd h hk => simp [← htoken h, hk, TokenKind.quote?] at hkind
  | directive h hk => simp [← htoken h, hk, TokenKind.quote?] at hkind
  | plain h _ _ hquote =>
    rw [if_pos rfl, htoken h, hkind] at hquote
    cases hquote
  | literal h hquote =>
    obtain ⟨opening, rfl, htext, hcons⟩ := literal_shape h hquote
    obtain ⟨hopening, rfl⟩ := List.cons.inj hcons
    rw [htext, ← hopening]
    exact ⟨rfl, rfl, rfl⟩

/-- A quote that the reader meets in code begins a piece: the first one or a later one. -/
theorem quote_begins_piece {mode : Mode} {fresh after : Bool} {front back rest : Text} {q : Quote}
    {p : Piece} (h : Scan.Cuts true fresh (front ++ q.char :: back) p after rest)
    (hp : p.isComment = false) (hmode : Keeps mode fresh (front ++ q.char :: back)) {other : Bool}
    (hread : (literalReader.read mode front).2 = .code other) :
    front = [] ∨ ∃ u, front = p.text ++ u ∧ rest = u ++ q.char :: back := by
  cases front with
  | nil => exact .inl rfl
  | cons d front =>
    rcases List.append_eq_append_iff.mp h.append with ⟨u, hfront, hrest⟩ | ⟨u, htext, hback⟩
    · exact .inr ⟨u, hfront, hrest⟩
    · cases u with
      | nil => exact .inr ⟨[], by simpa using htext.symm, hback.symm⟩
      | cons e u =>
        obtain ⟨rfl, -⟩ := List.cons.inj hback
        exact absurd hread (inside_cut h hp hmode htext other)

/-- Where the reader is in code and meets a quote, the scan cuts off a literal. -/
theorem pieces_at_quote {fresh : Bool} {s : Text}
    (hfree : ∀ p ∈ Scan.piecesFrom true fresh s, p.isComment = false) {mode : Mode}
    (hmode : Keeps mode fresh s) {front back : Text} {q : Quote} (hs : s = front ++ q.char :: back)
    {notes : List (Bool × Char)} {other : Bool}
    (hread : literalReader.read mode front = (notes, .code other)) :
    ∃ before, Scan.piecesFrom true fresh s =
        before ++ ⟨.literal, q.char :: (Scan.throughQuote q.char back).1⟩ ::
          Scan.piecesFrom true false (Scan.throughQuote q.char back).2 ∧
      notes = (Scan.quotations before).flatMap inscription := by
  induction fresh, s using Scan.piecesFrom_induction true generalizing mode front notes with
  | nil fresh => simp at hs
  | cut fresh t p after rest hcut hpieces ih =>
    rw [hpieces, List.forall_mem_cons] at hfree
    subst hs
    obtain rfl | ⟨u, rfl, rfl⟩ :=
      quote_begins_piece hcut hfree.1 hmode (congrArg Prod.snd hread)
    · obtain ⟨rfl, rfl, rfl⟩ := cut_at_quote hcut
      obtain ⟨rfl, -⟩ := Prod.mk.inj hread
      exact ⟨[], hpieces, rfl⟩
    · obtain ⟨mode', hpiece, hkeeps⟩ := read_cut hcut hmode
      rw [copied, hfree.1, if_neg Bool.false_ne_true] at hpiece
      rw [Reader.read_append, hpiece] at hread
      obtain ⟨hnotes, hcode⟩ := Prod.mk.inj hread
      dsimp only [id] at hnotes hcode
      obtain ⟨before, hbefore, hsame⟩ := ih hfree.2 hkeeps rfl (Prod.ext rfl hcode)
      refine ⟨p :: before, by rw [hpieces, hbefore]; rfl, ?_⟩
      rw [← hnotes, Scan.quotations_cons p before, List.flatMap_append]
      exact congrArg (_ ++ ·) hsame

end CharacterScan

end SqfMinifier
