import SqfMinifier.Proofs.ScanEnds

/-!
The tokens of a source beside what comment removal leaves of it. Comment removal does not use the
token list: it jumps over directive lines, which the list cuts up like any other text. In a line
without comment markers both come to the line end at the same place, so the tokens that are no
comments spell out what comment removal leaves. A marker in a directive parts them for good.
-/

namespace SqfMinifier

namespace Text

def HoldsMarker (t : Text) : Prop := Adjoins '/' '/' t ∨ Adjoins '/' '*' t

instance (t : Text) : Decidable (HoldsMarker t) := inferInstanceAs (Decidable (_ ∨ _))

theorem holds_marker_cons {c : Char} {t : Text} :
    HoldsMarker (c :: t) ↔ (c = '/' ∧ (t.head? = some '/' ∨ t.head? = some '*')) ∨
      HoldsMarker t := by
  unfold HoldsMarker
  rw [adjoins_cons, adjoins_cons]
  tauto

theorem HoldsMarker.mono {t u : Text} (h : HoldsMarker t) (hinside : t <:+: u) : HoldsMarker u :=
  h.imp (fun hline => hline.trans hinside) (fun hblock => hblock.trans hinside)

theorem holds_marker_append {t : Text} (ht : '/' ∉ t) (u : Text) :
    HoldsMarker (t ++ u) ↔ HoldsMarker u := by
  induction t with
  | nil => rfl
  | cons c t ih =>
    rw [List.mem_cons, not_or] at ht
    rw [List.cons_append, holds_marker_cons, ih ht.2]
    simp [Ne.symm ht.1]

end Text

namespace Token

open Text

def isComment (token : Token) : Bool :=
  token.kind == .lineComment || token.kind == .blockComment

def code (ts : List Token) : Text := (ts.filter fun token => !token.isComment).flatMap text

@[simp] theorem code_nil : code [] = [] := rfl

theorem code_cons (token : Token) (ts : List Token) :
    code (token :: ts) = (if token.isComment then [] else token.text) ++ code ts := by
  cases h : token.isComment <;> simp [code, h]

theorem code_tokens_of_reads {t rest : Text} {token : Token} (h : Reads t token rest) :
    code (tokens t) = (if token.isComment then [] else token.text) ++ code (tokens rest) := by
  rw [tokens_of_lex (lex_of_reads h), code_cons]

section Lines

/-- Apart from comments, line ends stand in line ends only and slashes in slashes only. -/
theorem shaped_mem {token : Token} (h : token.Shaped) (hcode : token.isComment = false) {c : Char}
    (hc : c ∈ token.text) :
    (isLineEnd c = true → token.kind = .newline) ∧ (c = '/' → token.kind = .slash) := by
  obtain ⟨kind, text⟩ := token
  cases kind with
  | lineComment => cases hcode
  | blockComment => cases hcode
  | newline =>
    refine ⟨fun _ => rfl, ?_⟩
    rintro rfl
    rcases h with rfl | rfl | rfl <;> simp at hc
  | slash =>
    obtain rfl := h
    simp only [List.mem_singleton] at hc
    simp [hc, isLineEnd]
  | spaces =>
    obtain rfl := h.2 c hc
    simp [isLineEnd]
  | text =>
    have hplain := h.2 c hc
    simp only [List.mem_cons, not_or] at hplain
    simp [isLineEnd, hplain]
  | hash | doubleQuote | singleQuote | tab =>
    obtain rfl := h
    simp only [List.mem_singleton] at hc
    simp [hc, isLineEnd]

theorem shaped_comment {token : Token} (h : token.Shaped) (hcomment : token.isComment = true) :
    ∃ second body, token.text = '/' :: second :: body ∧ (second = '/' ∨ second = '*') := by
  obtain ⟨kind, text⟩ := token
  cases kind with
  | lineComment =>
    obtain ⟨⟨body, rfl⟩, -⟩ := h
    exact ⟨'/', body, rfl, .inl rfl⟩
  | blockComment =>
    obtain ⟨⟨body, rfl⟩, -⟩ := h
    exact ⟨'*', body, rfl, .inr rfl⟩
  | _ => cases hcomment

section WithinLine

variable {line rest after : Text} {token : Token}

theorem no_comment_within_line (h : Reads (line ++ rest) token after) (hne : line ≠ [])
    (hmarker : ¬ HoldsMarker line) (hrest : ∀ c ∈ rest.head?, isLineEnd c = true) :
    token.isComment = false := by
  obtain ⟨first, others, rfl⟩ := List.exists_cons_of_ne_nil hne
  by_contra hcomment
  rw [Bool.not_eq_false] at hcomment
  obtain ⟨second, body, htext, hsecond⟩ := shaped_comment (shaped_of_reads h).1 hcomment
  have happ := h.append
  rw [htext] at happ
  simp only [List.cons_append, List.cons.injEq] at happ
  obtain ⟨rfl, happ⟩ := happ
  cases others with
  | nil =>
    have hend := hrest second (by rw [← List.nil_append rest, ← happ]; rfl)
    rcases hsecond with rfl | rfl <;> simp [isLineEnd] at hend
  | cons c others =>
    simp only [List.cons_append, List.cons.injEq] at happ
    apply hmarker
    rw [holds_marker_cons, ← happ.1]
    rcases hsecond with rfl | rfl <;> simp

theorem no_line_end_within_line (h : Reads (line ++ rest) token after) (hne : line ≠ [])
    (hfree : LineFree line) : token.kind ≠ .newline := by
  obtain ⟨first, others, rfl⟩ := List.exists_cons_of_ne_nil hne
  intro hkind
  obtain ⟨c, tail, htext, hend, -⟩ := shaped_head (shaped_of_reads h).1
  have happ := h.append
  rw [htext, List.cons_append, List.cons_append, List.cons.injEq] at happ
  have hc := hend.mpr hkind
  rw [happ.1, hfree first (by simp)] at hc
  cases hc

/-- A token read in a line without markers is no comment, and it ends within the line. -/
theorem reads_within_line (h : Reads (line ++ rest) token after) (hne : line ≠ [])
    (hfree : LineFree line) (hmarker : ¬ HoldsMarker line)
    (hrest : ∀ c ∈ rest.head?, isLineEnd c = true) :
    token.isComment = false ∧ ∃ tail, line = token.text ++ tail ∧ after = tail ++ rest := by
  have hcode := no_comment_within_line h hne hmarker hrest
  refine ⟨hcode, ?_⟩
  rcases List.append_eq_append_iff.mp h.append with ⟨tail, hwhole, hafter⟩ | ⟨tail, htext, hafter⟩
  · exact ⟨tail, hwhole, hafter⟩
  · cases tail with
    | nil => exact ⟨[], by simpa using htext.symm, by simpa using hafter.symm⟩
    | cons c tail =>
      have hend := hrest c (by rw [hafter]; rfl)
      have hkind := (shaped_mem (shaped_of_reads h).1 hcode (by simp [htext])).1 hend
      exact absurd hkind (no_line_end_within_line h hne hfree)

end WithinLine

theorem code_tokens_line {line rest : Text} (hfree : LineFree line) (hmarker : ¬ HoldsMarker line)
    (hrest : ∀ c ∈ rest.head?, isLineEnd c = true) :
    code (tokens (line ++ rest)) = line ++ code (tokens rest) := by
  induction hn : line.length using Nat.strong_induction_on generalizing line with
  | _ n ih =>
    by_cases hne : line = []
    · rw [hne, List.nil_append, List.nil_append]
    cases hlex : lex (line ++ rest) with
    | none =>
      obtain ⟨c, others, rfl⟩ := List.exists_cons_of_ne_nil hne
      exact absurd hlex (lex_cons_ne_none c (others ++ rest))
    | some cut =>
      obtain ⟨token, after⟩ := cut
      have hreads := reads_of_lex hlex
      obtain ⟨hcode, tail, rfl, rfl⟩ := reads_within_line hreads hne hfree hmarker hrest
      have hshort : tail.length < n := by
        have hpos := List.length_pos_iff.mpr hreads.text_ne_nil
        rw [← hn, List.length_append]
        omega
      have htail : tail <:+: token.text ++ tail := (List.suffix_append _ _).isInfix
      rw [code_tokens_of_reads hreads, hcode, ih tail.length hshort
        (fun c hc => hfree c (List.mem_append_right _ hc)) (fun h => hmarker (h.mono htail)) rfl,
        List.append_assoc]
      rfl

end Lines

section Markers

/-- No marker begins at a slash: the next token starts with neither of the two characters that
would complete one. -/
theorem code_head_of_slash {slash : Token} {ts : List Token} (h : WellFormed (slash :: ts))
    (hslash : slash.kind = .slash) : (code ts).head? ≠ some '/' ∧ (code ts).head? ≠ some '*' := by
  cases ts with
  | nil => simp
  | cons second ts =>
    obtain ⟨hshaped, hmeets⟩ := h
    have hnext := (List.isChain_cons.mp hmeets).1 second rfl
    simp only [Meets, hslash] at hnext
    obtain ⟨hsecond, hline, hblock, hstar⟩ := hnext
    obtain ⟨c, tail, hc, -, -, hplain, hkind⟩ := shaped_head (hshaped second (by simp))
    have hkept : second.isComment = false := by simp [isComment, hline, hblock]
    rw [code_cons, hkept, hc]
    constructor
    · intro e
      obtain rfl := Option.some.inj e
      rcases hkind.mp rfl with hk | hk | hk
      · exact hsecond hk
      · exact hline hk
      · exact hblock hk
    · intro e
      obtain rfl := Option.some.inj e
      exact hstar ⟨hplain.mp (by decide), by simp [hc]⟩

/-- The text of a token list without its comments holds no marker: a comment never stands right
behind a slash, so nothing moves up to one. -/
theorem code_marker_free {ts : List Token} (h : WellFormed ts) : ¬ HoldsMarker (code ts) := by
  induction ts with
  | nil => decide
  | cons token ts ih =>
    have hwell := h
    obtain ⟨hshaped, hmeets⟩ := h
    rw [List.forall_mem_cons] at hshaped
    rw [List.isChain_cons] at hmeets
    have hrest := ih ⟨hshaped.2, hmeets.2⟩
    rw [code_cons]
    cases hcode : token.isComment with
    | true => simpa using hrest
    | false =>
      rw [if_neg Bool.false_ne_true]
      by_cases hslash : token.kind = .slash
      · have htext : token.text = ['/'] := by
          have hform := hshaped.1
          rwa [Shaped, hslash] at hform
        rw [htext, List.singleton_append, holds_marker_cons]
        have hhead := code_head_of_slash hwell hslash
        simp [hrest, hhead]
      · have hfree : '/' ∉ token.text := by
          intro hm
          exact hslash ((shaped_mem hshaped.1 hcode hm).2 rfl)
        rwa [holds_marker_append hfree]

end Markers

end Token

namespace CharacterScan

open Token

/-- Each piece but a directive is one token, and a directive is read over by tokens of its own. -/
theorem kept_eq_code_tokens {fresh : Bool} {source : Text}
    (h : ∀ p ∈ Scan.piecesFrom false fresh source,
      p.kind = .directive → ¬ Text.HoldsMarker p.text) :
    kept (Scan.piecesFrom false fresh source) = code (tokens source) := by
  induction fresh, source using Scan.piecesFrom_induction false with
  | nil fresh => simp
  | cut fresh t p after rest hcut hpieces ih =>
    rw [hpieces] at h ⊢
    obtain ⟨hfirst, hrest⟩ := List.forall_mem_cons.mp h
    rw [kept_cons, ih hrest]
    cases hcut with
    | lineComment hreads hkind =>
      simp [code_tokens_of_reads hreads, copied, Piece.isComment, isComment, hkind]
    | blockComment hreads hkind =>
      simp [code_tokens_of_reads hreads, copied, Piece.isComment, isComment, hkind]
    | lineEnd hreads hkind =>
      simp [code_tokens_of_reads hreads, copied, Piece.isComment, isComment, hkind]
    | plain hreads hkind hhash hquote =>
      simp [code_tokens_of_reads hreads, copied, Piece.isComment, isComment, hkind]
    | literal hreads hquote => cases hquote
    | @directive _ rest token hreads hkind =>
      have hline : code (tokens (Text.restOfLine rest ++ Text.afterLine rest)) =
          Text.restOfLine rest ++ code (tokens (Text.afterLine rest)) := by
        apply code_tokens_line (Text.line_free_restOfLine rest)
        · intro hmarker
          exact hfirst rfl (hmarker.mono (List.suffix_append _ _).isInfix)
        · intro c hc
          simpa using Text.head_dropWhile hc
      rw [Text.restOfLine, Text.afterLine, List.takeWhile_append_dropWhile] at hline
      rw [code_tokens_of_reads hreads, hline]
      simp [copied, Piece.isComment, isComment, hkind, Text.restOfLine, Text.afterLine]

end CharacterScan

/-- The tokens that are no comments spell out what comment removal leaves just when no directive
holds a comment marker. -/
theorem removeComments_eq_code_iff (source : Text) :
    removeComments false source = Token.code (Token.sliced source) ↔
      ∀ p ∈ Scan.pieces false source, p.kind = .directive → ¬ Text.HoldsMarker p.text := by
  rw [Token.sliced_eq_tokens]
  constructor
  · intro heq p hp hkind hmarker
    have hkept : p ∈ (Scan.pieces false source).filter fun p => !p.isComment := by
      simp [hp, hkind, Piece.isComment]
    have hinside : p.text <:+: removeComments false source := by
      obtain ⟨front, back, hsplit⟩ := List.append_of_mem hkept
      refine ⟨front.flatMap Piece.text, back.flatMap Piece.text, ?_⟩
      rw [removeComments, hsplit, List.flatMap_append, List.flatMap_cons, List.append_assoc]
    rw [heq] at hinside
    exact Token.code_marker_free (Token.tokens_well_formed source) (hmarker.mono hinside)
  · exact CharacterScan.kept_eq_code_tokens

/-- In a directive the tokens show a comment where comment removal reads none. -/
example : Token.code (Token.sliced "a/**/\n#b '/*\n*/c".toList) = "a\n#b 'c".toList ∧
    removeComments false "a/**/\n#b '/*\n*/c".toList = "a\n#b '/*\n*/c".toList := by
  decide +kernel

end SqfMinifier
