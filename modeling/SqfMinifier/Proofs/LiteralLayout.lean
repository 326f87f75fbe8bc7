import SqfMinifier.Proofs.LayoutContent
import SqfMinifier.Proofs.Literals
import SqfMinifier.Proofs.NormalForm
import Mathlib.Data.List.SplitBy

/-!
Literals in the output. Where literals are respected, the output holds no comment, and its literals
are those of the source in their order, but for blanks and line ends inside them. A literal may
have been broken up by layout on its way, where a line inside it starts with `#`, and directives
may hold quotes that pair with nothing. The modes of the scan tell all of this apart, and a reader
that follows them is blind to layout.
-/

namespace SqfMinifier

theorem Scan.ne_nil_of_mem_literals {source l : Text} (h : l ∈ literals source) : l ≠ [] := by
  obtain ⟨p, hp, rfl⟩ := List.mem_map.mp h
  exact text_ne_nil_of_mem_piecesFrom true true source p (List.mem_filter.mp hp).1

namespace CharacterScan

theorem kept_length_le (pieces : List Piece) :
    (kept pieces).length ≤ (pieces.flatMap Piece.text).length := by
  induction pieces with
  | nil => simp
  | cons p rest ih =>
    have hcopied : (copied p).length ≤ p.text.length := by
      unfold copied
      split_ifs <;> simp
    rw [kept_cons, List.flatMap_cons, List.length_append, List.length_append]
    omega

theorem no_comment_of_kept {pieces : List Piece} (hne : ∀ p ∈ pieces, p.text ≠ [])
    (h : kept pieces = pieces.flatMap Piece.text) : ∀ p ∈ pieces, p.isComment = false := by
  induction pieces with
  | nil => simp
  | cons p rest ih =>
    obtain ⟨hfirst, hrest⟩ := List.forall_mem_cons.mp hne
    rw [kept_cons, List.flatMap_cons] at h
    cases hp : p.isComment with
    | true =>
      have hlength := congrArg List.length h
      have hle := kept_length_le rest
      have hpos := List.length_pos_iff.mpr hfirst
      simp only [copied, hp, if_true, List.nil_append, List.length_append] at hlength
      omega
    | false =>
      simp only [copied, hp, Bool.false_eq_true, if_false] at h
      exact List.forall_mem_cons.mpr ⟨hp, ih hrest (List.append_cancel_left h)⟩

section Inscribing

/-- What a character adds to the literals of a text, and whether it opens a new one. -/
def inscribed : Mode → Char → List (Bool × Char)
  | .code _, c => if (Quote.ofChar? c).isSome then [(true, c)] else []
  | .directive, _ => []
  | .literal _, c => if Text.isInk c then [(false, c)] else []

def literalReader : Reader Mode (Bool × Char) where
  next := Mode.after true
  note := inscribed

theorem inscribed_of_not_ink {c : Char} (hc : Text.isInk c = false) (mode : Mode) :
    inscribed mode c = [] := by
  cases mode with
  | code fresh =>
    have hdouble : c ≠ '"' := by
      rintro rfl
      simp [Text.isInk, Text.isBlank, Text.isLineEnd] at hc
    have hsingle : c ≠ '\'' := by
      rintro rfl
      simp [Text.isInk, Text.isBlank, Text.isLineEnd] at hc
    simp [inscribed, Quote.ofChar?, hdouble, hsingle]
  | directive => rfl
  | literal q => simp [inscribed, hc]

theorem literalReader_newline (mode : Mode) : literalReader.newline mode = mode.newline :=
  Mode.after_line_end true mode (by decide)

theorem literalReader_spaced (mode : Mode) : literalReader.spaced mode = mode.spaced :=
  Mode.after_blank true mode (by decide)

theorem literalReader_joins_iff {mode : Mode} :
    literalReader.Joins mode ↔ mode ≠ .directive := by
  rw [Reader.Joins, literalReader_newline, literalReader_spaced, literalReader_spaced]
  exact Mode.spaced_newline_iff

theorem literalReader_blind : literalReader.Blind where
  line_end mode c hc := by
    rw [literalReader_newline]
    exact ⟨Mode.after_line_end true mode hc, inscribed_of_not_ink (Text.isInk_of_line_end hc) mode⟩
  blank mode c hc := by
    rw [literalReader_spaced]
    exact ⟨Mode.after_blank true mode hc, inscribed_of_not_ink (Text.isInk_of_blank hc) mode⟩
  newline_newline mode := by simp [literalReader_newline]
  newline_spaced mode := by simp [literalReader_newline, literalReader_spaced]
  spaced_spaced mode := by simp [literalReader_spaced]
  line_start mode c _ hhash := by
    rw [literalReader_newline, literalReader_spaced]
    refine ⟨after_spaced_newline mode hhash, ?_⟩
    cases mode <;> rfl
  gap mode l c hl _ _ := by
    have hfresh : literalReader.next mode l ≠ .code true :=
      after_ne_fresh (Text.isInk_iff.mp hl).2 mode
    rw [literalReader_spaced, Mode.spaced_of_ne_fresh hfresh]
    exact ⟨rfl, rfl⟩
  joins mode c hm _ hhash := by
    rw [literalReader_joins_iff] at hm ⊢
    exact after_ne_directive hm fun _ => hhash
  joins_hash mode l hm hl := by
    rw [literalReader_joins_iff] at hm ⊢
    apply after_ne_directive hm
    intro hfresh
    exact absurd hfresh (after_ne_fresh hl mode)

end Inscribing

section Pieces

def inscription : Text → List (Bool × Char)
  | [] => []
  | quote :: body => (true, quote) :: (Text.ink body).map (false, ·)

theorem read_literal_body {q : Quote} {body : Text} (h : q.char ∉ body) :
    literalReader.read (.literal q) body = ((Text.ink body).map (false, ·), .literal q) := by
  induction body with
  | nil => rfl
  | cons c body ih =>
    rw [List.mem_cons, not_or] at h
    have hstay : literalReader.next (.literal q) c = .literal q := by
      simp [literalReader, Mode.after, Ne.symm h.1]
    rw [Reader.read, hstay, ih h.2, Text.ink_cons]
    by_cases hc : Text.isInk c = true <;> simp [literalReader, inscribed, hc]

theorem read_directive_line {t : Text} (hfree : Text.LineFree t) :
    literalReader.read .directive t = ([], .directive) := by
  induction t with
  | nil => rfl
  | cons c t ih =>
    obtain ⟨hc, ht⟩ := Text.line_free_cons.mp hfree
    have hskip : literalReader.Skips .directive c .directive := by
      simp [Reader.Skips, literalReader, Mode.after, inscribed, hc]
    rw [Reader.read_skip hskip, ih ht]

theorem skips_code {fresh : Bool} {c : Char} (h : Mode.after true (.code fresh) c = .code false) :
    literalReader.Skips (.code fresh) c (.code false) := by
  refine ⟨h, ?_⟩
  cases hq : Quote.ofChar? c with
  | none => simp [literalReader, inscribed, hq]
  | some q =>
    obtain rfl := Quote.ofChar?_eq_some hq
    cases q <;> cases h

theorem read_run {fresh : Bool} {c : Char} {run : Text}
    (hfirst : Mode.after true (.code fresh) c = .code false)
    (hrun : ∀ d ∈ run, Mode.after true (.code false) d = .code false) (t : Text) :
    literalReader.read (.code fresh) (c :: run ++ t) = literalReader.read (.code false) t := by
  rw [List.cons_append, Reader.read_skip (skips_code hfirst)]
  induction run with
  | nil => rfl
  | cons d run ih =>
    obtain ⟨hd, hrest⟩ := List.forall_mem_cons.mp hrun
    rw [List.cons_append, Reader.read_skip (skips_code hd), ih hrest]

theorem read_plain_token {fresh : Bool} {t rest : Text} {token : Token}
    (h : Token.Reads t token rest)
    (hkind : token.kind ≠ .lineComment ∧ token.kind ≠ .blockComment ∧ token.kind ≠ .newline)
    (hhash : token.kind = .hash → fresh = false)
    (hquote : (if true then token.kind.quote? else none) = none) (u : Text) :
    literalReader.read (.code fresh) (token.text ++ u) = literalReader.read (.code false) u := by
  cases h with
  | lineComment => exact absurd rfl hkind.1
  | blockComment => exact absurd rfl hkind.2.1
  | returnFeed => exact absurd rfl hkind.2.2
  | loneReturn => exact absurd rfl hkind.2.2
  | lineFeed => exact absurd rfl hkind.2.2
  | slash rest hnext => exact read_run (after_code_slash true fresh) (by simp) u
  | sign kind c rest hs => exact read_run (after_code_sign hs hhash hquote).2 (by simp) u
  | spaces rest =>
    refine read_run (after_code_space true fresh) ?_ u
    intro d hd
    obtain rfl : d = ' ' := by simpa using List.mem_takeWhile_imp hd
    exact after_code_space true false
  | text c rest hplain =>
    refine read_run (after_code_isPlain true fresh hplain).2 ?_ u
    intro d hd
    exact (after_code_isPlain true false (List.mem_takeWhile_imp hd)).2

theorem read_newline_token {fresh : Bool} {t rest : Text} {token : Token}
    (h : Token.Reads t token rest) (hkind : token.kind = .newline) (u : Text) :
    literalReader.read (.code fresh) (token.text ++ u) = literalReader.read (.code true) u := by
  have hreturn : ∀ fresh t, literalReader.read (.code fresh) ('\r' :: t) =
      literalReader.read (.code true) t := by
    intro fresh t
    exact literalReader_blind.read_line_end _ (by decide) t
  have hfeed : ∀ fresh t, literalReader.read (.code fresh) ('\n' :: t) =
      literalReader.read (.code true) t := by
    intro fresh t
    exact literalReader_blind.read_feed _ t
  cases h with
  | returnFeed rest => exact (hreturn fresh _).trans (hfeed true u)
  | loneReturn rest _ => exact hreturn fresh u
  | lineFeed rest => exact hfeed fresh u
  | sign kind c rest hs => simp_all [TokenKind.sign?]
  | _ => cases hkind

theorem read_directive_token {t rest : Text} {token : Token} (h : Token.Reads t token rest)
    (hkind : token.kind = .hash) (u : Text) :
    literalReader.read (.code true) (token.text ++ Text.restOfLine rest ++ u) =
      literalReader.read .directive u := by
  cases h with
  | sign kind c rest hs =>
    obtain rfl : kind = .hash := hkind
    cases hs
    have hopen : literalReader.Skips (.code true) '#' .directive := ⟨rfl, rfl⟩
    rw [List.append_assoc, List.singleton_append, Reader.read_skip hopen, Reader.read_append,
      read_directive_line (Text.line_free_restOfLine rest)]
    rfl
  | _ => cases hkind

/-- What is noted of a literal, closed or not, stands apart from what is noted behind it. -/
theorem notes_literal_token {fresh : Bool} {t rest : Text} {token : Token} {quote : Char}
    (h : Token.Reads t token rest)
    (hquote : (if true then token.kind.quote? else none) = some quote) :
    (literalReader.read (.code fresh) (token.text ++ (Scan.throughQuote quote rest).1 ++
        copy true (.copying (.code false)) (Scan.throughQuote quote rest).2)).1 =
      inscription (token.text ++ (Scan.throughQuote quote rest).1) ++
        (literalReader.read (.code false)
          (copy true (.copying (.code false)) (Scan.throughQuote quote rest).2)).1 := by
  rw [if_pos rfl] at hquote
  cases h with
  | sign kind c rest hs =>
    rw [Quote.quote?_eq_of_sign hs, Option.map_eq_some_iff] at hquote
    obtain ⟨q, hq, rfl⟩ := hquote
    obtain rfl := Quote.ofChar?_eq_some hq
    have hopen : ∀ t, literalReader.read (.code fresh) (q.char :: t) =
        (literalReader.read (.literal q) t).map ((true, q.char) :: ·) id := by
      intro t
      cases q <;> rfl
    have hink : Text.ink [q.char] = [q.char] := by cases q <;> rfl
    rcases Scan.throughQuote_cases q.char rest with ⟨body, hbody, hcut⟩ | ⟨hnone, hcut⟩
    · have hclose : literalReader.read (.literal q) [q.char] =
          ([(false, q.char)], .code false) := by
        cases q <;> rfl
      rw [hcut, List.singleton_append, List.cons_append, hopen, List.append_assoc,
        Reader.read_append, Reader.read_append, read_literal_body hbody, hclose]
      simp [inscription, Text.ink_append, hink]
    · rw [hcut]
      simp [inscription, hopen, read_literal_body hnone]
  | _ => cases hquote

/-- Behind a line comment or a directive the line ends, and so does what it was in. -/
theorem read_copy_line_end {mode other : Mode} (h : mode.newline = other.newline) {t : Text}
    (ht : ∀ c ∈ t.head?, Text.isLineEnd c = true) :
    (literalReader.read mode (copy true (.copying (.code false)) t)).1 =
      (literalReader.read other (copy true (.copying (.code false)) t)).1 := by
  cases t with
  | nil => simp
  | cons c t =>
    have hc := ht c rfl
    rw [copy_code_line_end hc, literalReader_blind.read_line_end _ hc,
      literalReader_blind.read_line_end _ hc, literalReader_newline, literalReader_newline, h]

theorem line_end_afterLine (t : Text) :
    ∀ c ∈ (Text.afterLine t).head?, Text.isLineEnd c = true := by
  intro c hc
  simpa using Text.head_dropWhile hc

theorem line_end_of_lineComment {t rest : Text} {token : Token} (h : Token.Reads t token rest)
    (hkind : token.kind = .lineComment) : ∀ c ∈ rest.head?, Text.isLineEnd c = true := by
  cases h with
  | lineComment body => exact line_end_afterLine body
  | sign kind c rest hs => simp_all [TokenKind.sign?]
  | _ => cases hkind

/-- Of a literal that the scan cuts off, and of no other piece, something is noted. -/
theorem notes_cut {fresh after : Bool} {t rest : Text} {p : Piece}
    (h : Scan.Cuts true fresh t p after rest) :
    (literalReader.read (.code fresh) (copied p ++ copy true (.copying (.code after)) rest)).1 =
      (Scan.quotations [p]).flatMap inscription ++
        (literalReader.read (.code after) (copy true (.copying (.code after)) rest)).1 := by
  cases h with
  | lineComment h hkind =>
    have hmode : (Mode.code fresh).newline = (Mode.code false).newline := rfl
    exact read_copy_line_end hmode (line_end_of_lineComment h hkind)
  | blockComment h hkind => rfl
  | lineEnd h hkind => exact congrArg Prod.fst (read_newline_token h hkind _)
  | @directive _ rest token h hkind =>
    have hmode : Mode.directive.newline = (Mode.code false).newline := rfl
    have hline := congrArg Prod.fst (read_directive_token h hkind
      (copy true (.copying (.code false)) (Text.afterLine rest)))
    exact hline.trans (read_copy_line_end hmode (line_end_afterLine rest))
  | literal h hquote =>
    have hone : ∀ text, (Scan.quotations [⟨.literal, text⟩]).flatMap inscription =
        inscription text := by
      intro text
      simp [Scan.quotations]
    rw [hone]
    exact notes_literal_token h hquote
  | plain h hkind hhash hquote => exact congrArg Prod.fst (read_plain_token h hkind hhash hquote _)

theorem notes_copy (fresh : Bool) (source : Text) :
    (literalReader.read (.code fresh) (copy true (.copying (.code fresh)) source)).1 =
      (Scan.quotations (Scan.piecesFrom true fresh source)).flatMap inscription := by
  induction fresh, source using Scan.piecesFrom_induction true with
  | nil fresh => simp [Scan.quotations]
  | cut fresh t p after rest hcut hpieces ih =>
    rw [hpieces, copy_cut hcut id fun _ => rfl, notes_cut hcut, ih,
      Scan.quotations_cons p (Scan.piecesFrom true after rest), List.flatMap_append]

end Pieces

section Regrouping

/-- Notes fall into literals at the quotes that open them. -/
theorem splitBy_inscriptions {literals : List Text} (h : ∀ l ∈ literals, l ≠ []) :
    (literals.flatMap inscription).splitBy (fun _ mark => !mark.1) =
      literals.map inscription := by
  have hshape : ∀ marks ∈ literals.map inscription,
      ∃ (quote : Char) (body : Text), marks = (true, quote) :: body.map (false, ·) := by
    intro marks hm
    obtain ⟨l, hl, rfl⟩ := List.mem_map.mp hm
    obtain ⟨quote, body, rfl⟩ := List.exists_cons_of_ne_nil (h l hl)
    exact ⟨quote, Text.ink body, rfl⟩
  rw [List.flatMap_def]
  apply List.splitBy_flatten
  · intro hm
    obtain ⟨quote, body, he⟩ := hshape [] hm
    cases he
  · intro marks hm
    obtain ⟨quote, body, rfl⟩ := hshape marks hm
    apply List.Pairwise.isChain
    rw [List.pairwise_cons, List.pairwise_map]
    constructor
    · simp
    · apply List.pairwise_of_forall_mem_list
      intro _ _ _ _
      rfl
  · apply List.Pairwise.isChain
    apply List.pairwise_of_forall_mem_list
    intro before hbefore marks hm
    obtain ⟨_, _, rfl⟩ := hshape before hbefore
    obtain ⟨quote, body, rfl⟩ := hshape marks hm
    exact ⟨by simp, by simp, rfl⟩

theorem ink_inscription (l : Text) : Text.ink ((inscription l).map Prod.snd) = Text.ink l := by
  cases l with
  | nil => rfl
  | cons quote body => simp [inscription, Text.ink_cons, Function.comp_def, Text.ink_ink]

theorem map_ink_congr {a b : List Text} (ha : ∀ l ∈ a, l ≠ []) (hb : ∀ l ∈ b, l ≠ [])
    (h : a.flatMap inscription = b.flatMap inscription) : a.map Text.ink = b.map Text.ink := by
  have hmarks : a.map inscription = b.map inscription := by
    rw [← splitBy_inscriptions ha, ← splitBy_inscriptions hb, h]
  have hink : ∀ literals : List Text, literals.map Text.ink =
      (literals.map inscription).map fun marks => Text.ink (marks.map Prod.snd) := by
    intro literals
    rw [List.map_map]
    apply List.map_congr_left
    intro l _
    exact (ink_inscription l).symm
  rw [hink, hink b, hmarks]

end Regrouping

end CharacterScan

open CharacterScan

theorem notes_removeComments (source : Text) :
    (literalReader.read (.code true) (removeComments true source)).1 =
      (Scan.literals source).flatMap inscription := by
  have hcopy : removeComments true source = _ := kept_pieces true true source
  rw [hcopy]
  exact notes_copy true source

/-- Where literals are respected the output holds no comment, and its literals are those of the
source, in their order and but for blanks and line ends inside them. -/
theorem literals_kept (source : Text) :
    (∀ p ∈ Scan.pieces true (minify true source), p.isComment = false) ∧
      (Scan.literals (minify true source)).map Text.ink =
        (Scan.literals source).map Text.ink := by
  have hsame : removeComments true (minify true source) = minify true source :=
    removeComments_of_comment_free (minify_comment_free true source)
  constructor
  · apply no_comment_of_kept
    · exact Scan.text_ne_nil_of_mem_piecesFrom true true _
    · exact hsame.trans (Scan.flatMap_piecesFrom true true _).symm
  · have hnotes : (Scan.literals (minify true source)).flatMap inscription =
        (Scan.literals source).flatMap inscription := by
      rw [← notes_removeComments, ← notes_removeComments, hsame]
      exact literalReader_blind.notes_arrange (literalReader_newline _) (removeComments true source)
    apply map_ink_congr _ _ hnotes
    · intro l hl
      exact Scan.ne_nil_of_mem_literals hl
    · intro l hl
      exact Scan.ne_nil_of_mem_literals hl

/-- A literal that layout breaks up, a comment and a directive with a quote, and an open literal. -/
example : Scan.literals (minify true "\"a \t\n#b\" // '\n#c 'd\n'/*".toList) =
    ["\"a\n#b\"".toList, "'/*".toList] := by decide +kernel

end SqfMinifier
