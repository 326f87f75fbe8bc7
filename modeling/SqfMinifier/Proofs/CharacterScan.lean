import SqfMinifier.Proofs.ScanPieces

/-!
Comment removal one character at a time. The scan below knows no tokens: it looks at one
character, or at two where a comment opens or closes, and remembers in its mode what it is in.
Removing the comment pieces of a source gives exactly what this scan copies, so the jumps over
whole tokens, directive lines and literals never lose step with the characters.
-/

namespace SqfMinifier

inductive Quote where
  | double
  | single
  deriving DecidableEq, Repr

namespace Quote

def char : Quote → Char
  | double => '"'
  | single => '\''

def ofChar? (c : Char) : Option Quote :=
  if c = '"' then some double else if c = '\'' then some single else none

def opened? (aware : Bool) (c : Char) : Option Quote := if aware then ofChar? c else none

theorem ofChar?_eq_some {c : Char} {q : Quote} (h : ofChar? c = some q) : c = q.char := by
  unfold ofChar? at h
  split_ifs at h with hd hs
  · cases h; exact hd
  · cases h; exact hs

theorem quote?_eq_of_sign {kind : TokenKind} {c : Char} (h : kind.sign? = some c) :
    kind.quote? = (ofChar? c).map char := by
  cases kind <;> cases h <;> rfl

theorem char_not_line_end (q : Quote) : Text.isLineEnd q.char = false := by
  cases q <;> decide

end Quote

namespace CharacterScan

/-- What copied text belongs to. `fresh` tells whether a `#` would open a directive here. -/
inductive Mode where
  | code (fresh : Bool)
  | directive
  | literal (quote : Quote)
  deriving DecidableEq, Repr

inductive Place where
  | copying (mode : Mode)
  | lineComment
  | blockComment (fresh : Bool)
  deriving DecidableEq, Repr

def Mode.after (aware : Bool) : Mode → Char → Mode
  | .code fresh, c =>
    if Text.isLineEnd c then .code true
    else if c = '#' ∧ fresh then .directive
    else
      match Quote.opened? aware c with
      | some q => .literal q
      | none => .code false
  | .directive, c => if Text.isLineEnd c then .code true else .directive
  | .literal q, c => if c = q.char then .code false else .literal q

/-- Skips comments and copies all else. Behind a block comment the scan is as it was in front of
it, and the star that opens the comment does not serve to close it. -/
def copy (aware : Bool) : Place → Text → Text
  | _, [] => []
  | .copying (.code _), '/' :: '/' :: rest => copy aware .lineComment rest
  | .copying (.code fresh), '/' :: '*' :: rest => copy aware (.blockComment fresh) rest
  | .copying mode, c :: rest => c :: copy aware (.copying (mode.after aware c)) rest
  | .lineComment, c :: rest =>
    if Text.isLineEnd c then c :: copy aware (.copying (.code true)) rest
    else copy aware .lineComment rest
  | .blockComment fresh, '*' :: '/' :: rest => copy aware (.copying (.code fresh)) rest
  | .blockComment fresh, _ :: rest => copy aware (.blockComment fresh) rest

def OpensComment (c : Char) (rest : Text) : Prop :=
  c = '/' ∧ (rest.head? = some '/' ∨ rest.head? = some '*')

theorem not_opens_comment {c : Char} (h : c ≠ '/') (rest : Text) : ¬ OpensComment c rest := by
  intro ho
  exact h ho.1

section Copying

variable {aware : Bool}

@[simp] theorem copy_nil (place : Place) : copy aware place [] = [] := by
  cases place <;> rfl

theorem copy_code_cons {fresh : Bool} {c : Char} {rest : Text} (h : ¬ OpensComment c rest) :
    copy aware (.copying (.code fresh)) (c :: rest) =
      c :: copy aware (.copying (Mode.after aware (.code fresh) c)) rest := by
  rw [copy]
  · rintro _ tail _ rfl rfl
    exact h ⟨rfl, Or.inl rfl⟩
  · rintro _ tail _ rfl rfl
    exact h ⟨rfl, Or.inr rfl⟩

theorem copy_directive_cons (c : Char) (rest : Text) :
    copy aware (.copying .directive) (c :: rest) =
      c :: copy aware (.copying (Mode.after aware .directive c)) rest := by
  rw [copy] <;> intros <;> contradiction

theorem copy_literal_cons (q : Quote) (c : Char) (rest : Text) :
    copy aware (.copying (.literal q)) (c :: rest) =
      c :: copy aware (.copying (Mode.after aware (.literal q) c)) rest := by
  rw [copy] <;> intros <;> contradiction

theorem copy_code_line_end {fresh : Bool} {c : Char} (hc : Text.isLineEnd c = true) (rest : Text) :
    copy aware (.copying (.code fresh)) (c :: rest) =
      c :: copy aware (.copying (.code true)) rest := by
  have hslash : c ≠ '/' := by
    rintro rfl
    simp [Text.isLineEnd] at hc
  rw [copy_code_cons (not_opens_comment hslash rest), Mode.after, if_pos hc]

/-- A line comment ends where the line does, in whatever mode code goes on. -/
theorem copy_lineComment (fresh : Bool) (t : Text) :
    copy aware .lineComment t = copy aware (.copying (.code fresh)) (Text.afterLine t) := by
  induction t with
  | nil => rfl
  | cons c rest ih =>
    by_cases hc : Text.isLineEnd c = true
    · simp only [copy, Text.afterLine, hc, List.dropWhile_cons, Bool.not_true, if_true,
        Bool.false_eq_true, if_false]
      rw [copy_code_line_end hc]
    · simpa [copy, Text.afterLine, hc] using ih

theorem copy_blockComment (fresh : Bool) (t : Text) :
    copy aware (.blockComment fresh) t =
      copy aware (.copying (.code fresh)) (Token.throughClose t).2 := by
  fun_induction Token.throughClose t with
  | case1 => rfl
  | case2 rest => rfl
  | case3 c rest hopen ih =>
    rw [copy]
    · exact ih
    · exact hopen

theorem copy_directive (t : Text) :
    copy aware (.copying .directive) t =
      Text.restOfLine t ++ copy aware (.copying (.code false)) (Text.afterLine t) := by
  induction t with
  | nil => simp [Text.restOfLine, Text.afterLine]
  | cons c rest ih =>
    by_cases hc : Text.isLineEnd c = true
    · simp only [copy_directive_cons, Mode.after, Text.afterLine, Text.restOfLine, hc,
        List.dropWhile_cons, List.takeWhile_cons, Bool.not_true, if_true, Bool.false_eq_true,
        if_false, List.nil_append]
      rw [copy_code_line_end hc]
    · simpa [copy_directive_cons, Mode.after, Text.afterLine, Text.restOfLine, hc] using ih

theorem copy_literal (q : Quote) (t : Text) :
    copy aware (.copying (.literal q)) t =
      (Scan.throughQuote q.char t).1 ++
        copy aware (.copying (.code false)) (Scan.throughQuote q.char t).2 := by
  fun_induction Scan.throughQuote q.char t with
  | case1 => simp
  | case2 rest => simp [copy_literal_cons, Mode.after]
  | case3 c rest hc ih => simp [copy_literal_cons, Mode.after, hc, ih]

theorem after_code_plain {fresh : Bool} {c : Char} (hend : Text.isLineEnd c = false)
    (hhash : c = '#' → fresh = false) (hquote : Quote.opened? aware c = none) :
    Mode.after aware (.code fresh) c = .code false := by
  have hopen : ¬ (c = '#' ∧ fresh = true) := by
    rintro ⟨hc, hfresh⟩
    simp [hhash hc] at hfresh
  simp [Mode.after, hend, hopen, hquote]

theorem after_code_slash (aware fresh : Bool) :
    Mode.after aware (.code fresh) '/' = .code false :=
  after_code_plain rfl (by simp) (by simp [Quote.opened?, Quote.ofChar?])

theorem after_code_space (aware fresh : Bool) :
    Mode.after aware (.code fresh) ' ' = .code false :=
  after_code_plain rfl (by simp) (by simp [Quote.opened?, Quote.ofChar?])

theorem after_code_sign {fresh : Bool} {kind : TokenKind} {c : Char} (hs : kind.sign? = some c)
    (hhash : kind = .hash → fresh = false)
    (hquote : (if aware then kind.quote? else none) = none) :
    c ≠ '/' ∧ Mode.after aware (.code fresh) c = .code false := by
  have hc : c ≠ '/' ∧ Text.isLineEnd c = false ∧ (c = '#' → kind = .hash) := by
    cases kind <;> cases hs <;> decide
  have hnone : Quote.opened? aware c = none := by
    rw [Quote.quote?_eq_of_sign hs] at hquote
    unfold Quote.opened?
    split_ifs at hquote ⊢
    · simpa using hquote
    · rfl
  refine ⟨hc.1, after_code_plain hc.2.1 ?_ hnone⟩
  intro e
  exact hhash (hc.2.2 e)

theorem after_code_isPlain (aware fresh : Bool) {c : Char} (h : Token.isPlain c = true) :
    c ≠ '/' ∧ Mode.after aware (.code fresh) c = .code false := by
  simp only [Token.isPlain, Bool.not_eq_true', Bool.or_eq_false_iff, beq_eq_false_iff_ne] at h
  refine ⟨by simp [h], after_code_plain ?_ ?_ ?_⟩
  · simp [Text.isLineEnd, h]
  · simp [h]
  · simp [Quote.opened?, Quote.ofChar?, h]

/-- A run of characters that neither end lines nor open anything, behind one that does not. -/
theorem copy_run {fresh : Bool} {c : Char} {run : Text} (hslash : c ≠ '/')
    (hfirst : Mode.after aware (.code fresh) c = .code false)
    (hrun : ∀ d ∈ run, d ≠ '/' ∧ Mode.after aware (.code false) d = .code false) (rest : Text) :
    copy aware (.copying (.code fresh)) (c :: run ++ rest) =
      c :: run ++ copy aware (.copying (.code false)) rest := by
  induction run generalizing fresh c with
  | nil => simp [copy_code_cons (not_opens_comment hslash rest), hfirst]
  | cons d run ih =>
    obtain ⟨⟨hd, hmode⟩, hrest⟩ := List.forall_mem_cons.mp hrun
    rw [List.cons_append, copy_code_cons (not_opens_comment hslash _), hfirst, ih hd hmode hrest]
    rfl

theorem copy_lineComment_token {fresh next : Bool} {t rest : Text} {token : Token}
    (h : Token.Reads t token rest) (hkind : token.kind = .lineComment) :
    copy aware (.copying (.code fresh)) t = copy aware (.copying (.code next)) rest := by
  cases h with
  | lineComment body => rw [copy, copy_lineComment]
  | sign kind c rest hs => simp_all [TokenKind.sign?]
  | _ => cases hkind

theorem copy_blockComment_token {fresh : Bool} {t rest : Text} {token : Token}
    (h : Token.Reads t token rest) (hkind : token.kind = .blockComment) :
    copy aware (.copying (.code fresh)) t = copy aware (.copying (.code fresh)) rest := by
  cases h with
  | blockComment body => rw [copy, copy_blockComment]
  | sign kind c rest hs => simp_all [TokenKind.sign?]
  | _ => cases hkind

theorem copy_newline_token {fresh : Bool} {t rest : Text} {token : Token}
    (h : Token.Reads t token rest) (hkind : token.kind = .newline) :
    copy aware (.copying (.code fresh)) t =
      token.text ++ copy aware (.copying (.code true)) rest := by
  cases h with
  | returnFeed rest =>
    rw [copy_code_line_end (by decide), copy_code_line_end (by decide)]
    rfl
  | loneReturn rest _ => exact copy_code_line_end (by decide) rest
  | lineFeed rest => exact copy_code_line_end (by decide) rest
  | sign kind c rest hs => simp_all [TokenKind.sign?]
  | _ => cases hkind

theorem copy_directive_token {t rest : Text} {token : Token} (h : Token.Reads t token rest)
    (hkind : token.kind = .hash) :
    copy aware (.copying (.code true)) t = token.text ++ Text.restOfLine rest ++
      copy aware (.copying (.code false)) (Text.afterLine rest) := by
  cases h with
  | sign kind c rest hs =>
    obtain rfl : kind = .hash := hkind
    cases hs
    have hmode : Mode.after aware (.code true) '#' = .directive := by
      simp [Mode.after, Text.isLineEnd]
    rw [copy_code_cons (not_opens_comment (by decide) rest), hmode, copy_directive]
    rfl
  | _ => cases hkind

theorem copy_literal_token {fresh : Bool} {t rest : Text} {token : Token} {quote : Char}
    (h : Token.Reads t token rest)
    (hquote : (if aware then token.kind.quote? else none) = some quote) :
    copy aware (.copying (.code fresh)) t = token.text ++ (Scan.throughQuote quote rest).1 ++
      copy aware (.copying (.code false)) (Scan.throughQuote quote rest).2 := by
  obtain ⟨haware, hquote⟩ : aware = true ∧ token.kind.quote? = some quote := by
    split_ifs at hquote with ha
    exact ⟨ha, hquote⟩
  cases h with
  | sign kind c rest hs =>
    rw [Quote.quote?_eq_of_sign hs, Option.map_eq_some_iff] at hquote
    obtain ⟨q, hq, rfl⟩ := hquote
    obtain rfl := Quote.ofChar?_eq_some hq
    have hslash : q.char ≠ '/' := by cases q <;> decide
    have hmode : Mode.after aware (.code fresh) q.char = .literal q := by
      cases q <;>
        simp [Mode.after, Text.isLineEnd, Quote.opened?, Quote.ofChar?, Quote.char, haware]
    rw [copy_code_cons (not_opens_comment hslash rest), hmode, copy_literal]
    rfl
  | _ => cases hquote

theorem copy_plain_token {fresh : Bool} {t rest : Text} {token : Token}
    (h : Token.Reads t token rest)
    (hkind : token.kind ≠ .lineComment ∧ token.kind ≠ .blockComment ∧ token.kind ≠ .newline)
    (hhash : token.kind = .hash → fresh = false)
    (hquote : (if aware then token.kind.quote? else none) = none) :
    copy aware (.copying (.code fresh)) t =
      token.text ++ copy aware (.copying (.code false)) rest := by
  cases h with
  | lineComment => exact absurd rfl hkind.1
  | blockComment => exact absurd rfl hkind.2.1
  | returnFeed => exact absurd rfl hkind.2.2
  | loneReturn => exact absurd rfl hkind.2.2
  | lineFeed => exact absurd rfl hkind.2.2
  | slash rest hnext =>
    have hopen : ¬ OpensComment '/' rest := by
      rintro ⟨_, hslash | hstar⟩
      · exact hnext.1 hslash
      · exact hnext.2 hstar
    rw [copy_code_cons hopen, after_code_slash]
    rfl
  | sign kind c rest hs =>
    obtain ⟨hslash, hmode⟩ := after_code_sign hs hhash hquote
    rw [copy_code_cons (not_opens_comment hslash rest), hmode]
    rfl
  | spaces rest =>
    have hrun : ∀ d ∈ rest.takeWhile (· == ' '),
        d ≠ '/' ∧ Mode.after aware (.code false) d = .code false := by
      intro d hd
      obtain rfl : d = ' ' := by simpa using List.mem_takeWhile_imp hd
      exact ⟨by decide, after_code_space aware false⟩
    have hcut := copy_run (by decide) (after_code_space aware fresh) hrun
      (rest.dropWhile (· == ' '))
    rwa [List.cons_append, List.takeWhile_append_dropWhile] at hcut
  | text c rest hplain =>
    have hrun : ∀ d ∈ rest.takeWhile Token.isPlain,
        d ≠ '/' ∧ Mode.after aware (.code false) d = .code false := by
      intro d hd
      exact after_code_isPlain aware false (List.mem_takeWhile_imp hd)
    obtain ⟨hslash, hfirst⟩ := after_code_isPlain aware fresh hplain
    have hcut := copy_run hslash hfirst hrun (rest.dropWhile Token.isPlain)
    rwa [List.cons_append, List.takeWhile_append_dropWhile] at hcut

end Copying

def kept (pieces : List Piece) : Text := (pieces.filter fun p => !p.isComment).flatMap Piece.text

@[simp] theorem kept_nil : kept [] = [] := rfl

def copied (p : Piece) : Text := if p.isComment then [] else p.text

theorem kept_cons (p : Piece) (rest : List Piece) : kept (p :: rest) = copied p ++ kept rest := by
  cases hp : p.isComment <;> simp [kept, copied, hp]

/-- A piece that one scan cuts off is copied or skipped by any scan that opens no literals but
those of the first. At a literal the two have to agree. -/
theorem copy_cut {aware other fresh after : Bool} {t rest : Text} {p : Piece}
    (h : Scan.Cuts aware fresh t p after rest) (hother : other = true → aware = true)
    (hliteral : p.kind = .literal → other = aware) :
    copy other (.copying (.code fresh)) t =
      copied p ++ copy other (.copying (.code after)) rest := by
  cases h with
  | lineComment h hkind => exact copy_lineComment_token h hkind
  | blockComment h hkind => exact copy_blockComment_token h hkind
  | lineEnd h hkind => exact copy_newline_token h hkind
  | directive h hkind => exact copy_directive_token h hkind
  | literal h hquote =>
    obtain rfl := hliteral rfl
    exact copy_literal_token h hquote
  | plain h hkind hhash hquote =>
    apply copy_plain_token h hkind hhash
    cases other with
    | false => rfl
    | true => rwa [hother rfl] at hquote

theorem kept_pieces (aware fresh : Bool) (source : Text) :
    kept (Scan.piecesFrom aware fresh source) = copy aware (.copying (.code fresh)) source := by
  induction fresh, source using Scan.piecesFrom_induction aware with
  | nil fresh => simp
  | cut fresh t p after rest hcut hpieces ih =>
    rw [hpieces, kept_cons, ih, copy_cut hcut id fun _ => rfl]

end CharacterScan

/-- Comment removal copies what the scan by single characters copies, in both ways of treating
literals. -/
theorem removeComments_eq_copy (aware : Bool) (source : Text) :
    removeComments aware source = CharacterScan.copy aware (.copying (.code true)) source :=
  CharacterScan.kept_pieces aware true source

end SqfMinifier
