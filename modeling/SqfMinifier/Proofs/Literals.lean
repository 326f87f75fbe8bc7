import SqfMinifier.Minify
import SqfMinifier.Proofs.ScanEnds

/-!
The literals that a scan meets. A scan that does not respect literals reads them piece by piece, as
code. If none of them spans lines or holds a comment marker it comes out of each as a scan does that
passes over it, so the two remove the same.
-/

namespace SqfMinifier

namespace Text

structure Inert (t : Text) : Prop where
  noLineComment : ¬ Adjoins '/' '/' t
  noBlockComment : ¬ Adjoins '/' '*' t
  oneLine : LineFree t

instance (t : Text) : Decidable (Inert t) :=
  decidable_of_iff (¬ Adjoins '/' '/' t ∧ ¬ Adjoins '/' '*' t ∧ LineFree t)
    ⟨fun h => ⟨h.1, h.2.1, h.2.2⟩, fun h => ⟨h.noLineComment, h.noBlockComment, h.oneLine⟩⟩

theorem Inert.tail {c : Char} {t : Text} (h : Inert (c :: t)) : Inert t := by
  obtain ⟨hline, hblock, hfree⟩ := h
  rw [adjoins_cons, not_or] at hline hblock
  exact ⟨hline.2, hblock.2, (line_free_cons.mp hfree).2⟩

end Text

namespace Scan

def quotations (pieces : List Piece) : List Text :=
  (pieces.filter fun p => p.kind == .literal).map Piece.text

/-- The literals of a source, each from its opening quote on. -/
def literals (source : Text) : List Text := quotations (pieces true source)

theorem quotations_cons (p : Piece) (rest : List Piece) :
    quotations (p :: rest) = quotations [p] ++ quotations rest := by
  rw [quotations, ← List.singleton_append, List.filter_append, List.map_append]
  rfl

theorem quotations_literal (text : Text) (rest : List Piece) :
    quotations (⟨.literal, text⟩ :: rest) = text :: quotations rest := rfl

theorem quotations_other {p : Piece} (h : p.kind ≠ .literal) (rest : List Piece) :
    quotations (p :: rest) = quotations rest := by
  simp [quotations, h]

end Scan

namespace CharacterScan

/-- Inert text is copied as code. A slash at its end must not meet what follows. -/
theorem copy_inert {fresh : Bool} {c : Char} {t rest : Text} (h : Text.Inert (c :: t))
    (hhash : c = '#' → fresh = false) (hseam : (c :: t).getLast? = some '/' → rest = []) :
    copy false (.copying (.code fresh)) (c :: t ++ rest) =
      c :: t ++ copy false (.copying (.code false)) rest := by
  induction t generalizing fresh c with
  | nil =>
    have hopen : ¬ OpensComment c rest := by
      rintro ⟨rfl, hnext⟩
      simp [hseam rfl] at hnext
    have hmode : Mode.after false (.code fresh) c = .code false :=
      after_code_plain (h.oneLine c (by simp)) hhash rfl
    rw [List.singleton_append, List.singleton_append, copy_code_cons hopen, hmode]
  | cons d t ih =>
    have hopen : ¬ OpensComment c (d :: t ++ rest) := by
      rintro ⟨rfl, hnext⟩
      have hline := h.noLineComment
      have hblock := h.noBlockComment
      rw [Text.adjoins_cons, not_or] at hline hblock
      rcases hnext with hnext | hnext
      · exact hline.1 ⟨rfl, hnext⟩
      · exact hblock.1 ⟨rfl, hnext⟩
    have hmode : Mode.after false (.code fresh) c = .code false :=
      after_code_plain (h.oneLine c (by simp)) hhash rfl
    rw [List.getLast?_cons_cons] at hseam
    rw [List.cons_append, copy_code_cons hopen, hmode, ih h.tail (fun _ => rfl) hseam]
    rfl

/-- An inert literal is copied whole by a scan that takes it for code. -/
theorem copy_inert_literal {fresh : Bool} {t rest : Text} {token : Token} {quote : Char}
    (h : Token.Reads t token rest)
    (hquote : (if true then token.kind.quote? else none) = some quote)
    (hinert : Text.Inert (token.text ++ (Scan.throughQuote quote rest).1)) :
    copy false (.copying (.code fresh)) t = token.text ++ (Scan.throughQuote quote rest).1 ++
      copy false (.copying (.code false)) (Scan.throughQuote quote rest).2 := by
  rw [if_pos rfl] at hquote
  cases h with
  | sign kind c rest hs =>
    rw [Quote.quote?_eq_of_sign hs, Option.map_eq_some_iff] at hquote
    obtain ⟨q, hq, rfl⟩ := hquote
    obtain rfl := Quote.ofChar?_eq_some hq
    have hhash : q.char = '#' → fresh = false := by cases q <;> simp [Quote.char]
    have hseam : (q.char :: (Scan.throughQuote q.char rest).1).getLast? = some '/' →
        (Scan.throughQuote q.char rest).2 = [] := by
      intro hlast
      rcases Scan.throughQuote_cases q.char rest with ⟨body, _, hcut⟩ | ⟨_, hcut⟩
      · rw [hcut, ← List.cons_append, List.getLast?_concat] at hlast
        cases q <;> simp [Quote.char] at hlast
      · rw [hcut]
    rw [List.singleton_append] at hinert ⊢
    have hcopy := copy_inert hinert hhash hseam
    rwa [List.cons_append, Scan.throughQuote_append] at hcopy
  | _ => cases hquote

/-- The pieces of a scan that respects literals, and what the other scan copies: they part ways
only at a literal. -/
theorem kept_eq_copy_unaware {fresh : Bool} {source : Text}
    (h : ∀ l ∈ Scan.quotations (Scan.piecesFrom true fresh source), Text.Inert l) :
    kept (Scan.piecesFrom true fresh source) = copy false (.copying (.code fresh)) source := by
  induction fresh, source using Scan.piecesFrom_induction true with
  | nil fresh => simp
  | cut fresh t p after rest hcut hpieces ih =>
    rw [hpieces] at h ⊢
    rw [kept_cons]
    by_cases hp : p.kind = .literal
    · cases hcut with
      | literal hreads hquote =>
        rw [Scan.quotations_literal, List.forall_mem_cons] at h
        rw [ih h.2, copy_inert_literal hreads hquote h.1]
        rfl
      | _ => cases hp
    · rw [Scan.quotations_other hp] at h
      rw [ih h, copy_cut hcut (by simp) fun e => absurd e hp]

end CharacterScan

/-- Respecting literals makes a difference only where one of them spans lines or holds a comment
marker. -/
theorem aware_eq_unaware (source : Text) (h : ∀ l ∈ Scan.literals source, Text.Inert l) :
    removeComments true source = removeComments false source ∧
      minify true source = minify false source := by
  have hunaware : removeComments false source = _ := CharacterScan.kept_pieces false true source
  have hscan : removeComments true source = removeComments false source :=
    (CharacterScan.kept_eq_copy_unaware h).trans hunaware.symm
  refine ⟨hscan, ?_⟩
  rw [minify, minify, stages, stages, hscan]

/-- Literals that hold the other quote, a `#` and a slash, comments and a directive with quotes of
their own, and at the end a literal that is never closed. -/
def quotedLines : Text := "x = \"it's #1/\" / '\"'; // \"\n#a 'b //c\n/* ' */\"#/".toList

theorem aware_eq_unaware_quoted_lines :
    Scan.literals quotedLines = ["\"it's #1/\"".toList, "'\"'".toList, "\"#/".toList] ∧
      (∀ l ∈ Scan.literals quotedLines, Text.Inert l) ∧
      removeComments true quotedLines = removeComments false quotedLines ∧
      minify true quotedLines = minify false quotedLines := by
  have hliterals : Scan.literals quotedLines =
      ["\"it's #1/\"".toList, "'\"'".toList, "\"#/".toList] := by decide +kernel
  have hinert : ∀ l ∈ Scan.literals quotedLines, Text.Inert l := by decide +kernel
  exact ⟨hliterals, hinert, aware_eq_unaware quotedLines hinert⟩

end SqfMinifier
