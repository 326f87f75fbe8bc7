import SqfMinifier.Scan
import SqfMinifier.Proofs.TokenReading

/-!
The pieces of a scan, one after the other. Whatever holds of no pieces at all, and goes on holding
when one more is cut off the front of a text, holds of all pieces of every text.
-/

namespace SqfMinifier

namespace Token

theorem Reads.append {t rest : Text} {token : Token} (h : Reads t token rest) :
    token.text ++ rest = t :=
  lex_append (lex_of_reads h)

theorem Reads.text_ne_nil {t rest : Text} {token : Token} (h : Reads t token rest) :
    token.text ≠ [] :=
  lex_text_ne_nil (lex_of_reads h)

end Token

namespace Scan

theorem throughQuote_append (q : Char) (t : Text) :
    (throughQuote q t).1 ++ (throughQuote q t).2 = t := by
  fun_induction throughQuote q t with
  | case1 => rfl
  | case2 => rfl
  | case3 c rest _ ih => simpa using ih

/-- One step of the scan: the piece it cuts off, whether code is fresh behind it, and the rest. -/
inductive Cuts (aware : Bool) : Bool → Text → Piece → Bool → Text → Prop where
  | lineComment {fresh : Bool} {t rest : Text} {token : Token} (h : Token.Reads t token rest)
      (hkind : token.kind = .lineComment) :
      Cuts aware fresh t ⟨.lineComment, token.text⟩ false rest
  | blockComment {fresh : Bool} {t rest : Text} {token : Token} (h : Token.Reads t token rest)
      (hkind : token.kind = .blockComment) :
      Cuts aware fresh t ⟨.blockComment, token.text⟩ fresh rest
  | lineEnd {fresh : Bool} {t rest : Text} {token : Token} (h : Token.Reads t token rest)
      (hkind : token.kind = .newline) :
      Cuts aware fresh t ⟨.lineEnd, token.text⟩ true rest
  | directive {t rest : Text} {token : Token} (h : Token.Reads t token rest)
      (hkind : token.kind = .hash) :
      Cuts aware true t ⟨.directive, token.text ++ Text.restOfLine rest⟩ false
        (Text.afterLine rest)
  | literal {fresh : Bool} {t rest : Text} {token : Token} {quote : Char}
      (h : Token.Reads t token rest)
      (hquote : (if aware then token.kind.quote? else none) = some quote) :
      Cuts aware fresh t ⟨.literal, token.text ++ (throughQuote quote rest).1⟩ false
        (throughQuote quote rest).2
  | plain {fresh : Bool} {t rest : Text} {token : Token} (h : Token.Reads t token rest)
      (hkind : token.kind ≠ .lineComment ∧ token.kind ≠ .blockComment ∧ token.kind ≠ .newline)
      (hhash : token.kind = .hash → fresh = false)
      (hquote : (if aware then token.kind.quote? else none) = none) :
      Cuts aware fresh t ⟨.plain, token.text⟩ false rest

theorem exists_cut (aware fresh : Bool) {source : Text} (hne : source ≠ []) :
    ∃ p after rest, Cuts aware fresh source p after rest ∧
      piecesFrom aware fresh source = p :: piecesFrom aware after rest := by
  fun_cases piecesFrom aware fresh source with
  | case1 hlex =>
    obtain ⟨c, rest, rfl⟩ := List.exists_cons_of_ne_nil hne
    exact absurd hlex (Token.lex_cons_ne_none c rest)
  | case2 token rest hlex hkind =>
    exact ⟨_, _, _, .lineComment (Token.reads_of_lex hlex) hkind, rfl⟩
  | case3 token rest hlex hkind =>
    exact ⟨_, _, _, .blockComment (Token.reads_of_lex hlex) hkind, rfl⟩
  | case4 token rest hlex hkind =>
    exact ⟨_, _, _, .lineEnd (Token.reads_of_lex hlex) hkind, rfl⟩
  | case5 token rest hlex hkind hfresh =>
    subst hfresh
    exact ⟨_, _, _, .directive (Token.reads_of_lex hlex) hkind, rfl⟩
  | case6 token rest hlex hkind hfresh =>
    refine ⟨_, _, _, .plain (Token.reads_of_lex hlex) (by simp [hkind]) ?_ ?_, rfl⟩
    · intro _
      simpa using hfresh
    · simp [hkind, TokenKind.quote?]
  | case7 token rest hlex quote _ _ _ _ hquote =>
    exact ⟨_, _, _, .literal (Token.reads_of_lex hlex) hquote, rfl⟩
  | case8 token rest hlex hline hblock hend hhash hquote =>
    refine ⟨_, _, _, .plain (Token.reads_of_lex hlex) ⟨hline, hblock, hend⟩ ?_ hquote, rfl⟩
    intro hk
    exact (hhash hk).elim

@[simp] theorem piecesFrom_nil (aware fresh : Bool) : piecesFrom aware fresh [] = [] := by
  rw [piecesFrom]
  rfl

theorem piecesFrom_eq_nil {aware fresh : Bool} {t : Text} (h : piecesFrom aware fresh t = []) :
    t = [] := by
  by_contra hne
  obtain ⟨p, after, rest, _, hpieces⟩ := exists_cut aware fresh hne
  rw [h] at hpieces
  cases hpieces

/-- Nothing is lost between a piece and the rest. -/
theorem Cuts.append {aware fresh after : Bool} {t rest : Text} {p : Piece}
    (h : Cuts aware fresh t p after rest) : p.text ++ rest = t := by
  cases h with
  | lineComment h _ => exact h.append
  | blockComment h _ => exact h.append
  | lineEnd h _ => exact h.append
  | plain h _ _ _ => exact h.append
  | directive h _ =>
    rw [List.append_assoc, Text.restOfLine, Text.afterLine, List.takeWhile_append_dropWhile,
      h.append]
  | literal h _ => rw [List.append_assoc, throughQuote_append, h.append]

theorem Cuts.text_ne_nil {aware fresh after : Bool} {t rest : Text} {p : Piece}
    (h : Cuts aware fresh t p after rest) : p.text ≠ [] := by
  cases h with
  | lineComment h _ => exact h.text_ne_nil
  | blockComment h _ => exact h.text_ne_nil
  | lineEnd h _ => exact h.text_ne_nil
  | plain h _ _ _ => exact h.text_ne_nil
  | directive h _ => exact List.append_ne_nil_of_left_ne_nil h.text_ne_nil _
  | literal h _ => exact List.append_ne_nil_of_left_ne_nil h.text_ne_nil _

theorem piecesFrom_induction (aware : Bool) {motive : Bool → Text → Prop}
    (nil : ∀ fresh, motive fresh [])
    (cut : ∀ fresh t p after rest, Cuts aware fresh t p after rest →
      piecesFrom aware fresh t = p :: piecesFrom aware after rest → motive after rest →
      motive fresh t)
    (fresh : Bool) (t : Text) : motive fresh t := by
  induction hn : t.length using Nat.strong_induction_on generalizing fresh t with
  | _ n ih =>
    by_cases hne : t = []
    · rw [hne]
      exact nil fresh
    obtain ⟨p, after, rest, hcut, hpieces⟩ := exists_cut aware fresh hne
    have hshort : rest.length < n := by
      have hpos := List.length_pos_iff.mpr hcut.text_ne_nil
      rw [← hn, ← hcut.append, List.length_append]
      omega
    exact cut fresh t p after rest hcut hpieces (ih rest.length hshort after rest rfl)

theorem flatMap_piecesFrom (aware fresh : Bool) (source : Text) :
    (piecesFrom aware fresh source).flatMap Piece.text = source := by
  induction fresh, source using piecesFrom_induction aware with
  | nil fresh => simp
  | cut fresh t p after rest hcut hpieces ih =>
    rw [hpieces, List.flatMap_cons, ih, hcut.append]

theorem text_ne_nil_of_mem_piecesFrom (aware fresh : Bool) (source : Text) :
    ∀ p ∈ piecesFrom aware fresh source, p.text ≠ [] := by
  induction fresh, source using piecesFrom_induction aware with
  | nil fresh => simp
  | cut fresh t p after rest hcut hpieces ih =>
    rw [hpieces]
    exact List.forall_mem_cons.mpr ⟨hcut.text_ne_nil, ih⟩

end Scan

end SqfMinifier
