import SqfMinifier.Proofs.Lines
import SqfMinifier.Proofs.TokenReading
import Mathlib.Data.List.Chain

/-!
Which lists of tokens a lexer run can return. A token has the shape of its kind, and it does not
run on into the token behind it. Both conditions look at the tokens alone, one or two at a time,
and together they say exactly which lists are the tokens of a text.
-/

namespace SqfMinifier

namespace Text

def EndsAtClose (t : Text) : Prop := ['*', '/'] <:+ t ∧ ¬ Adjoins '*' '/' t.dropLast

instance (t : Text) : Decidable (EndsAtClose t) := inferInstanceAs (Decidable (_ ∧ _))

theorem ends_at_close_cons {c : Char} {t : Text} (h : ¬ (c = '*' ∧ t.head? = some '/')) :
    EndsAtClose (c :: t) ↔ EndsAtClose t := by
  unfold EndsAtClose
  cases t with
  | nil => simp [List.suffix_cons_iff]
  | cons d t =>
    have hwhole : ['*', '/'] ≠ c :: d :: t := by
      intro heq
      simp only [List.cons.injEq] at heq
      exact h ⟨heq.1.symm, by rw [heq.2.1, List.head?_cons]⟩
    have hfront : ¬ (c = '*' ∧ (d :: t).dropLast.head? = some '/') := by
      rintro ⟨hc, hd⟩
      cases t with
      | nil => simp at hd
      | cons e t => exact h ⟨hc, by simpa using hd⟩
    rw [List.suffix_cons_iff, List.dropLast_cons_of_ne_nil (by simp), adjoins_cons]
    simp only [hwhole, hfront, false_or]

theorem ends_at_close_star_slash {t : Text} : EndsAtClose ('*' :: '/' :: t) ↔ t = [] := by
  constructor
  · rintro ⟨-, hfront⟩
    by_contra hne
    apply hfront
    rw [List.dropLast_cons_of_ne_nil (by simp), List.dropLast_cons_of_ne_nil hne, adjoins_cons]
    simp
  · rintro rfl
    decide

end Text

namespace Token

open Text

def Closed (token : Token) : Prop := EndsAtClose (token.text.drop 2)

instance (token : Token) : Decidable token.Closed := inferInstanceAs (Decidable (EndsAtClose _))

def Shaped (token : Token) : Prop :=
  match token.kind with
  | .lineComment => ['/', '/'] <+: token.text ∧ LineFree token.text
  | .blockComment =>
    ['/', '*'] <+: token.text ∧ (token.Closed ∨ ¬ Adjoins '*' '/' (token.text.drop 2))
  | .newline => token.text = ['\r', '\n'] ∨ token.text = ['\r'] ∨ token.text = ['\n']
  | .hash => token.text = ['#']
  | .doubleQuote => token.text = ['"']
  | .singleQuote => token.text = ['\'']
  | .tab => token.text = ['\t']
  | .slash => token.text = ['/']
  | .spaces => token.text ≠ [] ∧ ∀ c ∈ token.text, c = ' '
  | .text => token.text ≠ [] ∧
      ∀ c ∈ token.text, c ∉ ['/', '\r', '\n', '\t', ' ', '"', '\'', '#']

/-- The second token may stand right behind the first: the first is as long as it can be. -/
def Meets (first second : Token) : Prop :=
  match first.kind with
  | .lineComment => second.kind = .newline
  | .blockComment => first.Closed
  | .newline =>
    first.text = ['\r'] → ¬ (second.kind = .newline ∧ second.text.head? = some '\n')
  | .spaces => second.kind ≠ .spaces
  | .text => second.kind ≠ .text
  | .slash =>
    second.kind ≠ .slash ∧ second.kind ≠ .lineComment ∧ second.kind ≠ .blockComment ∧
      ¬ (second.kind = .text ∧ second.text.head? = some '*')
  | .hash | .doubleQuote | .singleQuote | .tab => True

instance (token : Token) : Decidable token.Shaped := by
  unfold Shaped
  split <;> infer_instance

instance (first second : Token) : Decidable (Meets first second) := by
  unfold Meets
  split <;> infer_instance

structure WellFormed (ts : List Token) : Prop where
  shaped : ∀ token ∈ ts, token.Shaped
  meets : ts.IsChain Meets

instance (ts : List Token) : Decidable (WellFormed ts) :=
  decidable_of_iff ((∀ token ∈ ts, token.Shaped) ∧ ts.IsChain Meets)
    ⟨fun h => ⟨h.1, h.2⟩, fun h => ⟨h.shaped, h.meets⟩⟩

theorem throughClose_cons {c : Char} {t : Text} (h : ¬ (c = '*' ∧ t.head? = some '/')) :
    throughClose (c :: t) = (c :: (throughClose t).1, (throughClose t).2) := by
  apply throughClose.eq_3
  rintro rest rfl rfl
  exact h ⟨rfl, rfl⟩

theorem throughClose_of_ends_at_close {body : Text} (h : EndsAtClose body) (rest : Text) :
    throughClose (body ++ rest) = (body, rest) := by
  induction body with
  | nil => simp [EndsAtClose] at h
  | cons c body ih =>
    by_cases hclose : c = '*' ∧ body.head? = some '/'
    · obtain ⟨rfl, hhead⟩ := hclose
      obtain ⟨tail, rfl⟩ := List.head?_eq_some_iff.mp hhead
      obtain rfl := ends_at_close_star_slash.mp h
      rfl
    · rw [ends_at_close_cons hclose] at h
      have hne : body ≠ [] := by
        rintro rfl
        simp [EndsAtClose] at h
      have hopen : ¬ (c = '*' ∧ (body ++ rest).head? = some '/') := by
        rwa [List.head?_append_of_ne_nil _ hne]
      rw [List.cons_append, throughClose_cons hopen, ih h]

theorem throughClose_of_not_adjoins {t : Text} (h : ¬ Adjoins '*' '/' t) :
    throughClose t = (t, []) := by
  induction t with
  | nil => rfl
  | cons c t ih =>
    rw [adjoins_cons, not_or] at h
    rw [throughClose_cons h.1, ih h.2]

theorem throughClose_cases (t : Text) :
    EndsAtClose (throughClose t).1 ∨ ((throughClose t).2 = [] ∧ ¬ Adjoins '*' '/' t) := by
  induction t with
  | nil => right; simp [throughClose]
  | cons c t ih =>
    by_cases hclose : c = '*' ∧ t.head? = some '/'
    · obtain ⟨rfl, hhead⟩ := hclose
      obtain ⟨tail, rfl⟩ := List.head?_eq_some_iff.mp hhead
      exact .inl (ends_at_close_star_slash.mpr rfl)
    · rw [throughClose_cons hclose, adjoins_cons]
      rcases ih with hend | ⟨hrest, hnone⟩
      · left
        refine (ends_at_close_cons ?_).mpr hend
        rintro ⟨hc, hhead⟩
        apply hclose
        rw [← throughClose_append t, List.head?_append, hhead]
        exact ⟨hc, rfl⟩
      · exact .inr ⟨hrest, by simp only [hclose, hnone, or_self, not_false_eq_true]⟩

def Stops (token : Token) (rest : Text) : Prop :=
  match token.kind with
  | .lineComment => ∀ c, rest.head? = some c → isLineEnd c = true
  | .blockComment => rest = [] ∨ token.Closed
  | .newline => token.text = ['\r'] → rest.head? ≠ some '\n'
  | .spaces => rest.head? ≠ some ' '
  | .text => ∀ c, rest.head? = some c → isPlain c = false
  | .slash => rest.head? ≠ some '/' ∧ rest.head? ≠ some '*'
  | .hash | .doubleQuote | .singleQuote | .tab => True

theorem isPlain_iff (c : Char) :
    isPlain c = true ↔ c ∉ ['/', '\r', '\n', '\t', ' ', '"', '\'', '#'] := by
  simp [isPlain, and_assoc]

theorem shaped_of_reads {t rest : Text} {token : Token} (h : Reads t token rest) :
    token.Shaped ∧ token.Stops rest := by
  cases h with
  | lineComment body =>
    refine ⟨⟨by simp, ?_⟩, ?_⟩
    · intro c hc
      simp only [List.mem_cons] at hc
      rcases hc with rfl | rfl | hc
      · rfl
      · rfl
      · simpa using List.mem_takeWhile_imp hc
    · intro c hc
      simpa using head_dropWhile hc
  | blockComment body =>
    rcases throughClose_cases body with hend | ⟨hrest, hnone⟩
    · exact ⟨⟨by simp, .inl hend⟩, .inr hend⟩
    · refine ⟨⟨by simp, .inr ?_⟩, .inl hrest⟩
      have happ := throughClose_append body
      rw [hrest, List.append_nil] at happ
      simpa [happ] using hnone
  | slash rest h => exact ⟨rfl, h⟩
  | returnFeed rest => exact ⟨.inl rfl, fun heq => by simp at heq⟩
  | loneReturn rest h => exact ⟨.inr (.inl rfl), fun _ => h⟩
  | lineFeed rest => exact ⟨.inr (.inr rfl), fun heq => by simp at heq⟩
  | sign kind c rest h => cases kind <;> cases h <;> exact ⟨rfl, trivial⟩
  | spaces rest =>
    refine ⟨⟨by simp, ?_⟩, ?_⟩
    · intro c hc
      rcases List.mem_cons.mp hc with rfl | hc
      · rfl
      · simpa using List.mem_takeWhile_imp hc
    · intro hc
      simpa using head_dropWhile hc
  | text c rest h =>
    refine ⟨⟨by simp, ?_⟩, fun d hd => head_dropWhile hd⟩
    intro d hd
    rw [← isPlain_iff]
    rcases List.mem_cons.mp hd with rfl | hd
    · exact h
    · exact List.mem_takeWhile_imp hd

theorem takeWhile_maximal {p : Char → Bool} {body rest : Text} (hbody : ∀ c ∈ body, p c = true)
    (hrest : ∀ c, rest.head? = some c → p c = false) :
    (body ++ rest).takeWhile p = body ∧ (body ++ rest).dropWhile p = rest := by
  rw [List.takeWhile_append_of_pos hbody, List.dropWhile_append_of_pos hbody]
  cases rest with
  | nil => simp
  | cons c rest => simp [hrest c rfl]

theorem reads_of_shaped {token : Token} {rest : Text} (h : token.Shaped)
    (hrest : token.Stops rest) : Reads (token.text ++ rest) token rest := by
  obtain ⟨kind, text⟩ := token
  cases kind with
  | lineComment =>
    obtain ⟨⟨body, rfl⟩, hfree⟩ := h
    have hcut : restOfLine (body ++ rest) = body ∧ afterLine (body ++ rest) = rest := by
      apply takeWhile_maximal
      · intro c hc
        simp [hfree c (by simp [hc])]
      · intro c hc
        simp [hrest c hc]
    simpa [hcut.1, hcut.2] using Reads.lineComment (body ++ rest)
  | blockComment =>
    obtain ⟨⟨body, rfl⟩, hend⟩ := h
    have hcut : throughClose (body ++ rest) = (body, rest) := by
      by_cases hclosed : EndsAtClose body
      · exact throughClose_of_ends_at_close hclosed rest
      · obtain rfl := hrest.resolve_right hclosed
        rw [List.append_nil]
        exact throughClose_of_not_adjoins (hend.resolve_left hclosed)
    simpa [hcut] using Reads.blockComment (body ++ rest)
  | newline =>
    rcases h with rfl | rfl | rfl
    · exact .returnFeed rest
    · exact .loneReturn rest (hrest rfl)
    · exact .lineFeed rest
  | slash => obtain rfl := h; exact .slash rest hrest
  | hash => obtain rfl := h; exact .sign .hash _ rest rfl
  | doubleQuote => obtain rfl := h; exact .sign .doubleQuote _ rest rfl
  | singleQuote => obtain rfl := h; exact .sign .singleQuote _ rest rfl
  | tab => obtain rfl := h; exact .sign .tab _ rest rfl
  | spaces =>
    obtain ⟨hne, hspaces⟩ := h
    obtain ⟨c, body, rfl⟩ := List.exists_cons_of_ne_nil hne
    obtain ⟨rfl, hbody⟩ := List.forall_mem_cons.mp hspaces
    have hcut : (body ++ rest).takeWhile (· == ' ') = body ∧
        (body ++ rest).dropWhile (· == ' ') = rest := by
      apply takeWhile_maximal
      · intro d hd
        simp [hbody d hd]
      · intro d hd
        rw [beq_eq_false_iff_ne]
        rintro rfl
        exact hrest hd
    simpa only [List.cons_append, hcut.1, hcut.2] using Reads.spaces (body ++ rest)
  | text =>
    obtain ⟨hne, hplain⟩ := h
    obtain ⟨c, body, rfl⟩ := List.exists_cons_of_ne_nil hne
    obtain ⟨hc, hbody⟩ := List.forall_mem_cons.mp hplain
    obtain ⟨hrun, hafter⟩ := takeWhile_maximal (fun d hd => (isPlain_iff d).mpr (hbody d hd)) hrest
    have hread := Reads.text c (body ++ rest) ((isPlain_iff c).mpr hc)
    rwa [hrun, hafter] at hread

/-- One token is read off the front just when it has the shape of its kind and the text behind
it does not carry it on. -/
theorem lex_eq_some_iff {t rest : Text} {token : Token} :
    lex t = some (token, rest) ↔ t = token.text ++ rest ∧ token.Shaped ∧ token.Stops rest := by
  constructor
  · intro h
    exact ⟨(lex_append h).symm, shaped_of_reads (reads_of_lex h)⟩
  · rintro ⟨rfl, hshaped, hstops⟩
    exact lex_of_reads (reads_of_shaped hshaped hstops)

/-- The first character of a token tells apart the kinds that `Meets` asks for. -/
theorem shaped_head {token : Token} (h : token.Shaped) :
    ∃ c tail, token.text = c :: tail ∧
      (isLineEnd c = true ↔ token.kind = .newline) ∧
      (c = ' ' ↔ token.kind = .spaces) ∧
      (isPlain c = true ↔ token.kind = .text) ∧
      (c = '/' ↔ token.kind = .slash ∨ token.kind = .lineComment ∨ token.kind = .blockComment) := by
  obtain ⟨kind, text⟩ := token
  cases kind with
  | lineComment =>
    obtain ⟨⟨body, rfl⟩, -⟩ := h
    exact ⟨'/', '/' :: body, rfl, by simp [isLineEnd, isPlain]⟩
  | blockComment =>
    obtain ⟨⟨body, rfl⟩, -⟩ := h
    exact ⟨'/', '*' :: body, rfl, by simp [isLineEnd, isPlain]⟩
  | newline => rcases h with rfl | rfl | rfl <;> exact ⟨_, _, rfl, by decide⟩
  | hash => obtain rfl := h; exact ⟨_, _, rfl, by decide⟩
  | doubleQuote => obtain rfl := h; exact ⟨_, _, rfl, by decide⟩
  | singleQuote => obtain rfl := h; exact ⟨_, _, rfl, by decide⟩
  | tab => obtain rfl := h; exact ⟨_, _, rfl, by decide⟩
  | slash => obtain rfl := h; exact ⟨_, _, rfl, by decide⟩
  | spaces =>
    obtain ⟨hne, hspaces⟩ := h
    obtain ⟨c, body, rfl⟩ := List.exists_cons_of_ne_nil hne
    obtain rfl := hspaces c (by simp)
    exact ⟨' ', body, rfl, by simp [isLineEnd, isPlain]⟩
  | text =>
    obtain ⟨hne, hplain⟩ := h
    obtain ⟨c, body, rfl⟩ := List.exists_cons_of_ne_nil hne
    have hc := hplain c (by simp)
    refine ⟨c, body, rfl, ?_⟩
    rw [isPlain_iff]
    simp_all [isLineEnd]

theorem meets_iff_stops {first second : Token} (h : second.Shaped) (rest : Text) :
    Meets first second ↔ first.Stops (second.text ++ rest) := by
  obtain ⟨c, tail, htext, hend, hspace, hplain, hslash⟩ := shaped_head h
  obtain ⟨kind, text⟩ := first
  cases kind with
  | lineComment => simp [Meets, Stops, htext, hend]
  | blockComment => simp [Meets, Stops, htext]
  | newline =>
    simp only [Meets, Stops, htext, List.cons_append, List.head?_cons, Option.some.injEq, ne_eq]
    constructor
    · rintro hmeets hreturn rfl
      exact hmeets hreturn ⟨hend.mp rfl, rfl⟩
    · intro hstops hreturn hfeed
      exact hstops hreturn hfeed.2
  | spaces => simp [Meets, Stops, htext, hspace]
  | text => simp [Meets, Stops, htext, ← hplain]
  | slash =>
    simp only [Meets, Stops, htext, List.cons_append, List.head?_cons, Option.some.injEq, ne_eq]
    rw [hslash, not_or, not_or, and_assoc, and_assoc]
    have hstar : ¬ (second.kind = .text ∧ c = '*') ↔ ¬ c = '*' := by
      constructor
      · rintro hmeets rfl
        exact hmeets ⟨hplain.mp rfl, rfl⟩
      · intro hne htail
        exact hne htail.2
    rw [hstar]
  | hash | doubleQuote | singleQuote | tab => simp [Meets, Stops]

theorem stops_nil {token : Token} : token.Stops [] := by
  obtain ⟨kind, text⟩ := token
  cases kind <;> simp [Stops]

@[simp] theorem tokens_nil : tokens [] = [] := by
  rw [tokens]
  rfl

theorem tokens_of_lex {t rest : Text} {token : Token} (h : lex t = some (token, rest)) :
    tokens t = token :: tokens rest := by
  rw [tokens]
  split
  · simp_all
  · simp_all

theorem flatMap_tokens (t : Text) : (tokens t).flatMap text = t := by
  fun_induction tokens t with
  | case1 t h =>
    cases t with
    | nil => rfl
    | cons c rest => exact absurd h (lex_cons_ne_none c rest)
  | case2 t token rest h ih => rw [List.flatMap_cons, ih, lex_append h]

theorem tokens_well_formed (t : Text) : WellFormed (tokens t) := by
  fun_induction tokens t with
  | case1 => exact ⟨by simp, .nil⟩
  | case2 t token rest h ih =>
    obtain ⟨-, hshaped, hstops⟩ := lex_eq_some_iff.mp h
    refine ⟨List.forall_mem_cons.mpr ⟨hshaped, ih.shaped⟩, ?_⟩
    rw [List.isChain_cons]
    refine ⟨fun second hsecond => ?_, ih.meets⟩
    obtain ⟨others, htokens⟩ := List.head?_eq_some_iff.mp hsecond
    have hrest := flatMap_tokens rest
    rw [htokens, List.flatMap_cons] at hrest
    have hin : second ∈ tokens rest := by simp [htokens]
    rw [meets_iff_stops (ih.shaped second hin) (others.flatMap text), hrest]
    exact hstops

theorem tokens_flatMap {ts : List Token} (h : WellFormed ts) : tokens (ts.flatMap text) = ts := by
  induction ts with
  | nil => simp
  | cons token ts ih =>
    obtain ⟨hshaped, hmeets⟩ := h
    rw [List.forall_mem_cons] at hshaped
    rw [List.isChain_cons] at hmeets
    have hstops : token.Stops (ts.flatMap text) := by
      cases ts with
      | nil => exact stops_nil
      | cons second ts =>
        rw [List.flatMap_cons, ← meets_iff_stops (hshaped.2 second (by simp))]
        exact hmeets.1 second rfl
    have hlex := lex_eq_some_iff.mpr ⟨rfl, hshaped.1, hstops⟩
    rw [List.flatMap_cons, tokens_of_lex hlex, ih ⟨hshaped.2, hmeets.2⟩]

end Token

end SqfMinifier
