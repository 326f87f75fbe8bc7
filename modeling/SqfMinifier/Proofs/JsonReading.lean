import SqfMinifier.Json
import SqfMinifier.Proofs.TokenLists

/-!
What the JSON reader makes of a text that is written part by part. Each part is read back from any
text that it stands in front of, as long as that goes on with a blank, a comma or a closing mark.
Lists may be laid out with any white space, so long as it is the same in front of each item.
-/

namespace SqfMinifier

namespace Json

open Text

/-- Nothing that carries a number on: a document goes on like this behind each of its values. -/
def Ends (rest : Text) : Prop :=
  ∀ c ∈ rest.head?, isSpace c = true ∨ c = ',' ∨ c = ']' ∨ c = '\x7d'

/-- The text is read as the item, and begins with no blank and no closing mark. -/
structure Spells {α : Type} (item? : Text → Option (α × Text)) (item : α) (text : Text) : Prop where
  begins : ∃ c ∈ text.head?, isSpace c = false ∧ c ≠ ']' ∧ c ≠ '\x7d'
  read : ∀ rest, Ends rest → item? (text ++ rest) = some (item, rest)

def Plain (s : Text) : Prop := ∀ c ∈ s, c ≠ '"' ∧ c ≠ '\\' ∧ ' ' ≤ c

instance (s : Text) : Decidable (Plain s) :=
  inferInstanceAs (Decidable (∀ c ∈ s, _))

section Blanks

theorem skipSpace_of_head {t : Text} (h : ∀ c ∈ t.head?, isSpace c = false) : skipSpace t = t := by
  cases t with
  | nil => rfl
  | cons c t => exact List.dropWhile_cons_of_neg (by simp [h c rfl])

theorem skipSpace_append {gap t : Text} (hgap : ∀ c ∈ gap, isSpace c = true)
    (h : ∀ c ∈ t.head?, isSpace c = false) : skipSpace (gap ++ t) = t := by
  rw [skipSpace, List.dropWhile_append_of_pos hgap]
  exact skipSpace_of_head h

theorem skipSpace_length_le (t : Text) : (skipSpace t).length ≤ t.length :=
  (List.dropWhile_sublist _).length_le

end Blanks

section Scalars

theorem until?_cons {α : Type} {close c : Char} {item? : Text → Option (α × Text)}
    {rest after : Text} {item : α} (hc : c ≠ close) (hitem : item? (c :: rest) = some (item, after))
    (hshort : after.length < (c :: rest).length) :
    until? close item? (c :: rest) =
      (until? close item? after).map fun (items, rest) => (item :: items, rest) := by
  rw [until?, if_neg hc, hitem]
  exact dif_pos hshort

theorem string?_plain {s : Text} (h : Plain s) (rest : Text) :
    string? (s ++ '"' :: rest) = some (s, rest) := by
  unfold string?
  induction s with
  | nil => simp [until?]
  | cons c s ih =>
    obtain ⟨⟨hquote, hescape, hshown⟩, hs⟩ := List.forall_mem_cons.mp h
    have hchar : character? (c :: (s ++ '"' :: rest)) = some (c, s ++ '"' :: rest) := by
      simp [character?, hshown]
    rw [List.cons_append, until?_cons hquote hchar (by simp), ih hs]
    rfl

theorem Ends.stops_number {rest : Text} (h : Ends rest) :
    ∀ c ∈ rest.head?, c.isDigit = false ∧ c ≠ '.' ∧ (c == 'e' || c == 'E') = false := by
  intro c hc
  have hcase : (((c = ' ' ∨ c = '\t') ∨ c = '\n') ∨ c = '\r') ∨ c = ',' ∨ c = ']' ∨
      c = '\x7d' := by
    simpa [isSpace] using h c hc
  rcases hcase with (((rfl | rfl) | rfl) | rfl) | rfl | rfl | rfl <;> decide

theorem toDigits_head_ne_zero {n : Nat} (h : n ≠ 0) : (Nat.toDigits 10 n).head? ≠ some '0' := by
  have hdigit : ∀ d < 10, d ≠ 0 → d.digitChar ≠ '0' := by decide
  induction n using Nat.strong_induction_on with
  | _ n ih =>
    by_cases hsmall : n < 10
    · rw [Nat.toDigits_of_lt_base hsmall]
      simpa using hdigit n hsmall h
    · have hnext : n / 10 ≠ 0 := by omega
      rw [Nat.toDigits_of_base_le (by decide) (by omega),
        List.head?_append_of_ne_nil _ Nat.toDigits_ne_nil]
      exact ih (n / 10) (by omega) hnext

theorem digits?_append {digits rest : Text} (hne : digits ≠ [])
    (hdigits : ∀ c ∈ digits, c.isDigit = true) (hrest : ∀ c ∈ rest.head?, c.isDigit = false) :
    digits? (digits ++ rest) = some (digits, rest) := by
  obtain ⟨hrun, hafter⟩ := Token.takeWhile_maximal hdigits hrest
  obtain ⟨d, tail, rfl⟩ := List.exists_cons_of_ne_nil hne
  rw [digits?, hrun, hafter]

theorem whole?_toDigits (n : Nat) {rest : Text} (h : ∀ c ∈ rest.head?, c.isDigit = false) :
    whole? (Nat.toDigits 10 n ++ rest) = some (Nat.toDigits 10 n, rest) := by
  by_cases hzero : n = 0
  · rw [hzero, Nat.toDigits_zero]
    rfl
  · have hread : digits? (Nat.toDigits 10 n ++ rest) = some (Nat.toDigits 10 n, rest) :=
      digits?_append Nat.toDigits_ne_nil
        (fun c hc => Nat.isDigit_of_mem_toDigits (by decide) (by decide) hc) h
    rw [← hread]
    apply whole?.eq_2
    rintro tail heq
    apply toDigits_head_ne_zero hzero
    have hhead := congrArg List.head? heq
    rwa [List.head?_append_of_ne_nil _ Nat.toDigits_ne_nil] at hhead

theorem unsigned?_toDigits (n : Nat) {rest : Text} (h : Ends rest) :
    unsigned? (Nat.toDigits 10 n ++ rest) = some (((n : Int), 0), rest) := by
  have hstops := h.stops_number
  have hwhole := whole?_toDigits n fun c hc => (hstops c hc).1
  have hfraction : fraction? rest = some ([], rest) := by
    apply fraction?.eq_2
    rintro tail rfl
    exact (hstops '.' rfl).2.1 rfl
  have hexponent : exponent? rest = some (0, rest) := by
    cases rest with
    | nil => rfl
    | cons c rest => simp [exponent?, (hstops c rfl).2.2]
  simp [unsigned?, hwhole, hfraction, hexponent, Nat.ofDigitChars_ten_toDigits]

theorem value?_scalar {t : Text} (hlist : t.head? ≠ some '[') (hobject : t.head? ≠ some '\x7b')
    (depth : Nat) : value? depth t = scalar? t := by
  cases depth with
  | zero => rfl
  | succ depth =>
    apply value?.eq_4
    · rintro rest rfl
      exact hlist rfl
    · rintro rest rfl
      exact hobject rfl

theorem spells_string (depth : Nat) {s : Text} (h : Plain s) :
    Spells (value? depth) (.string s) ('"' :: s ++ ['"']) where
  begins := ⟨'"', rfl, by decide⟩
  read rest _ := by
    have hscalar : scalar? ('"' :: (s ++ '"' :: rest)) = some (.string s, rest) := by
      simp [scalar?, string?_plain h]
    rw [value?_scalar (by simp) (by simp)]
    simpa using hscalar

theorem spells_number (depth n : Nat) :
    Spells (value? depth) (.number n 0) (Nat.toDigits 10 n) := by
  obtain ⟨d, tail, hdigits⟩ := List.exists_cons_of_ne_nil (Nat.toDigits_ne_nil (n := n) (b := 10))
  have hd : d.isDigit = true := by
    apply Nat.isDigit_of_mem_toDigits (b := 10) (n := n) (by decide) (by decide)
    simp [hdigits]
  have hne : ∀ c : Char, c.isDigit = false → d ≠ c := by
    rintro c hc rfl
    rw [hd] at hc
    cases hc
  refine ⟨⟨d, by rw [hdigits]; rfl, ?_⟩, ?_⟩
  · simp only [isSpace]
    simp [hne]
  · intro rest hrest
    have hread := unsigned?_toDigits n hrest
    rw [hdigits, List.cons_append] at hread ⊢
    rw [value?_scalar (by simp [hne]) (by simp [hne])]
    simp [scalar?, number?, hread, hne]

end Scalars

section Lists

variable {α : Type} {item? : Text → Option (α × Text)} {gap last : Text} {close : Char}

def behind (gap last : Text) (close : Char) (texts : List Text) (rest : Text) : Text :=
  texts.flatMap (fun text => ',' :: gap ++ text) ++ (last ++ close :: rest)

def enclosed (opening close : Char) (gap last : Text) (texts : List Text) : Text :=
  opening :: (gap ++ (',' :: gap).intercalate texts ++ last ++ [close])

theorem intercalate_cons_eq_flatMap (sep text : Text) (texts : List Text) :
    sep.intercalate (text :: texts) = text ++ texts.flatMap (sep ++ ·) := by
  induction texts generalizing text with
  | nil => simp
  | cons next texts ih =>
    rw [List.intercalate_cons_cons, ih, List.flatMap_cons, List.append_assoc, List.append_assoc]

theorem enclosed_append (opening close : Char) (gap last text : Text) (texts : List Text)
    (rest : Text) :
    enclosed opening close gap last (text :: texts) ++ rest =
      opening :: (gap ++ (text ++ behind gap last close texts rest)) := by
  simp only [enclosed, behind, intercalate_cons_eq_flatMap, List.cons_append, List.append_assoc,
    List.nil_append]

theorem ends_behind (hlast : ∀ c ∈ last, isSpace c = true) (hclose : close = ']' ∨ close = '\x7d')
    (texts : List Text) (rest : Text) : Ends (behind gap last close texts rest) := by
  intro c hc
  cases texts with
  | cons text texts =>
    obtain rfl : ',' = c := by simpa [behind] using hc
    exact .inr (.inl rfl)
  | nil =>
    cases last with
    | cons d last =>
      obtain rfl : d = c := by simpa [behind] using hc
      exact .inl (hlast d (by simp))
    | nil =>
      obtain rfl : close = c := by simpa [behind] using hc
      exact .inr (.inr hclose)

theorem Spells.skipSpace {item : α} {text : Text} (h : Spells item? item text)
    (hgap : ∀ c ∈ gap, isSpace c = true) (rest : Text) :
    skipSpace (gap ++ (text ++ rest)) = text ++ rest := by
  obtain ⟨c, hc, hspace, -⟩ := h.begins
  apply skipSpace_append hgap
  intro d hd
  rw [List.head?_append, hc] at hd
  obtain rfl : c = d := Option.some.inj hd
  exact hspace

theorem spaced?_append {item : α} {text : Text} (h : Spells item? item text)
    (hgap : ∀ c ∈ gap, isSpace c = true) {rest : Text} (hrest : Ends rest) :
    spaced? item? (gap ++ (text ++ rest)) = some (item, skipSpace rest) := by
  rw [spaced?, h.skipSpace hgap, h.read rest hrest]
  rfl

theorem until?_behind {items : List α} {texts : List Text}
    (h : List.Forall₂ (Spells item?) items texts) (hgap : ∀ c ∈ gap, isSpace c = true)
    (hlast : ∀ c ∈ last, isSpace c = true) (hclose : close = ']' ∨ close = '\x7d') (rest : Text) :
    until? close (afterComma? item?) (skipSpace (behind gap last close texts rest)) =
      some (items, rest) := by
  have hmark : isSpace close = false ∧ ',' ≠ close := by rcases hclose with rfl | rfl <;> decide
  induction h with
  | nil =>
    have hskip : skipSpace (last ++ close :: rest) = close :: rest := by
      apply skipSpace_append hlast
      rintro c ⟨⟩
      exact hmark.1
    rw [behind, List.flatMap_nil, List.nil_append, hskip, until?, if_pos rfl]
  | @cons item text items texts hitem _ ih =>
    have hnext : behind gap last close (text :: texts) rest =
        ',' :: (gap ++ (text ++ behind gap last close texts rest)) := by
      simp [behind]
    have hread : afterComma? item? (',' :: (gap ++ (text ++ behind gap last close texts rest))) =
        some (item, skipSpace (behind gap last close texts rest)) :=
      spaced?_append hitem hgap (ends_behind hlast hclose texts rest)
    have hshort := skipSpace_length_le (behind gap last close texts rest)
    rw [hnext, skipSpace_of_head (by rintro c ⟨⟩; rfl), until?_cons hmark.2 hread, ih]
    · rfl
    · simp only [List.length_cons, List.length_append]
      omega

theorem list?_enclosed {item : α} {items : List α} {text : Text} {texts : List Text}
    (hfirst : Spells item? item text) (h : List.Forall₂ (Spells item?) items texts)
    (hgap : ∀ c ∈ gap, isSpace c = true) (hlast : ∀ c ∈ last, isSpace c = true)
    (hclose : close = ']' ∨ close = '\x7d') (rest : Text) :
    list? close item? (gap ++ (text ++ behind gap last close texts rest)) =
      some (item :: items, rest) := by
  have hends : Ends (behind gap last close texts rest) := ends_behind hlast hclose texts rest
  have hread := spaced?_append hfirst hgap hends
  obtain ⟨c, hc, -, hbracket, hbrace⟩ := hfirst.begins
  have hopen : (text ++ behind gap last close texts rest).head? ≠ some close := by
    rw [List.head?_append, hc]
    rcases hclose with rfl | rfl <;> simpa
  rw [list?, hfirst.skipSpace hgap, if_neg hopen, hread]
  simp [until?_behind h hgap hlast hclose]

/-- A list between brackets is read where its items are. -/
theorem spells_array {depth : Nat} {item : Json} {items : List Json} {text : Text}
    {texts : List Text} (hfirst : Spells (value? depth) item text)
    (h : List.Forall₂ (Spells (value? depth)) items texts)
    (hgap : ∀ c ∈ gap, isSpace c = true) (hlast : ∀ c ∈ last, isSpace c = true) :
    Spells (value? (depth + 1)) (.array (item :: items))
      (enclosed '[' ']' gap last (text :: texts)) where
  begins := ⟨'[', rfl, by decide⟩
  read rest _ := by
    rw [enclosed_append, value?, list?_enclosed hfirst h hgap hlast (.inl rfl)]
    rfl

theorem spells_object {depth : Nat} {item : Text × Json} {items : List (Text × Json)} {text : Text}
    {texts : List Text} (hfirst : Spells (member? (value? depth)) item text)
    (h : List.Forall₂ (Spells (member? (value? depth))) items texts)
    (hgap : ∀ c ∈ gap, isSpace c = true) (hlast : ∀ c ∈ last, isSpace c = true) :
    Spells (value? (depth + 1)) (.object (item :: items))
      (enclosed '\x7b' '\x7d' gap last (text :: texts)) where
  begins := ⟨'\x7b', rfl, by decide⟩
  read rest _ := by
    rw [enclosed_append, value?, list?_enclosed hfirst h hgap hlast (.inr rfl)]
    rfl

theorem spells_member {value? : Text → Option (Json × Text)} {key : Text} {value : Json}
    {text : Text} (hkey : Plain key) (h : Spells value? value text) :
    Spells (member? value?) (key, value) ('"' :: key ++ ['"', ':', ' '] ++ text) where
  begins := ⟨'"', rfl, by decide⟩
  read rest hrest := by
    have hcolon : skipSpace (':' :: ' ' :: (text ++ rest)) = ':' :: ' ' :: (text ++ rest) := rfl
    have hvalue : skipSpace ([' '] ++ (text ++ rest)) = text ++ rest :=
      h.skipSpace (by simp [isSpace]) rest
    have hmember : member? value? ('"' :: (key ++ '"' :: ':' :: ' ' :: (text ++ rest))) =
        some ((key, value), rest) := by
      rw [List.singleton_append] at hvalue
      simp [member?, string?_plain hkey, hcolon, hvalue, h.read rest hrest]
    simpa using hmember

end Lists

theorem document?_of_spells {value : Json} {text : Text}
    (h : Spells (value? nestingLimit) value text) : document? text = some value := by
  have hskip : skipSpace ([] ++ (text ++ [])) = text ++ [] := h.skipSpace (by simp) []
  have hread := h.read [] (by simp [Ends])
  have hnothing : skipSpace [] = [] := rfl
  rw [List.append_nil] at hread
  rw [List.nil_append, List.append_nil] at hskip
  simp [document?, hskip, hread, hnothing]

example : document? " [-2.5e1, \x7b\"a\\n\": \"\\u00e9\"\x7d, []]".toList =
    some (.array [.number (-25) 0, .object [(['a', '\n'], .string ['é'])], .array []]) := by
  cbv

example : document? "[01]".toList = none := by cbv

end Json

end SqfMinifier
