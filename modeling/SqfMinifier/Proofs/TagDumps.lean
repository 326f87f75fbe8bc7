import SqfMinifier.Emit
import SqfMinifier.Proofs.TokenSpans

/-!
What the dump of tags tells about a text. Nothing in it is escaped, and texts and comments may hold
whole tags, yet it can be read back: the tag of a kind tells its token apart from those of other
kinds, and a token that looks like the beginning of a longer one of its kind cannot be followed by
what the longer one goes on with. Only which characters made up a line end is not told.
-/

namespace SqfMinifier

/-- What the tag of a token of this kind begins with; for a line end it is the whole tag. -/
def TokenKind.opening : TokenKind → Text
  | newline => "<newline>\n".toList
  | kind => '<' :: kind.tag.toList ++ [':']

theorem TokenKind.opening_prefix_free {j k : TokenKind} (h : j.opening <+: k.opening) :
    j = k := by
  cases j <;> cases k <;> revert h <;> decide

namespace Token

open Text

/-- Alike but for the characters of a line end. -/
def SameTag (t u : Token) : Prop := t.kind = u.kind ∧ (t.kind ≠ .newline → t.text = u.text)

theorem showTag_newline {t : Token} (h : t.kind = .newline) :
    t.showTag = TokenKind.newline.opening := by
  rw [showTag, h]
  rfl

theorem showTag_of_ne {t : Token} (h : t.kind ≠ .newline) :
    t.showTag = t.kind.opening ++ (t.text ++ ['>']) := by
  unfold showTag TokenKind.opening
  split
  · contradiction
  · simp only [List.append_assoc, List.cons_append, List.nil_append]

theorem opening_prefix_showTag (t : Token) : t.kind.opening <+: t.showTag := by
  by_cases h : t.kind = .newline
  · exact ⟨[], by rw [List.append_nil, showTag_newline h, h]⟩
  · rw [showTag_of_ne h]
    exact List.prefix_append _ _

theorem showTag_head (t : Token) : t.showTag.head? = some '<' := by
  obtain ⟨kind, text⟩ := t
  cases kind <;> rfl

/-- The tag of a token that is no plain text reaches a character that plain text does not have
before its `>`, or right behind it. -/
theorem showTag_mark {t : Token} (h : t.Shaped) (hkind : t.kind ≠ .text) :
    ∃ front mark rest, t.showTag = front ++ mark :: rest ∧ '>' ∉ front.dropLast ∧
      isPlain mark = false ∧ (t.kind = .newline → mark = '\n') := by
  by_cases hnewline : t.kind = .newline
  · rw [showTag_newline hnewline]
    exact ⟨"<newline>".toList, '\n', [], rfl, by decide, rfl, fun _ => rfl⟩
  · obtain ⟨c, tail, htext, -, -, hplain, -⟩ := shaped_head h
    refine ⟨t.kind.opening, c, tail ++ ['>'], ?_, ?_, ?_, fun hk => absurd hk hnewline⟩
    · rw [showTag_of_ne hnewline, htext]
      rfl
    · cases hk : t.kind with
      | newline => exact absurd hk hnewline
      | _ => decide
    · rw [← Bool.not_eq_true, hplain]
      exact hkind

/-- What may stand behind a token in a dump: nothing, or the tags of tokens that it meets. -/
def Behind (t : Token) (rest : Text) : Prop :=
  rest = [] ∨ ∃ next tags, next.Shaped ∧ Meets t next ∧ rest = next.showTag ++ tags

theorem Behind.head {t : Token} {rest : Text} (h : Behind t rest) :
    ∀ c ∈ rest.head?, c = '<' := by
  rcases h with rfl | ⟨next, tags, -, -, rfl⟩
  · simp
  · rw [List.head?_append, showTag_head]
    intro c hc
    exact (Option.some.inj hc).symm

/-- What carries a token on may hold a `>`, but then no tag begins behind it in the dump. -/
theorem no_tag_within {front v rest tags : Text} {mark : Char} (hfront : '>' ∉ front.dropLast)
    (hmark : mark ∉ v) (hclose : mark ≠ '>') (htags : mark ∉ tags.head?) :
    front ++ mark :: rest ≠ v ++ '>' :: tags := by
  intro h
  rcases List.append_eq_append_iff.mp h with ⟨as, rfl, hrest⟩ | ⟨bs, rfl, hrest⟩
  · cases as with
    | nil => exact hclose (List.cons.inj hrest).1
    | cons a as =>
      obtain rfl := (List.cons.inj hrest).1
      exact hmark (by simp)
  · cases bs with
    | nil => exact hclose (List.cons.inj hrest).1.symm
    | cons b bs =>
      obtain ⟨rfl, rfl⟩ := List.cons.inj hrest
      cases bs with
      | nil => exact htags (by simp)
      | cons d bs => exact hfront (by simp)

/-- What stands behind the tag of a line comment or of plain text does not carry the token on. -/
theorem no_tag_behind {t : Token} {v rest tags : Text}
    (hkind : t.kind = .lineComment ∧ LineFree v ∨ t.kind = .text ∧ ∀ c ∈ v, isPlain c = true)
    (hrest : Behind t rest) (htags : ∀ c ∈ tags.head?, c = '<') : rest ≠ v ++ '>' :: tags := by
  rcases hrest with rfl | ⟨next, others, hshaped, hmeets, rfl⟩
  · simp
  have hnext : next.kind ≠ .text ∧ (t.kind = .lineComment → next.kind = .newline) := by
    rcases hkind with ⟨hk, -⟩ | ⟨hk, -⟩ <;> simp only [Meets, hk] at hmeets <;> simp [hk, hmeets]
  obtain ⟨front, mark, tail, hshow, hfront, hplain, hfeed⟩ := showTag_mark hshaped hnext.1
  have hmark : mark ∉ v := by
    intro hm
    rcases hkind with ⟨hk, hfree⟩ | ⟨_, hall⟩
    · rw [hfeed (hnext.2 hk)] at hm
      exact hfree.not_mem rfl hm
    · rw [hall mark hm] at hplain
      cases hplain
  have hsigns : mark ≠ '>' ∧ mark ≠ '<' := by
    constructor <;> (rintro rfl; revert hplain; decide)
  rw [hshow, List.append_assoc, List.cons_append]
  apply no_tag_within hfront hmark hsigns.1
  intro hm
  exact hsigns.2 (htags mark hm)

/-- A block comment that another one carries on is open, so nothing stands behind it. -/
theorem not_closed_of_longer {t u : Token} {v : Text} (hkind : u.kind = .blockComment)
    (hopens : ['/', '*'] <+: t.text) (hu : u.Shaped) (htext : u.text = t.text ++ '>' :: v) :
    ¬ t.Closed := by
  obtain ⟨body, hbody⟩ := hopens
  intro hclosed
  have hdrop : u.text.drop 2 = t.text.drop 2 ++ '>' :: v := by
    rw [htext, ← hbody]
    rfl
  have hends : Adjoins '*' '/' (t.text.drop 2) := hclosed.1.isInfix
  obtain ⟨kind, text⟩ := u
  obtain rfl : kind = .blockComment := hkind
  rcases hu.2 with hend | hnone
  · apply hend.2
    rw [hdrop, List.dropLast_append_of_ne_nil (by simp)]
    exact hends.trans (List.prefix_append _ _).isInfix
  · apply hnone
    rw [hdrop]
    exact hends.trans (List.prefix_append _ _).isInfix

/-- A dump does not go on behind a token as a longer one of its kind would. -/
theorem no_longer_token {t u : Token} {v rest tags : Text} (hkind : t.kind = u.kind)
    (hnewline : t.kind ≠ .newline) (ht : t.Shaped) (hu : u.Shaped) (hrest : Behind t rest)
    (htags : Behind u tags) (htext : u.text = t.text ++ v) (h : '>' :: rest = v ++ '>' :: tags) :
    v = [] := by
  cases v with
  | nil => rfl
  | cons d v =>
    obtain ⟨rfl, hgoes⟩ := List.cons.inj h
    exfalso
    obtain ⟨kind, text⟩ := t
    obtain ⟨kind', text'⟩ := u
    obtain rfl : kind = kind' := hkind
    obtain rfl : text' = text ++ '>' :: v := htext
    cases kind with
    | newline => exact hnewline rfl
    | hash | doubleQuote | singleQuote | tab | slash =>
      obtain rfl : text = _ := ht
      cases hu
    | spaces => exact absurd (hu.2 '>' (by simp)) (by decide)
    | lineComment =>
      refine no_tag_behind (.inl ⟨rfl, ?_⟩) hrest htags.head hgoes
      intro c hc
      exact hu.2 c (by simp [hc])
    | text =>
      refine no_tag_behind (.inr ⟨rfl, ?_⟩) hrest htags.head hgoes
      intro c hc
      exact (isPlain_iff c).mpr (hu.2 c (by simp [hc]))
    | blockComment =>
      have hopen := not_closed_of_longer rfl ht.1 hu rfl
      rcases hrest with rfl | ⟨next, others, -, hmeets, -⟩
      · simp at hgoes
      · exact hopen hmeets

/-- The first tag of a dump tells its token, and the rest of the dump those behind it: of two tokens
in front of the same characters one would carry the other on. -/
theorem same_tag_of_dump {t u : Token} {rest tags : Text} (ht : t.Shaped) (hu : u.Shaped)
    (hrest : Behind t rest) (htags : Behind u tags) (h : t.showTag ++ rest = u.showTag ++ tags) :
    SameTag t u ∧ rest = tags := by
  have hkind : t.kind = u.kind := by
    have hfirst := (opening_prefix_showTag t).trans (List.prefix_append _ rest)
    have hsecond := (opening_prefix_showTag u).trans (List.prefix_append _ tags)
    rw [← h] at hsecond
    rcases List.prefix_or_prefix_of_prefix hfirst hsecond with hp | hp
    · exact TokenKind.opening_prefix_free hp
    · exact (TokenKind.opening_prefix_free hp).symm
  by_cases hnewline : t.kind = .newline
  · rw [showTag_newline hnewline, showTag_newline (hkind ▸ hnewline)] at h
    exact ⟨⟨hkind, fun hne => absurd hnewline hne⟩, List.append_cancel_left h⟩
  have hnewline' : u.kind ≠ .newline := hkind ▸ hnewline
  rw [showTag_of_ne hnewline, showTag_of_ne hnewline', hkind] at h
  simp only [List.append_assoc, List.append_cancel_left_eq, List.singleton_append] at h
  have htext : t.text = u.text := by
    rcases List.append_eq_append_iff.mp h with ⟨v, hlonger, hafter⟩ | ⟨v, hlonger, hafter⟩
    · have hv := no_longer_token hkind hnewline ht hu hrest htags hlonger hafter
      rw [hlonger, hv, List.append_nil]
    · have hv := no_longer_token hkind.symm hnewline' hu ht htags hrest hlonger hafter
      rw [hlonger, hv, List.append_nil]
  rw [htext] at h
  exact ⟨⟨hkind, fun _ => htext⟩, (List.cons.inj (List.append_cancel_left h)).2⟩

theorem WellFormed.behind {t : Token} {ts : List Token} (h : WellFormed (t :: ts)) :
    t.Shaped ∧ Behind t (ts.flatMap showTag) ∧ WellFormed ts := by
  obtain ⟨hshaped, hmeets⟩ := h
  rw [List.forall_mem_cons] at hshaped
  rw [List.isChain_cons] at hmeets
  refine ⟨hshaped.1, ?_, hshaped.2, hmeets.2⟩
  cases ts with
  | nil => exact .inl rfl
  | cons next ts =>
    right
    exact ⟨next, ts.flatMap showTag, hshaped.2 next (by simp), hmeets.1 next rfl, rfl⟩

theorem showTag_append_ne_nil (t : Token) (rest : Text) : t.showTag ++ rest ≠ [] := by
  intro hnil
  simpa [hnil, showTag_head] using congrArg List.head? (List.append_eq_nil_iff.mp hnil).1

theorem same_tags_of_dump {ts us : List Token} (ht : WellFormed ts) (hu : WellFormed us)
    (h : ts.flatMap showTag = us.flatMap showTag) : List.Forall₂ SameTag ts us := by
  induction ts generalizing us with
  | nil =>
    cases us with
    | nil => exact .nil
    | cons u us => exact absurd h.symm (showTag_append_ne_nil u _)
  | cons t ts ih =>
    cases us with
    | nil => exact absurd h (showTag_append_ne_nil t _)
    | cons u us =>
      obtain ⟨hshaped, hbehind, hrest⟩ := ht.behind
      obtain ⟨hshaped', hbehind', hrest'⟩ := hu.behind
      obtain ⟨hsame, hdump⟩ := same_tag_of_dump hshaped hshaped' hbehind hbehind' h
      exact .cons hsame (ih hrest hrest' hdump)

theorem SameTag.showTag {t u : Token} (h : SameTag t u) : t.showTag = u.showTag := by
  by_cases hnewline : t.kind = .newline
  · rw [showTag_newline hnewline, showTag_newline (h.1 ▸ hnewline)]
  · rw [showTag_of_ne hnewline, showTag_of_ne (h.1 ▸ hnewline), h.1, h.2 hnewline]

theorem dump_of_same_tags {ts us : List Token} (h : List.Forall₂ SameTag ts us) :
    ts.flatMap showTag = us.flatMap showTag := by
  induction h with
  | nil => rfl
  | cons hsame _ ih => rw [List.flatMap_cons, List.flatMap_cons, hsame.showTag, ih]

/-- Two texts have the same dump of tags just when their tokens are the same, one by one, but for
the characters of line ends. -/
theorem render_tags_eq_iff (aware aware' : Bool) (x y : Text) :
    render .tokensSimple aware x = render .tokensSimple aware' y ↔
      List.Forall₂ SameTag (sliced x) (sliced y) := by
  rw [sliced_eq_tokens, sliced_eq_tokens]
  constructor
  · intro h
    exact same_tags_of_dump (tokens_well_formed x) (tokens_well_formed y) h
  · intro h
    exact dump_of_same_tags h

end Token

end SqfMinifier
