import SqfMinifier.Proofs.DirectiveLayout
import SqfMinifier.Proofs.DirectiveSpacing
import SqfMinifier.Proofs.LayoutContent
import SqfMinifier.Proofs.LineEndings

/-!
Layout on either side of a character that holds fast. A blank or a line end beside such a character
is kept or dropped for what stands on its own side. So what comes out in front of it depends only on
what stands in front, and what comes out behind it on what stands behind and on one thing more:
whether its line begins with `#`, for then the line is a directive to layout.
-/

namespace SqfMinifier

def Text.lastLine (t : Text) : Text := t.rtakeWhile fun c => !isLineEnd c

theorem splitOnP_append {α : Type} (p : α → Bool) (a : List α) :
    ∃ front, ∀ b, (a ++ b).splitOnP p =
      front ++ (b.splitOnP p).modifyHead (a.rtakeWhile (fun x => !p x) ++ ·) := by
  induction a using List.reverseRecOn with
  | nil =>
    refine ⟨[], ?_⟩
    intro b
    cases hb : b.splitOnP p <;> simp [hb]
  | append_singleton a x ih =>
    obtain ⟨front, hfront⟩ := ih
    cases hx : p x with
    | true =>
      refine ⟨front ++ [a.rtakeWhile fun x => !p x], ?_⟩
      intro b
      rw [List.append_assoc, List.singleton_append, hfront, List.splitOnP_cons_eq_if_modifyHead,
        if_pos hx, List.rtakeWhile_concat_neg _ _ _ (by simp [hx])]
      cases b.splitOnP p <;> simp
    | false =>
      refine ⟨front, ?_⟩
      intro b
      rw [List.append_assoc, List.singleton_append, hfront, List.splitOnP_cons_eq_if_modifyHead,
        if_neg (by simp [hx]), List.rtakeWhile_concat_pos _ _ _ (by simp [hx])]
      cases b.splitOnP p <;> simp

namespace Layout

/-- A character that is no blank and no line end, and no part of a marker. -/
structure Anchor (c : Char) : Prop where
  notBlank : Text.isBlank c = false
  notLineEnd : Text.isLineEnd c = false
  notHash : c ≠ '#'
  notSlash : c ≠ '/'
  notStar : c ≠ '*'

variable {c : Char}

theorem Anchor.formsMarker (hc : Anchor c) (last : Option Char) (rest : Text) :
    formsMarker last (c :: rest) = false := by
  simp [Layout.formsMarker, hc.notSlash, hc.notStar]

section Joining

theorem joinLines_append (last : Option Char) (before : List Text) :
    ∃ front last', ∀ after, joinLines last (before ++ after) = front ++ joinLines last' after := by
  induction before generalizing last with
  | nil => exact ⟨[], last, fun _ => rfl⟩
  | cons line rest ih =>
    cases hd : startsDirective line with
    | true =>
      obtain ⟨front, last', h⟩ := ih (some '\n')
      refine ⟨'\n' :: line ++ '\n' :: front, last', ?_⟩
      intro after
      rw [List.cons_append, joinLines, if_pos hd, h]
      simp
    | false =>
      obtain ⟨front, last', h⟩ := ih (line.getLast?.or last)
      refine ⟨(if formsMarker last line then [' '] else []) ++ line ++ front, last', ?_⟩
      intro after
      rw [List.cons_append, joinLines, hd, if_neg Bool.false_ne_true, h]
      simp

/-- Layout looks at the lines of a text as any line end cuts them. -/
theorem isolateDirectives_eq (t : Text) :
    isolateDirectives t = joinLines none (t.splitOnP Text.isLineEnd) := by
  rw [isolateDirectives, ← joinLines_filled none (Text.lines t),
    ← joinLines_filled none (t.splitOnP Text.isLineEnd)]
  exact congrArg (joinLines none) (Text.filledLines_eq t)

/-- What puts the rest of a line on a directive line, or leaves it on a code line. -/
def mark (onDirective : Bool) : Text := if onDirective then ['#'] else []

theorem startsDirective_append_anchor (hc : Anchor c) (x rest : Text) :
    startsDirective (x ++ c :: rest) = startsDirective x := by
  cases x with
  | nil => simp [startsDirective, hc.notHash]
  | cons d x => rfl

/-- A line is set behind the text so far for what stands in front of the anchor. -/
theorem joinLines_anchor (hc : Anchor c) (last : Option Char) (x : Text) :
    ∃ front, ∀ rest lines, ∃ back,
      joinLines last ((x ++ c :: rest) :: lines) = front ++ c :: back ∧
        joinLines none ((mark (startsDirective x) ++ c :: rest) :: lines) =
          (if startsDirective x then ['\n', '#'] else []) ++ c :: back := by
  cases hd : startsDirective x with
  | true =>
    refine ⟨'\n' :: x, ?_⟩
    intro rest lines
    refine ⟨rest ++ '\n' :: joinLines (some '\n') lines, ?_, ?_⟩
    · rw [joinLines, if_pos (by rwa [startsDirective_append_anchor hc])]
      simp
    · simp [joinLines, mark, startsDirective]
  | false =>
    refine ⟨(if formsMarker last (x ++ [c]) then [' '] else []) ++ x, ?_⟩
    intro rest lines
    refine ⟨rest ++ joinLines (c :: rest).getLast? lines, ?_, ?_⟩
    · have hmarker : formsMarker last (x ++ c :: rest) = formsMarker last (x ++ [c]) := by
        cases x <;> rfl
      have hlast : (x ++ c :: rest).getLast?.or last = (c :: rest).getLast? := by
        simp [List.getLast?_cons]
      rw [joinLines, startsDirective_append_anchor hc, hd, if_neg Bool.false_ne_true, hmarker,
        hlast]
      simp
    · have hcode : startsDirective (c :: rest) = false := by simp [startsDirective, hc.notHash]
      simp [joinLines, mark, hcode, hc.formsMarker]

theorem isolateDirectives_append_anchor (hc : Anchor c) (a : Text) :
    ∃ front, ∀ t, ∃ back, isolateDirectives (a ++ c :: t) = front ++ c :: back ∧
      isolateDirectives (mark (startsDirective (Text.lastLine a)) ++ c :: t) =
        (if startsDirective (Text.lastLine a) then ['\n', '#'] else []) ++ c :: back := by
  obtain ⟨before, hbefore⟩ := splitOnP_append Text.isLineEnd a
  obtain ⟨front, last, hjoin⟩ := joinLines_append none before
  obtain ⟨lead, hlead⟩ := joinLines_anchor hc last (Text.lastLine a)
  refine ⟨front ++ lead, ?_⟩
  intro t
  obtain ⟨first, lines, hlines⟩ :=
    List.exists_cons_of_ne_nil (List.splitOnP_ne_nil Text.isLineEnd t)
  have hanchor : (c :: t).splitOnP Text.isLineEnd = (c :: first) :: lines := by
    rw [List.splitOnP_cons_eq_if_modifyHead, if_neg (by simp [hc.notLineEnd]), hlines]
    rfl
  have hmark : ∀ on, (mark on ++ c :: t).splitOnP Text.isLineEnd =
      (mark on ++ c :: first) :: lines := by
    intro on
    cases on with
    | false => exact hanchor
    | true =>
      rw [mark, if_pos rfl, List.singleton_append, List.splitOnP_cons_eq_if_modifyHead,
        if_neg (by decide), hanchor]
      rfl
  obtain ⟨back, hback, hcontext⟩ := hlead first lines
  refine ⟨back, ?_, ?_⟩
  · rw [isolateDirectives_eq, hbefore, hanchor, List.modifyHead_cons, hjoin, List.append_assoc]
    exact congrArg (front ++ ·) hback
  · rw [isolateDirectives_eq, hmark]
    exact hcontext

end Joining

section Collapsing

theorem collapseFrom_anchor (hc : Anchor c) (last : Option Char) (x : Text) :
    ∃ front, ∀ rest,
      collapseFrom last (x ++ c :: rest) = front ++ c :: collapseFrom (some c) rest := by
  fun_induction collapseFrom last x with
  | case1 last => exact ⟨[], fun rest => collapseFrom_cons hc.notBlank last rest⟩
  | case2 last d x hd after hafter =>
    have hblanks : ∀ e ∈ x, Text.isBlank e = true :=
      List.dropWhile_eq_nil_iff.mp (List.isEmpty_iff.mp hafter)
    have hdrop : (x ++ [c]).dropWhile Text.isBlank = [c] := by
      rw [List.dropWhile_append_of_pos hblanks]
      simp [hc.notBlank]
    have hgap := collapseFrom_gap_append hd last hdrop (by simp)
    cases hkeeps : keepsSpace last (d :: (x ++ [c]).takeWhile Text.isBlank) [c] with
    | true =>
      refine ⟨[' '], ?_⟩
      intro rest
      have hline := hgap rest
      rw [hkeeps, if_pos rfl, List.singleton_append, collapseFrom_cons hc.notBlank] at hline
      simpa using hline
    | false =>
      refine ⟨[], ?_⟩
      intro rest
      have hline := hgap rest
      rw [hkeeps, if_neg Bool.false_ne_true, List.singleton_append,
        collapseFrom_cons hc.notBlank] at hline
      simpa using hline
  | case3 last d x hd after hafter hkeeps ih =>
    obtain ⟨front, hfront⟩ := ih
    refine ⟨' ' :: front, ?_⟩
    intro rest
    rw [collapseFrom_gap_append hd last rfl (mt List.isEmpty_iff.mpr hafter), if_pos hkeeps, hfront]
    rfl
  | case4 last d x hd after hafter hkeeps ih =>
    obtain ⟨front, hfront⟩ := ih
    refine ⟨front, ?_⟩
    intro rest
    rw [collapseFrom_gap_append hd last rfl (mt List.isEmpty_iff.mpr hafter), if_neg hkeeps, hfront]
  | case5 last d x hd ih =>
    obtain ⟨front, hfront⟩ := ih
    refine ⟨d :: front, ?_⟩
    intro rest
    rw [List.cons_append, collapseFrom_cons (by simpa using hd), hfront]
    rfl

def collapseAll (t : Text) : Text :=
  Text.joinFeeds (squeeze ((Text.split '\n' t).map collapseLine))

theorem joinFeeds_squeeze_head {line : Text} (hne : line ≠ []) (lines : List Text) :
    ∃ more, ∀ x, Text.joinFeeds (squeeze ((x ++ line) :: lines)) = x ++ line ++ more := by
  cases lines with
  | nil => exact ⟨[], by simp [squeeze, Text.joinFeeds]⟩
  | cons next lines =>
    refine ⟨'\n' :: Text.joinFeeds (squeeze (next :: lines)), ?_⟩
    intro x
    rw [joinFeeds_squeeze_cons (by simp)]
    simp [hne]

theorem collapseAll_append_anchor (hc : Anchor c) (a : Text) :
    ∃ front, ∀ t, ∃ back, collapseAll (a ++ c :: t) = front ++ c :: back ∧
      collapseAll (c :: t) = c :: back := by
  obtain ⟨before, hbefore⟩ := splitOnP_append (· == '\n') a
  simp only [← List.splitOn_eq_splitOnP, ← Text.split_eq_splitOn] at hbefore
  have hfree : ∀ l ∈ before.map collapseLine, '\n' ∉ l := by
    intro l hl
    obtain ⟨line, hline, rfl⟩ := List.mem_map.mp hl
    have hmem : line ∈ Text.split '\n' (a ++ []) := by
      rw [hbefore]
      exact List.mem_append_left _ hline
    exact not_mem_collapseLine (by decide) (Text.sep_not_mem_of_mem_split hmem)
  obtain ⟨lead, hlead⟩ := collapseFrom_anchor hc none (a.rtakeWhile fun x => !(x == '\n'))
  refine ⟨(before.map collapseLine).flatMap endLine ++ lead, ?_⟩
  intro t
  obtain ⟨first, lines, hlines⟩ := List.exists_cons_of_ne_nil (Text.split_ne_nil '\n' t)
  have hanchor : Text.split '\n' (c :: t) = (c :: first) :: lines := by
    have hfeed : c ≠ '\n' := by
      rintro rfl
      cases hc.notLineEnd
    rw [Text.split, if_neg hfeed, hlines]
  have hline : collapseLine (c :: first) = c :: collapseFrom (some c) first :=
    collapseFrom_cons hc.notBlank none first
  obtain ⟨more, hmore⟩ := joinFeeds_squeeze_head
    (show c :: collapseFrom (some c) first ≠ [] by simp) (lines.map collapseLine)
  refine ⟨collapseFrom (some c) first ++ more, ?_, ?_⟩
  · rw [collapseAll, hbefore, hanchor, List.modifyHead_cons, List.map_append, List.map_cons,
      collapseLine, hlead, joinFeeds_squeeze_append (by simp) hfree, hmore]
    simp
  · rw [collapseAll, hanchor, List.map_cons, hline]
    exact hmore []

end Collapsing

def feed (ended : Bool) : Text := if ended then ['\n'] else []

theorem collapseAll_anchor_feed (hc : Anchor c) (ended : Bool) :
    collapseAll (c :: feed ended) = c :: feed ended := by
  have hfeed : c ≠ '\n' := by
    rintro rfl
    cases hc.notLineEnd
  cases ended <;>
    simp [collapseAll, feed, Text.split, hfeed, collapseLine, collapseFrom_cons hc.notBlank,
      collapseFrom, squeeze, Text.joinFeeds]

theorem collapseAll_mark (hc : Anchor c) (on : Bool) {t back : Text}
    (h : collapseAll (c :: t) = c :: back) :
    collapseAll ((if on then ['\n', '#'] else []) ++ c :: t) = mark on ++ c :: back := by
  cases on with
  | false => exact h
  | true =>
    obtain ⟨front, hfront⟩ := collapseAll_append_anchor hc ['\n', '#']
    obtain ⟨back', hback, hsame⟩ := hfront t
    obtain rfl : back' = back := by simpa [hsame] using h
    obtain ⟨rest, hrest, hone⟩ := hfront []
    have hfeed : c ≠ '\n' := by
      rintro rfl
      cases hc.notLineEnd
    have hlast : collapseAll [c] = [c] := collapseAll_anchor_feed hc false
    have hboth : collapseAll ['\n', '#', c] = ['#', c] := by
      have hhash : Text.isBlank '#' = false := by decide
      simp [collapseAll, Text.split, hfeed, collapseLine, collapseFrom_cons hc.notBlank,
        collapseFrom_cons hhash, collapseFrom, squeeze, Text.joinFeeds]
    obtain rfl : rest = [] := by simpa [hone] using hlast
    obtain rfl : front = ['#'] := List.append_cancel_right (hrest.symm.trans hboth)
    exact hback

/-- What layout makes of a text in front of an anchor depends on no more than that text, and what
it makes of a text behind one on no more than whether the line of the anchor is a directive. -/
theorem arrange_append_anchor (hc : Anchor c) (a : Text) :
    ∃ front, ∀ t, ∃ back, arrange (a ++ c :: t) = front ++ c :: back ∧
      arrange (mark (startsDirective (Text.lastLine a)) ++ c :: t) =
        mark (startsDirective (Text.lastLine a)) ++ c :: back := by
  obtain ⟨isolated, hisolated⟩ := isolateDirectives_append_anchor hc a
  obtain ⟨front, hfront⟩ := collapseAll_append_anchor hc isolated
  refine ⟨front, ?_⟩
  intro t
  obtain ⟨rest, hrest, hcontext⟩ := hisolated t
  obtain ⟨back, hback, hanchor⟩ := hfront rest
  refine ⟨back, ?_, ?_⟩
  · rw [arrange_eq, hrest]
    exact hback
  · rw [arrange_eq, hcontext]
    exact collapseAll_mark hc _ hanchor

section Enclosing

theorem ink_mark (on : Bool) : Text.ink (mark on) = mark on := by
  cases on <;> decide

theorem ink_feed (ended : Bool) : Text.ink (feed ended) = [] := by
  cases ended <;> decide

theorem Anchor.ink_cons (hc : Anchor c) (t : Text) : Text.ink (c :: t) = c :: Text.ink t := by
  rw [Text.ink_cons, if_pos (Text.isInk_iff.mpr ⟨hc.notBlank, hc.notLineEnd⟩)]
  rfl

theorem Anchor.mem_ink (hc : Anchor c) {t : Text} : c ∈ Text.ink t ↔ c ∈ t := by
  simp [Text.ink, Text.isInk, hc.notBlank, hc.notLineEnd]

theorem arrange_mark_anchor (hc : Anchor c) (on : Bool) (t : Text) :
    ∃ back, arrange (mark on ++ c :: t) = mark on ++ c :: back := by
  obtain ⟨front, hfront⟩ := arrange_append_anchor hc (mark on)
  obtain ⟨back, -, hcontext⟩ := hfront t
  have hline : startsDirective (Text.lastLine (mark on)) = on := by cases on <;> decide
  rw [hline] at hcontext
  exact ⟨back, hcontext⟩

theorem arrange_mark_alone (hc : Anchor c) (on : Bool) :
    arrange (mark on ++ [c]) = mark on ++ c :: feed on := by
  have hisolate : isolateDirectives (mark on ++ [c]) =
      (if on then ['\n', '#'] else []) ++ c :: feed on := by
    have hfree : ∀ d ∈ mark on ++ [c], Text.isLineEnd d = false := by
      intro d hd
      rcases List.mem_append.mp hd with hd | hd
      · cases on <;> simp_all [mark, Text.isLineEnd]
      · rw [List.mem_singleton.mp hd]
        exact hc.notLineEnd
    rw [isolateDirectives_eq, List.splitOnP_eq_singleton hfree]
    cases on <;> simp [mark, feed, joinLines, startsDirective, hc.notHash, formsMarker]
  rw [arrange_eq, hisolate]
  exact collapseAll_mark hc on (collapseAll_anchor_feed hc on)

/-- What stands between two anchors has an image of its own, whatever comes behind. None of it shows
up in front of the first anchor, or the ink would not agree. -/
theorem arrange_enclosed (hc : Anchor c) (on : Bool) {body : Text} (hbody : c ∉ body) :
    ∃ image ended, c ∉ image ∧
      arrange (mark on ++ c :: (body ++ [c])) = mark on ++ c :: (image ++ c :: feed ended) ∧
      ∀ t, ∃ back, arrange (mark on ++ c :: (body ++ c :: t)) =
        mark on ++ c :: (image ++ c :: back) := by
  obtain ⟨front, hfront⟩ := arrange_append_anchor hc (mark on ++ c :: body)
  simp only [List.append_assoc, List.cons_append] at hfront
  obtain ⟨last, hlast, hcontext⟩ := hfront []
  rw [arrange_mark_alone hc] at hcontext
  obtain rfl : feed _ = last := by simpa using hcontext
  have hink : Text.ink front = mark on ++ c :: Text.ink body := by
    have hsame := congrArg Text.ink hlast
    rw [ink_arrange] at hsame
    have hends : Text.ink front ++ [c] = (mark on ++ c :: Text.ink body) ++ [c] := by
      simpa [Text.ink_append, ink_mark, ink_feed, hc.ink_cons] using hsame.symm
    exact List.append_cancel_right hends
  obtain ⟨image, rfl⟩ : mark on ++ [c] <+: front := by
    obtain ⟨back, hback⟩ := arrange_mark_anchor hc on (body ++ [c])
    have hlength : (mark on ++ [c]).length ≤ front.length := by
      have hle : (Text.ink front).length ≤ front.length := List.length_filter_le _ _
      rw [hink] at hle
      simp only [List.length_append, List.length_cons, List.length_nil] at hle ⊢
      omega
    refine List.prefix_of_prefix_length_le ⟨back, ?_⟩ ⟨_, hlast.symm⟩ hlength
    rw [hback]
    simp
  have himage : Text.ink image = Text.ink body := by
    simpa [Text.ink_append, ink_mark, hc.ink_cons] using hink
  refine ⟨image, startsDirective (Text.lastLine (mark on ++ c :: body)), ?_, ?_, ?_⟩
  · rwa [← hc.mem_ink, himage, hc.mem_ink]
  · rw [hlast]
    simp
  · intro t
    obtain ⟨back, hback, -⟩ := hfront t
    refine ⟨back, ?_⟩
    rw [hback]
    simp

end Enclosing

end Layout

end SqfMinifier
