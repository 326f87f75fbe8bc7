import SqfMinifier.Text.Basic
import Mathlib.Data.List.Basic
import Mathlib.Data.List.DropRight

/-!
Cutting a text at a separator and setting the pieces side by side again undo each other as long
as no piece holds the separator. The lines of a text hold no line end at all, and a text without
carriage returns has the same lines whichever of the two cuts is used.
-/

namespace SqfMinifier

namespace Text

def joinFeeds (lines : List Text) : Text := ['\n'].intercalate lines

def LineFree (t : Text) : Prop := ∀ c ∈ t, isLineEnd c = false

-- Characters are finitely many, and deciding such a condition over all of them never ends.
instance (priority := 2000) decidableForallMem (t : Text) (p : Char → Prop) [DecidablePred p] :
    Decidable (∀ c ∈ t, p c) :=
  List.decidableBAll p t

instance (t : Text) : Decidable (LineFree t) := inferInstanceAs (Decidable (∀ c ∈ t, _))

theorem split_eq_splitOn (sep : Char) (t : Text) : split sep t = t.splitOn sep := by
  induction t with
  | nil => rfl
  | cons c rest ih =>
    rw [split, List.splitOn_cons_eq_if_modifyHead, ← ih]
    by_cases hc : c = sep
    · simp [hc]
    · simp only [hc, if_false, beq_iff_eq]
      cases hs : split sep rest with
      | nil => exact absurd (ih.symm.trans hs) (List.splitOn_ne_nil sep rest)
      | cons piece pieces => rfl

theorem joinFeeds_cons {line : Text} {lines : List Text} (h : lines ≠ []) :
    joinFeeds (line :: lines) = line ++ '\n' :: joinFeeds lines := by
  rw [joinFeeds, List.intercalate_cons_of_ne_nil h, List.append_assoc]
  rfl

theorem split_ne_nil (sep : Char) (t : Text) : split sep t ≠ [] := by
  rw [split_eq_splitOn]
  exact List.splitOn_ne_nil sep t

theorem joinFeeds_split (t : Text) : joinFeeds (split '\n' t) = t := by
  rw [split_eq_splitOn]
  exact List.intercalate_splitOn '\n'

theorem split_joinFeeds {lines : List Text} (hfree : ∀ l ∈ lines, '\n' ∉ l) (hne : lines ≠ []) :
    split '\n' (joinFeeds lines) = lines := by
  rw [split_eq_splitOn]
  exact List.splitOn_intercalate '\n' hfree hne

theorem split_of_not_mem {sep : Char} {t : Text} (h : sep ∉ t) : split sep t = [t] := by
  rw [split_eq_splitOn]
  exact List.splitOn_eq_singleton h

theorem split_append_sep (sep : Char) (a b : Text) :
    split sep (a ++ sep :: b) = split sep a ++ split sep b := by
  simp only [split_eq_splitOn]
  exact List.splitOn_append_cons_self a b

/-- The first piece of a text grows by whatever without a separator is put in front of it. -/
theorem split_append_of_not_mem {sep : Char} {a : Text} (h : sep ∉ a) (b : Text) :
    split sep (a ++ b) = (split sep b).modifyHead (a ++ ·) := by
  induction a with
  | nil => cases hb : split sep b <;> simp [hb]
  | cons c a ih =>
    rw [List.mem_cons, not_or] at h
    rw [List.cons_append, split, if_neg (Ne.symm h.1), ih h.2]
    cases hb : split sep b with
    | nil => exact absurd hb (split_ne_nil sep b)
    | cons piece pieces => simp

theorem mem_of_mem_split {sep x : Char} {t piece : Text} (h : piece ∈ split sep t)
    (hx : x ∈ piece) : x ∈ t ∧ x ≠ sep := by
  induction t generalizing piece with
  | nil =>
    rw [split, List.mem_singleton] at h
    simp [h] at hx
  | cons c rest ih =>
    have later : ∀ {p : Text}, p ∈ split sep rest → x ∈ p → x ∈ c :: rest ∧ x ≠ sep := by
      intro p hp hxp
      obtain ⟨hmem, hne⟩ := ih hp hxp
      exact ⟨List.mem_cons_of_mem _ hmem, hne⟩
    rw [split] at h
    by_cases hc : c = sep
    · rw [if_pos hc] at h
      rcases List.mem_cons.mp h with rfl | h
      · simp at hx
      · exact later h hx
    · rw [if_neg hc] at h
      cases hs : split sep rest with
      | nil => exact absurd hs (split_ne_nil sep rest)
      | cons first others =>
        rw [hs] at h later
        rcases List.mem_cons.mp h with rfl | h
        · rcases List.mem_cons.mp hx with rfl | hx
          · exact ⟨List.mem_cons_self, hc⟩
          · exact later List.mem_cons_self hx
        · exact later (List.mem_cons_of_mem _ h) hx

theorem sep_not_mem_of_mem_split {sep : Char} {t piece : Text} (h : piece ∈ split sep t) :
    sep ∉ piece := by
  intro hm
  exact (mem_of_mem_split h hm).2 rfl

theorem dropTrailingReturn_concat (t : Text) : dropTrailingReturn (t ++ ['\r']) = t := by
  simp [dropTrailingReturn]

theorem dropTrailingReturn_sublist (t : Text) : (dropTrailingReturn t).Sublist t := by
  unfold dropTrailingReturn
  split
  · exact List.dropLast_sublist t
  · exact List.Sublist.refl t

theorem line_free_cons {c : Char} {t : Text} :
    LineFree (c :: t) ↔ isLineEnd c = false ∧ LineFree t := List.forall_mem_cons

theorem LineFree.not_mem {c : Char} {t : Text} (h : LineFree t) (hc : isLineEnd c = true) :
    c ∉ t := by
  intro hm
  simp [h c hm] at hc

theorem LineFree.dropWhile {t : Text} (h : LineFree t) (p : Char → Bool) :
    LineFree (t.dropWhile p) := by
  intro c hc
  exact h c ((List.dropWhile_sublist p).subset hc)

theorem line_free_of_mem_split {t piece : Text} (hreturn : '\r' ∉ t) (h : piece ∈ split '\n' t) :
    LineFree piece := by
  intro c hc
  obtain ⟨hmem, hfeed⟩ := mem_of_mem_split h hc
  have hne : c ≠ '\r' := by
    rintro rfl
    exact hreturn hmem
  simp [isLineEnd, hne, hfeed]

theorem line_free_of_mem_lines {t line : Text} (h : line ∈ lines t) : LineFree line := by
  obtain ⟨piece, hpiece, hline⟩ := List.mem_flatMap.mp h
  intro c hc
  obtain ⟨hmem, hr⟩ := mem_of_mem_split hline hc
  obtain ⟨_, hf⟩ := mem_of_mem_split hpiece ((dropTrailingReturn_sublist piece).subset hmem)
  simp [isLineEnd, hr, hf]

/-- Without carriage returns only line feeds end a line. -/
theorem lines_eq_split {t : Text} (h : '\r' ∉ t) : lines t = split '\n' t := by
  have each : ∀ piece ∈ split '\n' t, split '\r' (dropTrailingReturn piece) = [piece] := by
    intro piece hp
    have hr : '\r' ∉ piece := by
      intro hm
      exact h (mem_of_mem_split hp hm).1
    have hl : piece.getLast? ≠ some '\r' := by
      intro hl
      exact hr (List.mem_of_getLast? hl)
    rw [dropTrailingReturn, if_neg hl, split_of_not_mem hr]
  have single := List.flatMap_congr each
  rw [lines, single]
  exact List.flatMap_singleton' _

theorem head_dropWhile {p : Char → Bool} {t : Text} {c : Char}
    (h : (t.dropWhile p).head? = some c) : p c = false := by
  simpa [h] using List.head?_dropWhile_not p t

theorem getLast_rdropWhile {α : Type} {p : α → Bool} {l : List α} {x : α}
    (h : (l.rdropWhile p).getLast? = some x) : p x = false := by
  rw [List.rdropWhile, List.getLast?_reverse] at h
  simpa [h] using List.head?_dropWhile_not p l.reverse

/-- Somewhere in the text `a` stands right before `b`. -/
def Adjoins (a b : Char) (t : Text) : Prop := [a, b] <:+: t

instance (a b : Char) (t : Text) : Decidable (Adjoins a b t) :=
  inferInstanceAs (Decidable (_ <:+: _))

@[simp] theorem not_adjoins_nil (a b : Char) : ¬ Adjoins a b [] := by
  simp [Adjoins]

theorem adjoins_cons (a b c : Char) (t : Text) :
    Adjoins a b (c :: t) ↔ (c = a ∧ t.head? = some b) ∨ Adjoins a b t := by
  unfold Adjoins
  rw [List.infix_cons_iff, List.cons_prefix_cons]
  cases t with
  | nil => simp
  | cons d t => simp [List.cons_prefix_cons, eq_comm]

/-- Nothing stands side by side across a character that is neither of the two. -/
theorem adjoins_append_cons {a b sep : Char} (ha : sep ≠ a) (hb : sep ≠ b) (u v : Text) :
    Adjoins a b (u ++ sep :: v) ↔ Adjoins a b u ∨ Adjoins a b v := by
  induction u with
  | nil => simp [adjoins_cons, ha]
  | cons c u ih =>
    rw [List.cons_append, adjoins_cons, adjoins_cons, ih, or_assoc]
    cases u with
    | nil => simp [hb]
    | cons d u => simp

theorem adjoins_concat {a b c : Char} (hc : c ≠ b) (t : Text) :
    Adjoins a b (t ++ [c]) ↔ Adjoins a b t := by
  induction t with
  | nil => simp [adjoins_cons]
  | cons d t ih =>
    rw [List.cons_append, adjoins_cons, adjoins_cons, ih]
    cases t with
    | nil => simp [hc]
    | cons e t => simp

theorem adjoins_joinFeeds {a b : Char} (ha : '\n' ≠ a) (hb : '\n' ≠ b) (lines : List Text) :
    Adjoins a b (joinFeeds lines) ↔ ∃ l ∈ lines, Adjoins a b l := by
  induction lines with
  | nil => simp [joinFeeds]
  | cons line lines ih =>
    cases lines with
    | nil => simp [joinFeeds]
    | cons next lines =>
      unfold joinFeeds at ih ⊢
      rw [List.intercalate_cons_cons, List.append_assoc, List.singleton_append,
        adjoins_append_cons ha hb, ih]
      simp

theorem adjoins_self_append {a : Char} {u : Text} (hu : a ∉ u) (v : Text) :
    Adjoins a a (u ++ a :: v) ↔ v.head? = some a ∨ Adjoins a a v := by
  induction u with
  | nil => simp [adjoins_cons]
  | cons c u ih =>
    rw [List.mem_cons, not_or] at hu
    rw [List.cons_append, adjoins_cons, ih hu.2]
    simp [Ne.symm hu.1]

/-- A text begins with a line feed or has two in a row just when some line before the last is
empty. -/
theorem no_blank_lines {lines : List Text} (hfree : ∀ l ∈ lines, '\n' ∉ l) :
    ((joinFeeds lines).head? ≠ some '\n' ∧ ¬ Adjoins '\n' '\n' (joinFeeds lines)) ↔
      ∀ l ∈ lines.dropLast, l ≠ [] := by
  induction lines with
  | nil => simp [joinFeeds]
  | cons line lines ih =>
    obtain ⟨hline, hlines⟩ := List.forall_mem_cons.mp hfree
    cases lines with
    | nil =>
      have hhead : line.head? ≠ some '\n' := by
        intro h
        exact hline (List.mem_of_head? h)
      have hpair : ¬ Adjoins '\n' '\n' line := by
        intro h
        exact hline (h.subset (by simp))
      simp [joinFeeds, hhead, hpair]
    | cons next lines =>
      have htail := ih hlines
      have hhead : (line ++ '\n' :: joinFeeds (next :: lines)).head? ≠ some '\n' ↔ line ≠ [] := by
        cases line with
        | nil => simp
        | cons c line => simpa using fun e => hline (by simp [e])
      rw [List.dropLast_cons_cons, List.forall_mem_cons, ← htail]
      simp only [joinFeeds, List.intercalate_cons_cons, List.append_assoc,
        List.singleton_append] at hhead ⊢
      rw [hhead, adjoins_self_append hline, not_or]

end Text

end SqfMinifier
