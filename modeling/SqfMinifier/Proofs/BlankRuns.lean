import SqfMinifier.Layout
import SqfMinifier.Proofs.Lines
import Mathlib.Data.List.TakeWhile

/-!
Collapsing the blanks of one line. The result is compact: it has no tab, no two spaces in a row
and no space at its end. A compact line is left as it is, and a line opens a directive after
collapsing just when it did before.
-/

namespace SqfMinifier

namespace Layout

structure Compact (line : Text) : Prop where
  noTab : '\t' ∉ line
  noGap : ¬ Text.Adjoins ' ' ' ' line
  noTrail : line.getLast? ≠ some ' '

theorem compact_nil : Compact [] := ⟨by simp, by simp, by simp⟩

theorem compact_cons {c : Char} {line : Text} :
    Compact (c :: line) ↔
      c ≠ '\t' ∧ (c = ' ' → ∃ d ∈ line.head?, d ≠ ' ') ∧ Compact line := by
  constructor
  · rintro ⟨htab, hgap, htrail⟩
    rw [Text.adjoins_cons, not_or] at hgap
    refine ⟨fun e => htab (by simp [e]), ?_, ⟨fun hm => htab (by simp [hm]), hgap.2, ?_⟩⟩
    · rintro rfl
      cases line with
      | nil => simp at htrail
      | cons d line => exact ⟨d, rfl, fun e => hgap.1 ⟨rfl, by simp [e]⟩⟩
    · intro hl
      cases line with
      | nil => simp at hl
      | cons d line => exact htrail (by simpa using hl)
  · rintro ⟨hc, hspace, ⟨htab, hgap, htrail⟩⟩
    refine ⟨by simp [Ne.symm hc, htab], ?_, ?_⟩
    · rw [Text.adjoins_cons]
      rintro (⟨rfl, hd⟩ | h)
      · obtain ⟨d, hmem, hne⟩ := hspace rfl
        exact hne (Option.some.inj (hmem.symm.trans hd))
      · exact hgap h
    · cases line with
      | nil =>
        intro he
        obtain ⟨d, hmem, _⟩ := hspace (by simpa using he)
        simp at hmem
      | cons d line => simpa using htrail

theorem collapseFrom_cons {c : Char} (hc : Text.isBlank c = false) (last : Option Char)
    (rest : Text) : collapseFrom last (c :: rest) = c :: collapseFrom (some c) rest := by
  rw [collapseFrom]
  simp [hc]

/-- What follows a run of blanks is empty or begins with no blank. -/
theorem after_run_cases (rest : Text) (h : ¬ (rest.dropWhile Text.isBlank).isEmpty = true) :
    ∃ d tail, rest.dropWhile Text.isBlank = d :: tail ∧ Text.isBlank d = false := by
  cases ha : rest.dropWhile Text.isBlank with
  | nil => simp [ha] at h
  | cons d tail =>
    have hd : (rest.dropWhile Text.isBlank).head? = some d := by rw [ha]; rfl
    exact ⟨d, tail, rfl, Text.head_dropWhile hd⟩

theorem collapseFrom_compact (last : Option Char) (line : Text) :
    Compact (collapseFrom last line) := by
  fun_induction collapseFrom last line with
  | case1 => exact compact_nil
  | case2 => exact compact_nil
  | case3 last c rest _ after hafter _ ih =>
    obtain ⟨d, tail, hd, hblank⟩ := after_run_cases rest hafter
    have hne : d ≠ ' ' := by
      rintro rfl
      simp [Text.isBlank] at hblank
    refine compact_cons.mpr ⟨by decide, fun _ => ⟨d, ?_, hne⟩, ih⟩
    rw [show after = d :: tail from hd, collapseFrom_cons hblank]
    rfl
  | case4 last c rest _ after hafter _ ih => exact ih
  | case5 last c rest hc ih =>
    have hne : c ≠ ' ' ∧ c ≠ '\t' := by simpa [Text.isBlank] using hc
    exact compact_cons.mpr ⟨hne.2, fun e => absurd e hne.1, ih⟩

theorem collapseFrom_of_compact {line : Text} (h : Compact line) (last : Option Char) :
    collapseFrom last line = line := by
  induction line generalizing last with
  | nil => rw [collapseFrom]
  | cons c rest ih =>
    obtain ⟨htab, hspace, hrest⟩ := compact_cons.mp h
    by_cases hc : c = ' '
    · subst hc
      obtain ⟨d, hd, hne⟩ := hspace rfl
      obtain ⟨tail, rfl⟩ := List.head?_eq_some_iff.mp hd
      have hblank : Text.isBlank d = false := by
        simp [Text.isBlank, hne, (compact_cons.mp hrest).1]
      have hrun : (d :: tail).takeWhile Text.isBlank = [] := by simp [hblank]
      have hafter : (d :: tail).dropWhile Text.isBlank = d :: tail := by simp [hblank]
      rw [collapseFrom]
      simp only [hrun, hafter, ih hrest]
      simp [Text.isBlank, keepsSpace]
    · have hblank : Text.isBlank c = false := by simp [Text.isBlank, hc, htab]
      rw [collapseFrom_cons hblank, ih hrest]

theorem collapseLine_compact (line : Text) : Compact (collapseLine line) :=
  collapseFrom_compact none line

theorem collapseLine_of_compact {line : Text} (h : Compact line) : collapseLine line = line :=
  collapseFrom_of_compact h none

theorem startsDirective_collapseLine (line : Text) :
    startsDirective (collapseLine line) = startsDirective line := by
  unfold collapseLine
  cases line with
  | nil => rw [collapseFrom]
  | cons c rest =>
    by_cases hc : Text.isBlank c = true
    · have hhash : c ≠ '#' := by
        rintro rfl
        simp [Text.isBlank] at hc
      rw [collapseFrom]
      simp only [hc, if_true]
      split_ifs with hempty hkeep
      · simp [startsDirective, hhash]
      · simp [startsDirective, hhash]
      · obtain ⟨d, tail, hd, hblank⟩ := after_run_cases rest hempty
        rw [hd] at hkeep ⊢
        rw [collapseFrom_cons hblank]
        simp only [keepsSpace, Option.isNone_none, Bool.true_and, Bool.or_eq_true, not_or] at hkeep
        simpa [startsDirective, hhash] using hkeep.2
    · rw [collapseFrom_cons (by simpa using hc)]
      rfl

theorem mem_collapseFrom {last : Option Char} {line : Text} {x : Char}
    (h : x ∈ collapseFrom last line) : x = ' ' ∨ x ∈ line := by
  have hrun : ∀ (c : Char) (rest : Text), x ∈ rest.dropWhile Text.isBlank → x ∈ c :: rest := by
    intro c rest hm
    exact List.mem_cons_of_mem _ ((List.dropWhile_sublist _).subset hm)
  fun_induction collapseFrom last line with
  | case1 => simp at h
  | case2 => simp at h
  | case3 last c rest _ after _ _ ih =>
    rcases List.mem_cons.mp h with h | h
    · exact Or.inl h
    · exact (ih h).imp_right (hrun c rest)
  | case4 last c rest _ after _ _ ih => exact (ih h).imp_right (hrun c rest)
  | case5 last c rest _ ih =>
    rcases List.mem_cons.mp h with h | h
    · exact Or.inr (by simp [h])
    · exact (ih h).imp_right (List.mem_cons_of_mem _)

theorem not_mem_collapseLine {line : Text} {x : Char} (hx : x ≠ ' ') (h : x ∉ line) :
    x ∉ collapseLine line := by
  intro hm
  rcases mem_collapseFrom hm with rfl | hm
  · exact hx rfl
  · exact h hm

end Layout

end SqfMinifier
