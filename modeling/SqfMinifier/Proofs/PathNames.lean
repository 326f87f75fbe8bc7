import SqfMinifier.Path
import SqfMinifier.Proofs.Lines

/-!
Paths as lists of segments between slashes. The name of a file is the last segment that says
something, the parent of a path is what stands in front of it, and another name in its place keeps
all segments but those that say nothing. The name that is derived from a suffix is another one: a
suffix that is not empty makes it longer, or puts a character in front of the last dot.
-/

namespace SqfMinifier

namespace Path

def folder (base : Path) : List Text :=
  if base = [] then []
  else if base.getLast? = some '/' then (Text.split '/' base).dropLast
  else Text.split '/' base

theorem isAbsolute_of_slash_free {name : Text} (h : '/' ∉ name) : isAbsolute name = false := by
  cases name with
  | nil => rfl
  | cons c rest =>
    have hc : c ≠ '/' := by
      rintro rfl
      exact h List.mem_cons_self
    simpa [isAbsolute] using hc

theorem split_push (base : Path) {name : Text} (h : '/' ∉ name) :
    Text.split '/' (push base name) = folder base ++ [name] := by
  have hname : Text.split '/' name = [name] := Text.split_of_not_mem h
  rw [push, isAbsolute_of_slash_free h, if_neg Bool.false_ne_true, folder]
  by_cases hempty : base = []
  · simp [hempty, hname]
  by_cases hslash : base.getLast? = some '/'
  · obtain ⟨front, rfl⟩ := List.getLast?_eq_some_iff.mp hslash
    rw [if_pos (Or.inr hslash), if_neg hempty, if_pos hslash, List.append_assoc,
      List.singleton_append, Text.split_append_sep, Text.split_append_sep, hname]
    simp [Text.split]
  · rw [if_neg (by simp [hempty, hslash]), if_neg hempty, if_neg hslash, Text.split_append_sep,
      hname]

theorem isAbsolute_push {base : Path} (hbase : base ≠ []) {name : Text} (h : '/' ∉ name) :
    isAbsolute (push base name) = isAbsolute base := by
  rw [push, isAbsolute_of_slash_free h, if_neg Bool.false_ne_true]
  split_ifs <;> rw [isAbsolute, isAbsolute, List.head?_append_of_ne_nil _ hbase]

theorem joinSegments_split (p : Path) : joinSegments (Text.split '/' p) = p := by
  rw [joinSegments, Text.split_eq_splitOn, List.intercalate_splitOn]

theorem split_joinSegments {segments : List Text} (hfree : ∀ s ∈ segments, '/' ∉ s)
    (hne : segments ≠ []) : Text.split '/' (joinSegments segments) = segments := by
  rw [Text.split_eq_splitOn]
  exact List.splitOn_intercalate '/' hfree hne

theorem folder_of_split {base : Path} {segments : List Text}
    (h : Text.split '/' base = segments) (hlast : segments.getLast? ≠ some []) :
    folder base = segments := by
  have hempty : base ≠ [] := by
    rintro rfl
    rw [← h] at hlast
    exact hlast rfl
  have hslash : base.getLast? ≠ some '/' := by
    intro hs
    obtain ⟨front, rfl⟩ := List.getLast?_eq_some_iff.mp hs
    rw [← h, Text.split_append_sep] at hlast
    exact hlast (by simp [Text.split])
  rw [folder, if_neg hempty, if_neg hslash, h]

theorem isAbsolute_iff_split {p : Path} :
    isAbsolute p = true ↔ ∃ s rest, Text.split '/' p = [] :: s :: rest := by
  cases p with
  | nil => simp [isAbsolute, Text.split]
  | cons c p =>
    obtain ⟨s, rest, hs⟩ := List.exists_cons_of_ne_nil (Text.split_ne_nil '/' p)
    by_cases hc : c = '/'
    · simp [isAbsolute, Text.split, hc, hs]
    · simp [isAbsolute, Text.split, hc, hs]

theorem unsnoc_eq_some {p : Path} {name : Text} {before : List Text} :
    unsnoc p = some (name, before) ↔
      (Text.split '/' (lead p).2).reverse.dropWhile saysNothing = name :: before := by
  rw [unsnoc]
  cases (Text.split '/' (lead p).2).reverse.dropWhile saysNothing <;> simp

theorem fileName?_eq_some {p : Path} {name : Text} :
    fileName? p = some name ↔ ∃ before, unsnoc p = some (name, before) ∧ name ≠ ['.', '.'] := by
  unfold fileName?
  split
  · rename_i last before hlast
    simp only [hlast, Option.some.injEq, Prod.mk.injEq]
    constructor
    · intro h
      split_ifs at h with hup
      cases h
      exact ⟨before, ⟨rfl, rfl⟩, hup⟩
    · rintro ⟨_, ⟨rfl, rfl⟩, hup⟩
      rw [if_neg hup]
  · rename_i hlast
    simp [hlast]

section Named

variable {p : Path} {l rest : Text} {front : List Text} {name : Text}

theorem unsnoc_eq (hlead : lead p = (l, rest)) (h : Text.split '/' rest = front ++ [name])
    (hspeaks : saysNothing name = false) : unsnoc p = some (name, front.reverse) := by
  rw [unsnoc, hlead, h, List.reverse_append, List.reverse_singleton, List.singleton_append,
    List.dropWhile_cons_of_neg (by simp [hspeaks])]

theorem parent_eq (hlead : lead p = (l, rest)) (h : Text.split '/' rest = front ++ [name])
    (hspeaks : saysNothing name = false) :
    parent p = l ++ joinSegments (front.rdropWhile saysNothing) := by
  rw [parent, unsnoc_eq hlead h hspeaks, hlead]
  rfl

end Named

theorem rdropWhile_cons (first : Text) (segments : List Text) :
    (first :: segments).rdropWhile saysNothing =
      if segments.rdropWhile saysNothing = [] then if saysNothing first then [] else [first]
      else first :: segments.rdropWhile saysNothing := by
  simp only [List.rdropWhile, List.reverse_cons, List.dropWhile_append, List.reverse_eq_nil_iff,
    List.isEmpty_iff]
  split_ifs <;> simp [*]

theorem folder_append_slash {first : Text} (hfirst : '/' ∉ first) {segments : List Text}
    (hfree : ∀ s ∈ segments, '/' ∉ s) (hne : segments ≠ []) (hlast : segments.getLast? ≠ some []) :
    folder (first ++ '/' :: joinSegments segments) = first :: segments := by
  apply folder_of_split
  · rw [Text.split_append_sep, Text.split_of_not_mem hfirst, split_joinSegments hfree hne]
    rfl
  · obtain ⟨s, rest, rfl⟩ := List.exists_cons_of_ne_nil hne
    simpa using hlast

theorem joinSegments_cons (first : Text) {segments : List Text} (hne : segments ≠ []) :
    joinSegments (first :: segments) = first ++ '/' :: joinSegments segments := by
  rw [joinSegments, List.intercalate_cons_of_ne_nil hne, List.append_assoc]
  rfl

theorem lead_of_speaks {first : Text} (hspeaks : saysNothing first = false) (hfirst : '/' ∉ first)
    (rest : Text) : lead (first ++ rest) = ([], first ++ rest) := by
  cases first with
  | nil => cases hspeaks
  | cons c first =>
    cases first with
    | nil =>
      have hc : c ≠ '.' ∧ c ≠ '/' := by
        constructor <;> rintro rfl
        · cases hspeaks
        · exact hfirst List.mem_cons_self
      simp [lead, hc]
    | cons d first =>
      have hc : c ≠ '/' ∧ d ≠ '/' := by
        constructor <;> rintro rfl <;> simp at hfirst
      simp [lead, hc]

/-- The parent of a path keeps its first segment, and those up to the last that says something. -/
theorem folder_parent {first name : Text} (hfirst : '/' ∉ first) {front : List Text} {q : Path}
    (hq : Text.split '/' q = front ++ [name]) (hname : saysNothing name = false) :
    folder (parent (first ++ '/' :: q)) = first :: front.rdropWhile saysNothing := by
  have hfree : ∀ s ∈ front.rdropWhile saysNothing, '/' ∉ s := by
    intro s hs
    have hmem : s ∈ Text.split '/' q := by
      rw [hq]
      exact List.mem_append_left _ ((List.rdropWhile_prefix saysNothing front).subset hs)
    exact Text.sep_not_mem_of_mem_split hmem
  have hfolder : front.rdropWhile saysNothing ≠ [] →
      folder (first ++ '/' :: joinSegments (front.rdropWhile saysNothing)) =
        first :: front.rdropWhile saysNothing := by
    intro hne
    apply folder_append_slash hfirst hfree hne
    intro hlast
    cases Text.getLast_rdropWhile hlast
  by_cases hroot : first = []
  · subst hroot
    have hlead : lead ('/' :: q) = (['/'], q) := rfl
    rw [List.nil_append, parent_eq hlead hq hname]
    by_cases hne : front.rdropWhile saysNothing = []
    · rw [hne]
      rfl
    · exact hfolder hne
  by_cases hdot : first = ['.']
  · subst hdot
    have hsplit : Text.split '/' ('/' :: q) = ([] :: front) ++ [name] := by
      rw [Text.split, if_pos rfl, hq]
      rfl
    have hlead : lead ('.' :: '/' :: q) = (['.'], '/' :: q) := rfl
    rw [List.singleton_append, parent_eq hlead hsplit hname, rdropWhile_cons]
    by_cases hne : front.rdropWhile saysNothing = []
    · rw [hne]
      rfl
    · rw [if_neg hne, joinSegments_cons [] hne]
      exact hfolder hne
  · have hspeaks : saysNothing first = false := by simp [saysNothing, hroot, hdot]
    have hsplit : Text.split '/' (first ++ '/' :: q) = (first :: front) ++ [name] := by
      rw [Text.split_append_sep, Text.split_of_not_mem hfirst, hq]
      rfl
    rw [parent_eq (lead_of_speaks hspeaks hfirst _) hsplit hname, List.nil_append, rdropWhile_cons]
    by_cases hne : front.rdropWhile saysNothing = []
    · have hsingle : joinSegments [first] = first := by simp [joinSegments]
      rw [if_pos hne, hspeaks, if_neg Bool.false_ne_true, hsingle, hne]
      exact folder_of_split (Text.split_of_not_mem hfirst) (by simpa using hroot)
    · rw [if_neg hne, joinSegments_cons first hne]
      exact hfolder hne

theorem isAbsolute_of_split {p : Path} {first name : Text} {middle : List Text}
    (h : Text.split '/' p = first :: middle ++ [name]) : isAbsolute p = (first == []) := by
  rw [Bool.eq_iff_iff, isAbsolute_iff_split, h]
  cases middle <;> simp

theorem split_cons_cases {p : Path} {first second : Text} {rest : List Text}
    (h : Text.split '/' p = first :: second :: rest) :
    ∃ q, p = first ++ '/' :: q ∧ '/' ∉ first ∧ Text.split '/' q = second :: rest := by
  have hfree : ∀ s ∈ first :: second :: rest, '/' ∉ s := by
    intro s hs
    rw [← h] at hs
    exact Text.sep_not_mem_of_mem_split hs
  refine ⟨joinSegments (second :: rest), ?_, hfree first List.mem_cons_self, ?_⟩
  · rw [← joinSegments_cons first (by simp), ← h, joinSegments_split]
  · exact split_joinSegments (fun s hs => hfree s (List.mem_cons_of_mem _ hs)) (by simp)

theorem getLast?_cons_split (first : Text) (rest : Path) :
    (first :: Text.split '/' rest).getLast? = (Text.split '/' rest).getLast? := by
  obtain ⟨s, others, hs⟩ := List.exists_cons_of_ne_nil (Text.split_ne_nil '/' rest)
  rw [hs, List.getLast?_cons_cons]

theorem getLast?_split_lead {p : Path} {front : List Text} {name : Text}
    (h : Text.split '/' p = front ++ [name]) (hspeaks : saysNothing name = false) :
    (Text.split '/' (lead p).2).getLast? = some name := by
  have hlast : (Text.split '/' p).getLast? = some name := by simp [h]
  fun_cases lead p with
  | case1 rest => exact (getLast?_cons_split [] rest).symm.trans hlast
  | case2 =>
    cases hlast
    cases hspeaks
  | case3 rest =>
    exact (getLast?_cons_split [] rest).trans ((getLast?_cons_split ['.'] rest).symm.trans hlast)
  | case4 => exact hlast

theorem fileName?_eq {p : Path} {front : List Text} {name : Text}
    (h : Text.split '/' p = front ++ [name]) (hspeaks : saysNothing name = false) :
    fileName? p = if name = ['.', '.'] then none else some name := by
  obtain ⟨middle, hmiddle⟩ := List.getLast?_eq_some_iff.mp (getLast?_split_lead h hspeaks)
  rw [fileName?, unsnoc_eq rfl hmiddle hspeaks]

/-- Another name in place of the last segment keeps the path up to what says nothing before it. -/
theorem split_withFileName {p : Path} {front : List Text} {name other : Text}
    (h : Text.split '/' p = front ++ [name]) (hspeaks : saysNothing name = false)
    (hdown : name ≠ ['.', '.']) (hother : '/' ∉ other) :
    ∃ kept quiet, front = kept ++ quiet ∧ (∀ s ∈ quiet, saysNothing s = true) ∧
      Text.split '/' (withFileName p other) = kept ++ [other] ∧
      isAbsolute (withFileName p other) = isAbsolute p := by
  have hname : withFileName p other = push (parent p) other := by
    rw [withFileName, fileName?_eq h hspeaks, if_neg hdown]
    rfl
  have hsplit := split_push (parent p) hother
  rw [← hname] at hsplit
  cases front with
  | nil =>
    obtain rfl : p = name := by
      rw [← joinSegments_split p, h]
      simp [joinSegments]
    have hfree : '/' ∉ p := Text.sep_not_mem_of_mem_split (show p ∈ Text.split '/' p by simp [h])
    have hlead : lead p = ([], p) := by simpa using lead_of_speaks hspeaks hfree []
    have hparent : parent p = [] := parent_eq hlead h hspeaks
    have hpush : push [] other = other := by simp [push]
    rw [hparent] at hname hsplit
    refine ⟨[], [], rfl, by simp, hsplit, ?_⟩
    rw [hname, hpush, isAbsolute_of_slash_free hother, isAbsolute_of_slash_free hfree]
  | cons first front =>
    have hp : Text.split '/' p = first :: front ++ [name] := h
    obtain ⟨second, rest, hsecond⟩ := List.exists_cons_of_ne_nil (show front ++ [name] ≠ [] by simp)
    rw [List.cons_append, hsecond] at h
    obtain ⟨q, rfl, hfirst, hq⟩ := split_cons_cases h
    rw [folder_parent hfirst (hq.trans hsecond.symm) hspeaks] at hsplit
    refine ⟨_, front.rtakeWhile saysNothing, ?_, ?_, hsplit, ?_⟩
    · rw [List.cons_append, List.rdropWhile_append_rtakeWhile]
    · intro s hs
      exact List.mem_rtakeWhile_imp hs
    · rw [isAbsolute_of_split hsplit, isAbsolute_of_split hp]

theorem dropWhile_of_dot_behind {c : Char} {tail : Text} (h : '.' ∈ tail) :
    ∃ dot d before, (c :: tail).reverse.dropWhile (· != '.') = dot :: d :: before := by
  rw [List.reverse_cons, List.dropWhile_append]
  cases htail : tail.reverse.dropWhile (· != '.') with
  | nil =>
    rw [List.dropWhile_eq_nil_iff] at htail
    simpa using htail '.' (List.mem_reverse.mpr h)
  | cons dot before =>
    obtain ⟨d, others, hcons⟩ := List.exists_cons_of_ne_nil (show before ++ [c] ≠ [] by simp)
    exact ⟨dot, d, others, by simp [hcons]⟩

/-- A name is cut at its last dot, unless its first character is the only one that may be a dot. -/
theorem splitAtDot_cases (name : Text) :
    (splitAtDot name = (name, none) ∧ '.' ∉ name.tail) ∨
      ∃ stem extension, splitAtDot name = (stem, some extension) ∧
        name = stem ++ '.' :: extension ∧ stem ≠ [] ∧ '.' ∉ extension := by
  unfold splitAtDot
  split
  · rename_i dot c before hdrop
    right
    refine ⟨_, _, rfl, ?_, by simp, ?_⟩
    · have hdot : dot = '.' := by
        have hhead : (name.reverse.dropWhile (· != '.')).head? = some dot := by rw [hdrop]; rfl
        simpa using Text.head_dropWhile hhead
      have hname := congrArg List.reverse
        (List.takeWhile_append_dropWhile (p := (· != '.')) (l := name.reverse))
      rw [hdrop, hdot] at hname
      simpa using hname.symm
    · intro hmem
      have hplain := List.mem_takeWhile_imp (List.mem_reverse.mp hmem)
      simp at hplain
  · rename_i hdrop
    refine Or.inl ⟨rfl, fun hmem => ?_⟩
    cases name with
    | nil => cases hmem
    | cons c tail =>
      obtain ⟨dot, d, before, htwo⟩ := dropWhile_of_dot_behind hmem
      exact hdrop dot d before htwo

def ending : Option Text → Text
  | some e => '.' :: e
  | none => []

theorem extension?_of_name {p : Path} {name : Text} (h : fileName? p = some name) :
    extension? p = (splitAtDot name).2 := by
  rw [extension?, h]
  rfl

theorem outputWith_of_name {p : Path} {name : Text} (h : fileName? p = some name) (suffix : Text)
    (extension : Option Text) :
    outputWith p suffix extension =
      withFileName p ((splitAtDot name).1 ++ suffix ++ ending extension) := by
  unfold outputWith stem
  rw [h]
  cases extension <;> rfl

theorem outputWith_of_no_name {p : Path} (h : fileName? p = none) (suffix : Text)
    (extension : Option Text) :
    outputWith p suffix extension = push p (suffix ++ ending extension) := by
  unfold outputWith withFileName stem
  rw [h]
  cases extension <;> rfl

/-- A suffix changes a name as long as no extension is lost. -/
theorem output_name_ne {name suffix : Text} {extension : Option Text} (hsuffix : suffix ≠ [])
    (hkeep : (splitAtDot name).2.isSome → extension.isSome) :
    (splitAtDot name).1 ++ suffix ++ ending extension ≠ name := by
  intro heq
  rcases splitAtDot_cases name with ⟨hnone, -⟩ | ⟨stem, own, hsome, hname, -, hfree⟩
  · apply hsuffix
    rw [hnone, List.append_assoc, List.append_right_eq_self] at heq
    exact (List.append_eq_nil_iff.mp heq).1
  · rw [hsome] at heq hkeep
    obtain ⟨e, rfl⟩ := Option.isSome_iff_exists.mp (hkeep rfl)
    rw [hname, List.append_assoc, List.append_cancel_left_eq] at heq
    cases suffix with
    | nil => exact hsuffix rfl
    | cons c suffix =>
      rw [List.cons_append, List.cons.injEq] at heq
      exact hfree (heq.2 ▸ by simp [ending])

theorem slash_free_ending {extension : Option Text} (h : ∀ e ∈ extension, '/' ∉ e) :
    '/' ∉ ending extension := by
  cases extension with
  | none => simp [ending]
  | some e => simpa [ending] using h e rfl

theorem slash_free_stem {name : Text} (h : '/' ∉ name) : '/' ∉ (splitAtDot name).1 := by
  rcases splitAtDot_cases name with ⟨hnone, -⟩ | ⟨stem, own, hsome, hname, -, -⟩
  · rwa [hnone]
  · intro hmem
    rw [hsome] at hmem
    exact h (by simp [hname, hmem])

theorem slash_free_unsnoc {p : Path} {name : Text} {before : List Text}
    (h : unsnoc p = some (name, before)) : '/' ∉ name := by
  have hmem : name ∈ (Text.split '/' (lead p).2).reverse :=
    (List.dropWhile_sublist saysNothing).subset (unsnoc_eq_some.mp h ▸ List.mem_cons_self)
  exact Text.sep_not_mem_of_mem_split (List.mem_reverse.mp hmem)

theorem slash_free_fileName {p : Path} {name : Text} (h : fileName? p = some name) :
    '/' ∉ name := by
  obtain ⟨before, hlast, -⟩ := fileName?_eq_some.mp h
  exact slash_free_unsnoc hlast

theorem slash_free_extension {p : Path} {e : Text} (h : extension? p = some e) : '/' ∉ e := by
  obtain ⟨name, hname, hsplit⟩ := Option.bind_eq_some_iff.mp h
  have hfree := slash_free_fileName hname
  rcases splitAtDot_cases name with ⟨hnone, -⟩ | ⟨stem, own, hsome, rfl, -, -⟩
  · rw [hnone] at hsplit
    cases hsplit
  · rw [hsome] at hsplit
    cases hsplit
    intro hmem
    exact hfree (by simp [hmem])

end Path

end SqfMinifier
