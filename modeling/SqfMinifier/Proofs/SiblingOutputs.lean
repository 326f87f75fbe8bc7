import SqfMinifier.Proofs.OutputNames

/-!
Output beside the input is a sibling of the input, and inputs of different names have outputs of
different names. A name without an extension has at most one dot, its first character, so it cannot
hold both the dot that an extension brings and the stem in front of it. So no output is written over
another, however many inputs are minified one after the other.
-/

namespace SqfMinifier

namespace Path

section Names

theorem speaks_of_fileName {p : Path} {name : Text} (h : fileName? p = some name) :
    saysNothing name = false ∧ name ≠ ['.', '.'] := by
  obtain ⟨before, hlast, hup⟩ := fileName?_eq_some.mp h
  have hhead := List.head?_dropWhile_not saysNothing (Text.split '/' (lead p).2).reverse
  rw [unsnoc_eq_some.mp hlast] at hhead
  exact ⟨by simpa using hhead, hup⟩

theorem stem_ne_nil {name : Text} (h : name ≠ []) : (splitAtDot name).1 ≠ [] := by
  rcases splitAtDot_cases name with ⟨hnone, -⟩ | ⟨stem, own, hsome, -, hstem, -⟩
  · rwa [hnone]
  · rwa [hsome]

theorem saysNothing_of_long {segment : Text} (h : 2 ≤ segment.length) :
    saysNothing segment = false := by
  match segment with
  | [] => simp at h
  | [c] => simp at h
  | c :: d :: rest => simp [saysNothing]

theorem ending_eq_nil {extension : Option Text} : ending extension = [] ↔ extension = none := by
  cases extension <;> simp [ending]

/-- The name that a suffix derives is a name again, as long as no extension is lost. It is no `..`:
two dots leave no room for an extension, so the name itself would be a single dot. -/
theorem output_name_speaks {name suffix : Text} {extension : Option Text}
    (hspeaks : saysNothing name = false) (hsuffix : suffix ≠ [])
    (hkeep : (splitAtDot name).2.isSome → extension.isSome) :
    saysNothing ((splitAtDot name).1 ++ suffix ++ ending extension) = false ∧
      (splitAtDot name).1 ++ suffix ++ ending extension ≠ ['.', '.'] := by
  have hname : name ≠ [] := by
    rintro rfl
    cases hspeaks
  have hstem := List.length_pos_iff.mpr (stem_ne_nil hname)
  have hlength := List.length_pos_iff.mpr hsuffix
  refine ⟨saysNothing_of_long ?_, fun hup => ?_⟩
  · simp only [List.length_append]
    omega
  · have htwo := congrArg List.length hup
    simp only [List.length_append, List.length_cons, List.length_nil] at htwo
    have hending : ending extension = [] := List.length_eq_zero_iff.mp (by omega)
    rw [ending_eq_nil.mp hending] at hkeep
    rcases splitAtDot_cases name with ⟨hnone, -⟩ | ⟨stem, own, hsome, -, -, -⟩
    · simp only [hnone] at htwo hstem
      rw [hnone, hending, List.append_nil] at hup
      have hcut : name ++ suffix = ['.'] ++ ['.'] := hup
      have hone : name.length = ['.'].length := by
        simp only [List.length_singleton]
        omega
      rw [(List.append_inj hcut hone).1] at hspeaks
      cases hspeaks
    · rw [hsome] at hkeep
      cases hkeep rfl

theorem bare_name_ne {bare stem suffix extension : Text} (hbare : '.' ∉ bare.tail)
    (hstem : stem ≠ []) : bare ++ suffix ≠ stem ++ suffix ++ '.' :: extension := by
  intro heq
  have hdots := congrArg (List.count '.') heq
  simp only [List.count_append, List.count_cons_self] at hdots
  obtain ⟨c, front, rfl⟩ := List.exists_cons_of_ne_nil hstem
  cases bare with
  | nil =>
    rw [List.count_nil] at hdots
    omega
  | cons d tail =>
    obtain rfl : d = c := by simpa using congrArg List.head? heq
    have htail : tail.count '.' = 0 := List.count_eq_zero.mpr hbare
    rw [List.count_cons, List.count_cons, htail] at hdots
    omega

theorem nothing_behind_dot {x y more : Text} (h : '.' :: x = more ++ '.' :: y) (hx : '.' ∉ x) :
    more = [] := by
  cases more with
  | nil => rfl
  | cons c more =>
    rw [List.cons_append, List.cons.injEq] at h
    exact absurd (by simp [h.2]) hx

theorem last_dot_unique {a b x y : Text} (h : a ++ '.' :: x = b ++ '.' :: y) (hx : '.' ∉ x)
    (hy : '.' ∉ y) : a = b ∧ x = y := by
  have hsame : a = b := by
    rcases List.append_eq_append_iff.mp h with ⟨more, rfl, hmore⟩ | ⟨more, rfl, hmore⟩
    · rw [nothing_behind_dot hmore hx, List.append_nil]
    · rw [nothing_behind_dot hmore hy, List.append_nil]
  subst hsame
  exact ⟨rfl, by simpa using h⟩

/-- Different names stay different when the same suffix goes in front of their extensions. -/
theorem output_name_injective {a b suffix : Text}
    (h : (splitAtDot a).1 ++ suffix ++ ending (splitAtDot a).2 =
      (splitAtDot b).1 ++ suffix ++ ending (splitAtDot b).2) : a = b := by
  rcases splitAtDot_cases a with ⟨hbare, hdots⟩ | ⟨stem, own, hcut, hname, hstem, hown⟩ <;>
    rcases splitAtDot_cases b with ⟨hbare', hdots'⟩ | ⟨stem', own', hcut', hname', hstem', hown'⟩
  · simpa [hbare, hbare', ending] using h
  · rw [hbare, hcut', ending, ending, List.append_nil] at h
    exact absurd h (bare_name_ne hdots hstem')
  · rw [hcut, hbare', ending, ending, List.append_nil] at h
    exact absurd h.symm (bare_name_ne hdots' hstem)
  · rw [hcut, hcut', ending, ending] at h
    obtain ⟨hfront, rfl⟩ := last_dot_unique h hown hown'
    obtain rfl : stem = stem' := List.append_cancel_right hfront
    rw [hname, hname']

end Names

section Parents

/-- A path without what says nothing at its end. -/
def settled (p : Path) : Path :=
  (lead p).1 ++ joinSegments ((Text.split '/' (lead p).2).rdropWhile saysNothing)

theorem first_segment {p : Path} {first : Text} {others : List Text}
    (h : Text.split '/' p = first :: others) :
    '/' ∉ first ∧ (p = first ∧ others = [] ∨ ∃ rest, p = first ++ '/' :: rest) := by
  have hmem : first ∈ Text.split '/' p := by simp [h]
  have hfree : '/' ∉ first := Text.sep_not_mem_of_mem_split hmem
  refine ⟨hfree, ?_⟩
  cases others with
  | nil =>
    rw [← joinSegments_split p, h]
    simp [joinSegments]
  | cons second others =>
    obtain ⟨rest, hrest, -⟩ := split_cons_cases h
    exact .inr ⟨rest, hrest⟩

theorem lead_cases (p : Path) :
    p = [] ∨ (∃ rest, p = '/' :: rest) ∨ p = ['.'] ∨ (∃ rest, p = '.' :: '/' :: rest) ∨
      ∃ first others, Text.split '/' p = first :: others ∧ saysNothing first = false := by
  obtain ⟨first, others, hsplit⟩ := List.exists_cons_of_ne_nil (Text.split_ne_nil '/' p)
  by_cases hspeaks : saysNothing first = false
  · simp [hsplit, hspeaks]
  · have hquiet : first = [] ∨ first = ['.'] := by
      simpa [saysNothing, Classical.or_iff_not_imp_left] using hspeaks
    obtain ⟨-, ⟨rfl, -⟩ | ⟨rest, rfl⟩⟩ := first_segment hsplit <;>
      rcases hquiet with rfl | rfl <;> simp

theorem lead_of_first {p first : Text} {others : List Text}
    (h : Text.split '/' p = first :: others) (hspeaks : saysNothing first = false) :
    lead p = ([], p) ∧ ∀ t, lead (p ++ '/' :: t) = ([], p ++ '/' :: t) := by
  obtain ⟨hfree, ⟨rfl, -⟩ | ⟨rest, rfl⟩⟩ := first_segment h
  · exact ⟨by simpa using lead_of_speaks hspeaks hfree [], fun t => lead_of_speaks hspeaks hfree _⟩
  · refine ⟨lead_of_speaks hspeaks hfree _, fun t => ?_⟩
    rw [List.append_assoc]
    exact lead_of_speaks hspeaks hfree _

theorem lead_append_slash {base : Path} (hne : base ≠ []) (t : Text) :
    lead (base ++ '/' :: t) = ((lead base).1, (lead base).2 ++ '/' :: t) := by
  obtain rfl | ⟨rest, rfl⟩ | rfl | ⟨rest, rfl⟩ | ⟨first, others, hsplit, hspeaks⟩ := lead_cases base
  · exact absurd rfl hne
  · rfl
  · rfl
  · rfl
  · obtain ⟨hlead, hlonger⟩ := lead_of_first hsplit hspeaks
    rw [hlead, hlonger]

theorem rdropWhile_concat_quiet (segments : List Text) :
    (segments ++ [[]]).rdropWhile saysNothing = segments.rdropWhile saysNothing :=
  List.rdropWhile_concat_pos saysNothing segments [] rfl

/-- A name that is pushed onto a path stands behind all that the path says. -/
theorem lead_push (base : Path) {name : Text} (hspeaks : saysNothing name = false)
    (hname : '/' ∉ name) :
    ∃ rest front, lead (push base name) = ((lead base).1, rest) ∧
      Text.split '/' rest = front ++ [name] ∧
      front.rdropWhile saysNothing =
        (Text.split '/' (lead base).2).rdropWhile saysNothing := by
  have hrelative := isAbsolute_of_slash_free hname
  have hsingle : Text.split '/' name = [name] := Text.split_of_not_mem hname
  by_cases hempty : base = []
  · have hlead : lead (push base name) = ([], name) := by
      simpa [push, hrelative, hempty] using lead_of_speaks hspeaks hname []
    refine ⟨name, [], by rw [hlead, hempty]; rfl, hsingle, ?_⟩
    rw [hempty]
    rfl
  by_cases hslash : base.getLast? = some '/'
  · obtain ⟨front, rfl⟩ := List.getLast?_eq_some_iff.mp hslash
    have hpush : push (front ++ ['/']) name = front ++ '/' :: name := by
      simp [push, hrelative]
    rw [hpush]
    by_cases hroot : front = []
    · subst hroot
      exact ⟨name, [], rfl, hsingle, rfl⟩
    · rw [lead_append_slash hroot, lead_append_slash hroot]
      refine ⟨_, _, rfl, Text.split_append_sep .. |>.trans (by rw [hsingle]), ?_⟩
      rw [Text.split_append_sep]
      exact (rdropWhile_concat_quiet _).symm
  · have hpush : push base name = base ++ '/' :: name := by
      simp [push, hrelative, hempty, hslash]
    rw [hpush, lead_append_slash hempty]
    exact ⟨_, _, rfl, by rw [Text.split_append_sep, hsingle], rfl⟩

theorem parent_push (base : Path) {name : Text} (hspeaks : saysNothing name = false)
    (hname : '/' ∉ name) : parent (push base name) = settled base := by
  obtain ⟨rest, front, hlead, hsplit, hfront⟩ := lead_push base hspeaks hname
  rw [parent_eq hlead hsplit hspeaks, hfront, settled]

theorem fileName?_push (base : Path) {name : Text} (hspeaks : saysNothing name = false)
    (hup : name ≠ ['.', '.']) (hname : '/' ∉ name) : fileName? (push base name) = some name := by
  obtain ⟨rest, front, hlead, hsplit, -⟩ := lead_push base hspeaks hname
  exact fileName?_eq_some.mpr ⟨_, unsnoc_eq hlead hsplit hspeaks, hup⟩

section Kept

variable {p : Path} {kept : List Text} (hkept : kept <+: Text.split '/' (lead p).2)
  (hlast : ∀ s ∈ kept.getLast?, saysNothing s = false)

include hlast

theorem eq_nil_of_prefix_quiet (hquiet : kept <+: [[]]) : kept = [] := by
  cases kept with
  | nil => rfl
  | cons s kept =>
    obtain ⟨rfl, hnil⟩ := List.cons_prefix_cons.mp hquiet
    rw [List.prefix_nil.mp hnil] at hlast
    cases hlast [] rfl

include hkept

/-- The first segments of a path, up to one that says something, have the lead of the whole path. -/
theorem lead_of_prefix :
    lead ((lead p).1 ++ joinSegments kept) = ((lead p).1, joinSegments kept) := by
  obtain rfl | ⟨rest, rfl⟩ | rfl | ⟨rest, rfl⟩ | ⟨first, others, hsplit, hspeaks⟩ := lead_cases p
  · rw [eq_nil_of_prefix_quiet hlast hkept]
    rfl
  · rfl
  · rw [eq_nil_of_prefix_quiet hlast hkept]
    rfl
  · cases kept with
    | nil => rfl
    | cons s kept =>
      obtain ⟨rfl, -⟩ : s = [] ∧ kept <+: Text.split '/' rest := List.cons_prefix_cons.mp hkept
      cases kept with
      | nil => cases hlast [] rfl
      | cons next kept =>
        rw [joinSegments_cons [] (by simp)]
        rfl
  · rw [(lead_of_first hsplit hspeaks).1] at hkept ⊢
    cases kept with
    | nil => rfl
    | cons s kept =>
      have hjoined : Text.split '/' (joinSegments (s :: kept)) = s :: kept := by
        apply split_joinSegments _ (by simp)
        intro segment hsegment
        exact Text.sep_not_mem_of_mem_split (hkept.subset hsegment)
      obtain ⟨rfl, -⟩ := List.cons_prefix_cons.mp (hsplit ▸ hkept)
      exact (lead_of_first hjoined hspeaks).1

theorem settled_of_prefix :
    settled ((lead p).1 ++ joinSegments kept) = (lead p).1 ++ joinSegments kept := by
  rw [settled, lead_of_prefix hkept hlast]
  cases kept with
  | nil => rfl
  | cons s kept =>
    have hfree : ∀ segment ∈ s :: kept, '/' ∉ segment := by
      intro segment hsegment
      exact Text.sep_not_mem_of_mem_split (hkept.subset hsegment)
    have hstays : (s :: kept).rdropWhile saysNothing = s :: kept := by
      rw [List.rdropWhile_eq_self_iff]
      intro hne
      simpa using hlast _ (List.getLast?_eq_some_getLast hne)
    rw [split_joinSegments hfree (by simp), hstays]

end Kept

theorem settled_parent {p : Path} {name : Text} (h : fileName? p = some name) :
    settled (parent p) = parent p := by
  obtain ⟨before, hlast, -⟩ := fileName?_eq_some.mp h
  have hparent : parent p =
      (lead p).1 ++ joinSegments (before.dropWhile saysNothing).reverse := by
    rw [parent, hlast]
  have hsuffix : before.dropWhile saysNothing <:+ (Text.split '/' (lead p).2).reverse := by
    have hall := List.dropWhile_suffix saysNothing (l := (Text.split '/' (lead p).2).reverse)
    rw [unsnoc_eq_some.mp hlast] at hall
    exact (List.dropWhile_suffix saysNothing).trans ((List.suffix_cons name before).trans hall)
  rw [hparent]
  apply settled_of_prefix
  · rw [← List.reverse_reverse (Text.split '/' (lead p).2), List.reverse_prefix]
    exact hsuffix
  · intro s hs
    rw [List.getLast?_reverse] at hs
    have hhead := List.head?_dropWhile_not saysNothing before
    rw [hs] at hhead
    simpa using hhead

theorem names_withFileName {p : Path} {own name : Text} (h : fileName? p = some own)
    (hspeaks : saysNothing name = false) (hup : name ≠ ['.', '.']) (hname : '/' ∉ name) :
    parent (withFileName p name) = parent p ∧ fileName? (withFileName p name) = some name := by
  have hpush : withFileName p name = push (parent p) name := by
    rw [withFileName, h]
    rfl
  rw [hpush]
  exact ⟨(parent_push _ hspeaks hname).trans (settled_parent h),
    fileName?_push _ hspeaks hup hname⟩

end Parents

section Outputs

variable {p : Path} {name suffix : Text}

/-- A derived path leads to the same directory, and its name is the derived one. -/
theorem names_outputWith {extension : Option Text} (h : fileName? p = some name)
    (hsuffix : suffix ≠ []) (hslash : '/' ∉ suffix) (hextension : ∀ e ∈ extension, '/' ∉ e)
    (hkeep : (extension? p).isSome → extension.isSome) :
    parent (outputWith p suffix extension) = parent p ∧
      fileName? (outputWith p suffix extension) =
        some ((splitAtDot name).1 ++ suffix ++ ending extension) := by
  rw [extension?_of_name h] at hkeep
  have hfree : '/' ∉ (splitAtDot name).1 ++ suffix ++ ending extension := by
    simp [slash_free_stem (slash_free_fileName h), hslash, slash_free_ending hextension]
  obtain ⟨hspeaks, hup⟩ := output_name_speaks (speaks_of_fileName h).1 hsuffix hkeep
  rw [outputWith_of_name h]
  exact names_withFileName h hspeaks hup hfree

theorem fileName?_defaultOutput (h : fileName? p = some name) (hsuffix : suffix ≠ [])
    (hslash : '/' ∉ suffix) :
    fileName? (defaultOutput p suffix) =
      some ((splitAtDot name).1 ++ suffix ++ ending (splitAtDot name).2) := by
  rw [← extension?_of_name h]
  exact (names_outputWith h hsuffix hslash (fun e he => slash_free_extension he) id).2

end Outputs

end Path

namespace World

theorem place_of_file {w : World} {p : Path} {name : Text} {place : Location}
    {content : ByteArray} (hname : Path.fileName? p = some name)
    (hplace : w.resolve p = .ok place) (hfile : w.tree.get? place = some (.file content)) :
    place.getLast? = some name := by
  obtain ⟨-, hwalk⟩ := resolve_eq_ok.mp hplace
  obtain ⟨front, last, hsplit⟩ : ∃ front last, Text.split '/' p = front ++ [last] :=
    ⟨_, _, (List.dropLast_append_getLast (Text.split_ne_nil '/' p)).symm⟩
  rw [hsplit, walk_append_eq_ok] at hwalk
  obtain ⟨above, -, henter⟩ := hwalk
  rw [walk_singleton_eq_ok] at henter
  cases henter with
  | stay hdir _ =>
    rw [hdir] at hfile
    cases hfile
  | up _ hup =>
    subst hup
    have hnone : Path.fileName? p = none := Path.fileName?_eq hsplit (by decide)
    rw [hnone] at hname
    cases hname
  | down _ hspeaks hdown _ =>
    rw [Path.fileName?_eq hsplit hspeaks, if_neg hdown] at hname
    rw [List.getLast?_concat, hname]

theorem Enters.speaks {tree : FileTree} {here : Location} {segment : Text}
    (h : Enters tree here segment (here ++ [segment])) :
    Path.saysNothing segment = false ∧ segment ≠ ['.', '.'] := by
  generalize hplace : here ++ [segment] = place at h
  cases h with
  | stay => simp at hplace
  | up =>
    have hlength := congrArg List.length hplace
    simp only [List.length_append, List.length_singleton, List.length_dropLast] at hlength
    omega
  | down _ hspeaks hdown _ => exact ⟨hspeaks, hdown⟩

theorem place_of_output {w : World} {p : Path} {name : Text} {place : Location}
    (hname : Path.fileName? p = some name) (hplace : w.resolveOutput p = .ok place) :
    place.getLast? = some name := by
  obtain ⟨folder, last, here, hnames, rfl, -⟩ := names_of_resolveOutput hplace
  obtain ⟨hspeaks, hdown⟩ := hnames.enters.speaks
  rw [Path.fileName?_eq hnames.segments hspeaks, if_neg hdown] at hname
  rw [List.getLast?_concat, hname]

/-- A file stays as it is when a file of another name is written. -/
theorem readText_of_writeText_other {w after : World} {p q : Path} {name other t u : Text}
    (hp : Path.fileName? p = some name) (hq : Path.fileName? q = some other)
    (hne : name ≠ other) (hread : w.readText p = .ok t) (hwrite : w.writeText q u = .ok after) :
    after.readText p = .ok t := by
  obtain ⟨place, hplace, hfile⟩ := read_eq_ok.mp (readText_eq_ok.mp hread)
  obtain ⟨written, hwritten, -⟩ := writeText_eq_ok.mp hwrite
  have haway : place ≠ written := by
    rintro rfl
    have hsame := (place_of_file hp hplace hfile).symm.trans (place_of_output hq hwritten)
    exact hne (Option.some.inj hsame)
  exact readText_eq_ok.mpr (read_writeText_of_ne hwrite hwritten hplace hfile haway)

end World

section Minifying

variable {aware : Bool} {suffix : Text} {p : Path} {name t : Text}

def minifyBeside (aware : Bool) (suffix : Text) (w : World) (input : Path) : World :=
  (minifyFile w input .besideInput aware suffix).world

def NamedElse (name : Text) (p : Path) : Prop :=
  ∃ other, Path.fileName? p = some other ∧ other ≠ name

theorem defaultOutput_names (hsuffix : suffix ≠ []) (hslash : '/' ∉ suffix)
    (hp : Path.fileName? p = some name) {q : Path} (hq : NamedElse name q) :
    ∃ c d, Path.fileName? (Path.defaultOutput p suffix) = some c ∧
      Path.fileName? (Path.defaultOutput q suffix) = some d ∧ c ≠ d := by
  obtain ⟨other, hother, hne⟩ := hq
  refine ⟨_, _, Path.fileName?_defaultOutput hp hsuffix hslash,
    Path.fileName?_defaultOutput hother hsuffix hslash, fun heq => ?_⟩
  exact hne (Path.output_name_injective heq).symm

theorem minifyBeside_keeps (hsuffix : suffix ≠ []) (hslash : '/' ∉ suffix) {w : World}
    (hp : Path.fileName? p = some name)
    (hread : w.readText (Path.defaultOutput p suffix) = .ok t) {q : Path}
    (hq : NamedElse name q) :
    (minifyBeside aware suffix w q).readText (Path.defaultOutput p suffix) = .ok t := by
  obtain ⟨c, d, hc, hd, hne⟩ := defaultOutput_names hsuffix hslash hp hq
  have hends := minifyFile_ends w q .besideInput aware suffix
  unfold minifyBeside
  generalize (minifyFile w q .besideInput aware suffix).result = result at hends
  generalize (minifyFile w q .besideInput aware suffix).world = after at hends ⊢
  cases hends with
  | unread => exact hread
  | unwritten => exact hread
  | done _ hafter => exact World.readText_of_writeText_other hc hd hne hread hafter

theorem foldl_minifyBeside_keeps (hsuffix : suffix ≠ []) (hslash : '/' ∉ suffix) {w : World}
    (hp : Path.fileName? p = some name)
    (hread : w.readText (Path.defaultOutput p suffix) = .ok t) {others : List Path}
    (hothers : ∀ q ∈ others, NamedElse name q) :
    (others.foldl (minifyBeside aware suffix) w).readText (Path.defaultOutput p suffix) =
      .ok t := by
  induction others generalizing w with
  | nil => exact hread
  | cons q others ih =>
    rw [List.forall_mem_cons] at hothers
    exact ih (minifyBeside_keeps hsuffix hslash hp hread hothers.1) hothers.2

theorem minifyFile_delivers {w : World}
    (h : (minifyFile w p .besideInput aware suffix).result = .ok t) :
    (minifyBeside aware suffix w p).readText (Path.defaultOutput p suffix) = .ok t := by
  have hends := minifyFile_ends w p .besideInput aware suffix
  unfold minifyBeside
  rw [h] at hends
  generalize (minifyFile w p .besideInput aware suffix).world = after at hends ⊢
  cases hends with
  | done _ hafter => exact World.readText_writeText hafter

end Minifying

/-- With a suffix that is not empty and has no slash, output goes beside its input under another
name, whatever form it has. Minified files of different names go to different names, so each output
stays as it is when files of other names are minified after it. -/
theorem outputs_are_distinct_siblings {suffix : Text} (hsuffix : suffix ≠ [])
    (hslash : '/' ∉ suffix) :
    (∀ (p : Path) (name : Text) (form : EmitFormat), Path.fileName? p = some name →
      Path.parent (Path.outputWith p suffix (form.extension?.or (Path.extension? p))) =
          Path.parent p ∧
        ∃ other, Path.fileName? (Path.outputWith p suffix
          (form.extension?.or (Path.extension? p))) = some other ∧ other ≠ name) ∧
    ∀ (p : Path) (name : Text), Path.fileName? p = some name →
      (∀ q, NamedElse name q → ∃ c d, Path.fileName? (Path.defaultOutput p suffix) = some c ∧
        Path.fileName? (Path.defaultOutput q suffix) = some d ∧ c ≠ d) ∧
      ∀ (w : World) (aware : Bool) (t : Text) (others : List Path),
        (minifyFile w p .besideInput aware suffix).result = .ok t →
        (∀ q ∈ others, NamedElse name q) →
        (others.foldl (minifyBeside aware suffix) (minifyBeside aware suffix w p)).readText
          (Path.defaultOutput p suffix) = .ok t := by
  refine ⟨fun p name form hp => ?_, fun p name hp => ⟨?_, ?_⟩⟩
  · have hkeep : (Path.extension? p).isSome → (form.extension?.or (Path.extension? p)).isSome := by
      intro hsome
      simp [hsome]
    obtain ⟨hparent, hname⟩ :=
      Path.names_outputWith hp hsuffix hslash (slash_free_output_extension form p) hkeep
    rw [Path.extension?_of_name hp] at hkeep hparent hname ⊢
    exact ⟨hparent, _, hname, Path.output_name_ne hsuffix hkeep⟩
  · intro q hq
    exact defaultOutput_names hsuffix hslash hp hq
  · intro w aware t others hresult hothers
    exact foldl_minifyBeside_keeps hsuffix hslash hp (minifyFile_delivers hresult) hothers

/-- The suffix holds two extensions, and one of the two names is the other with the second one. -/
def siblingWorld : World :=
  ⟨⟨[(["d".toList], .directory), (["d".toList, "fn".toList], .file "x;  // y\n".toUTF8),
    (["d".toList, "fn.a".toList], .file "z;\n".toUTF8)]⟩, []⟩

theorem outputs_are_distinct_siblings_with_dots :
    Path.parent (Path.outputWith "./d//fn.a/".toList ".sqf.a".toList (some "json".toList)) =
        Path.parent "./d//fn.a/".toList ∧
      (∃ c d, Path.fileName? (Path.defaultOutput "d/./fn".toList ".sqf.a".toList) = some c ∧
        Path.fileName? (Path.defaultOutput "d/fn.a".toList ".sqf.a".toList) = some d ∧ c ≠ d) ∧
      (["d/fn.a".toList].foldl (minifyBeside false ".sqf.a".toList)
        (minifyBeside false ".sqf.a".toList siblingWorld "d/./fn".toList)).readText
          (Path.defaultOutput "d/./fn".toList ".sqf.a".toList) = .ok "x;".toList := by
  have hsuffix : ".sqf.a".toList ≠ [] := by decide
  have hslash : '/' ∉ ".sqf.a".toList := by decide
  have hform : Path.fileName? "./d//fn.a/".toList = some "fn.a".toList := by decide
  have hname : Path.fileName? "d/./fn".toList = some "fn".toList := by decide
  have hother : NamedElse "fn".toList "d/fn.a".toList := ⟨"fn.a".toList, by decide, by decide⟩
  have hothers : ∀ q ∈ ["d/fn.a".toList], NamedElse "fn".toList q :=
    List.forall_mem_singleton.mpr hother
  have hresult : (minifyFile siblingWorld "d/./fn".toList .besideInput false
      ".sqf.a".toList).result = .ok "x;".toList := by decide +kernel
  obtain ⟨hsibling, hdistinct⟩ := outputs_are_distinct_siblings hsuffix hslash
  obtain ⟨hnames, hkept⟩ := hdistinct _ _ hname
  exact ⟨(hsibling _ _ .tokensJson hform).1, hnames _ hother,
    hkept siblingWorld false _ _ hresult hothers⟩

end SqfMinifier
