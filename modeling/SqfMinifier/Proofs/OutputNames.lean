import SqfMinifier.Proofs.PathNames
import SqfMinifier.Proofs.RunAgreement

/-!
Output beside the input does not go into the input. The derived path leads into the directory that
holds the input, and has another name there. This needs a suffix without a slash: one with a slash
can lead back to the input.
-/

namespace SqfMinifier

namespace World

theorem walk_quiet {tree : FileTree} {here there : Location} {segments : List Text}
    (hquiet : ∀ s ∈ segments, Path.saysNothing s = true)
    (h : walk tree here segments = .ok there) : there = here := by
  induction segments generalizing here with
  | nil =>
    cases h
    rfl
  | cons segment rest ih =>
    rw [List.forall_mem_cons] at hquiet
    obtain ⟨next, henter, hrest⟩ := walk_cons_eq_ok.mp h
    rw [ih hquiet.2 hrest]
    cases henter with
    | stay _ _ => rfl
    | up _ hup =>
      rw [hup] at hquiet
      exact absurd hquiet.1 (by decide)
    | down _ hspeaks _ _ =>
      rw [hspeaks] at hquiet
      exact absurd hquiet.1 (by decide)

theorem start_congr (w : World) {p q : Path} (h : Path.isAbsolute p = Path.isAbsolute q) :
    w.start p = w.start q := by
  rw [start, start, h]

theorem Names.of_withFileName {w : World} {p : Path} {folder front : List Text}
    {name own other : Text} {here above : Location}
    (h : w.Names (Path.withFileName p other) folder name here) (hother : '/' ∉ other)
    (hsplit : Text.split '/' p = front ++ [own]) (hspeaks : Path.saysNothing own = false)
    (hdown : own ≠ ['.', '.']) (hfront : walk w.tree (w.start p) front = .ok above) :
    name = other ∧ here = above := by
  obtain ⟨kept, quiet, rfl, hquiet, hkept, habsolute⟩ :=
    Path.split_withFileName hsplit hspeaks hdown hother
  obtain ⟨rfl, hname⟩ := List.append_inj' (h.segments.symm.trans hkept) rfl
  obtain ⟨middle, hmiddle, hrest⟩ := walk_append_eq_ok.mp hfront
  have hreached := h.reached
  rw [w.start_congr habsolute, hmiddle] at hreached
  cases hreached
  exact ⟨(List.cons.inj hname).1, (walk_quiet hquiet hrest).symm⟩

/-- Where a file can be read, its own output goes elsewhere, unless the suffix leads away. A path
without a name to replace would have its output looked for inside a file. -/
theorem output_place_ne {w : World} {p : Path} {place written : Location} {content : ByteArray}
    {suffix : Text} {extension : Option Text} (hplace : w.resolve p = .ok place)
    (hfile : w.tree.get? place = some (.file content))
    (hwritten : w.resolveOutput (Path.outputWith p suffix extension) = .ok written)
    (hsuffix : suffix ≠ []) (hslash : '/' ∉ suffix) (hextension : ∀ e ∈ extension, '/' ∉ e)
    (hkeep : (Path.extension? p).isSome → extension.isSome) : place ≠ written := by
  have hending := Path.slash_free_ending hextension
  obtain ⟨folder, other, here, hnames, rfl, _⟩ := names_of_resolveOutput hwritten
  obtain ⟨_, hwalk⟩ := resolve_eq_ok.mp hplace
  obtain ⟨front, name, hsplit⟩ : ∃ front name, Text.split '/' p = front ++ [name] :=
    ⟨_, _, (List.dropLast_append_getLast (Text.split_ne_nil '/' p)).symm⟩
  rw [hsplit, walk_append_eq_ok] at hwalk
  obtain ⟨above, hfront, henter⟩ := hwalk
  rw [walk_singleton_eq_ok] at henter
  cases henter with
  | stay hdir _ =>
    rw [hdir] at hfile
    cases hfile
  | up _ hup =>
    subst hup
    have hnone : Path.fileName? p = none := Path.fileName?_eq hsplit (by decide)
    rw [Path.outputWith_of_no_name hnone] at hnames
    have hfree : '/' ∉ suffix ++ Path.ending extension := by simp [hslash, hending]
    have hfolder : Path.folder p = Text.split '/' p := Path.folder_of_split rfl (by simp [hsplit])
    have hnonempty : p ≠ [] := by
      rintro rfl
      cases hplace
    obtain ⟨rfl, -⟩ := List.append_inj' (hnames.segments.symm.trans (Path.split_push p hfree)) rfl
    have hreached := hnames.reached
    rw [w.start_congr (Path.isAbsolute_push hnonempty hfree), hfolder,
      (resolve_eq_ok.mp hplace).2] at hreached
    cases hreached
    rw [hnames.enters.directory] at hfile
    cases hfile
  | down hdir hspeaks hdown _ =>
    have hname : Path.fileName? p = some name := by
      rw [Path.fileName?_eq hsplit hspeaks, if_neg hdown]
    rw [Path.extension?_of_name hname] at hkeep
    have hfree : '/' ∉ (Path.splitAtDot name).1 := by
      apply Path.slash_free_stem
      exact Text.sep_not_mem_of_mem_split (show name ∈ Text.split '/' p by simp [hsplit])
    have hother : '/' ∉ (Path.splitAtDot name).1 ++ suffix ++ Path.ending extension := by
      simp [hfree, hslash, hending]
    rw [Path.outputWith_of_name hname] at hnames
    obtain ⟨rfl, rfl⟩ := hnames.of_withFileName hother hsplit hspeaks hdown hfront
    intro heq
    have hsame := List.append_inj_right' heq rfl
    exact Path.output_name_ne hsuffix hkeep (List.cons.inj hsame).1.symm

end World

theorem EmitFormat.slash_free_extension {form : EmitFormat} {e : Text}
    (h : form.extension? = some e) : '/' ∉ e := by
  cases form <;> cases h <;> decide

theorem Settings.suffix_ne_nil {w : World} {layers : List Layer} {settings : Settings}
    (h : Settings.resolve w layers = .ok settings) : settings.suffix ≠ [] := by
  obtain ⟨root, _, hroot⟩ := bind_eq_ok.mp h
  obtain ⟨aware, _, hsuffix⟩ := bind_eq_ok.mp hroot
  obtain ⟨suffix, _, hchecked⟩ := bind_eq_ok.mp hsuffix
  split_ifs at hchecked with hempty
  cases hchecked
  exact hempty

theorem slash_free_output_extension (form : EmitFormat) (input : Path) :
    ∀ e ∈ form.extension?.or (Path.extension? input), '/' ∉ e := by
  intro e he
  rcases Option.or_eq_some_iff.mp he with hform | ⟨_, hinput⟩
  · exact EmitFormat.slash_free_extension hform
  · exact Path.slash_free_extension hinput

open CommandLine in
/-- Output beside the input leaves the input as it was, provided that the suffix has no slash. -/
theorem output_beside_input_keeps_input {w : World} {input : Path} {options : Options}
    {arguments : List Text}
    (hparse : Arguments.parse arguments = .ok (Way.besideInput.invocation options input))
    (hslash : ∀ settings,
      Settings.resolve w (layers (Way.besideInput.invocation options input)) = .ok settings →
        '/' ∉ settings.suffix)
    (v : Verbosity) : (run w v arguments).world.read input = w.read input := by
  cases Way.ends (w := w) hparse v with
  | failed _ hworld _ => rw [hworld]
  | @finished settings form source hsettings _ hload _ _ hworld =>
    rw [Way.outputPath?_eq] at hworld
    have hwrite : w.writeText
        (Path.outputWith input settings.suffix (form.extension?.or (Path.extension? input)))
        (render form settings.stringAware source) = .ok (run w v arguments).world := hworld
    have hread := World.readText_eq_ok.mp (loadFile_eq_ok.mp hload)
    obtain ⟨place, hplace, hfile⟩ := World.read_eq_ok.mp hread
    obtain ⟨written, hwritten, -⟩ := World.writeText_eq_ok.mp hwrite
    have hne : place ≠ written := by
      apply World.output_place_ne hplace hfile hwritten (Settings.suffix_ne_nil hsettings)
        (hslash settings hsettings) (slash_free_output_extension form input)
      intro hsome
      simp [hsome]
    rw [hread, World.read_writeText_of_ne hwrite hwritten hplace hfile hne]

open CommandLine in
theorem output_beside_input_keeps_script :
    (run scriptWorld .silent ["-d".toList, "a.sqf".toList]).exitCode = 0 ∧
      (run scriptWorld .silent ["-d".toList, "a.sqf".toList]).world.read "a.sqf".toList =
        scriptWorld.read "a.sqf".toList := by
  have hparse : Arguments.parse ["-d".toList, "a.sqf".toList] =
      .ok (Way.besideInput.invocation ⟨none, none, false⟩ "a.sqf".toList) := by decide
  have hresolve : Settings.resolve scriptWorld [.project ['.']] =
      .ok ⟨false, ".small".toList⟩ := by decide +kernel
  refine ⟨by decide +kernel, output_beside_input_keeps_input hparse ?_ .silent⟩
  intro settings hsettings
  cases hresolve.symm.trans hsettings
  decide

/-- A project file whose suffix leads out of a directory and back to the input. -/
def returningWorld : World :=
  ⟨⟨[(["init.sqf".toList], .file "a;  // b\n".toUTF8), (["init".toList], .directory),
    (["sqfmin.toml".toList], .file "[output]\nsuffix = \"/../init\"\n".toUTF8)]⟩, []⟩

open CommandLine in
/-- A suffix with a slash can name the input as its own output. -/
theorem suffix_returns_to_input :
    returningWorld.readText "init.sqf".toList = .ok "a;  // b\n".toList ∧
      (run returningWorld .silent ["-d".toList, "init.sqf".toList]).exitCode = 0 ∧
      (run returningWorld .silent ["-d".toList, "init.sqf".toList]).world.readText
        "init.sqf".toList = .ok "a;".toList := by
  decide +kernel

end SqfMinifier
