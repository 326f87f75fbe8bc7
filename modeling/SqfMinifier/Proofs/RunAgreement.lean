import SqfMinifier.Proofs.ArgumentSpelling
import SqfMinifier.Proofs.RunEffects

/-!
All ways of running the command on one file agree. A file can be named as input, to be printed,
written to a given path or written beside the input, and it can be named as inline code. With the
same options the text is the same: where it is printed a line feed follows and no file changes,
and where it is written nothing is printed and the file holds just the text.
-/

namespace SqfMinifier

namespace CommandLine

structure Options where
  config : Option Path
  emit : Option Text
  stringAware : Bool

inductive Way where
  | printing
  | into (output : Path)
  | besideInput
  | asCode

namespace Way

def invocation (options : Options) (p : Path) : Way → Invocation
  | printing => ⟨[p], none, options.config, options.emit, false, options.stringAware⟩
  | into output => ⟨[p, output], none, options.config, options.emit, false, options.stringAware⟩
  | besideInput => ⟨[p], none, options.config, options.emit, true, options.stringAware⟩
  | asCode => ⟨[], some p, options.config, options.emit, false, options.stringAware⟩

def input (p : Path) : Way → Input
  | asCode => .code p
  | _ => .file p

def target : Way → Target
  | printing | asCode => .nowhere
  | into output => .file output
  | besideInput => .besideInput

def output? (settings : Settings) (form : EmitFormat) (p : Path) : Way → Option Path
  | printing | asCode => none
  | into output => some output
  | besideInput =>
    some (Path.outputWith p settings.suffix (form.extension?.or (Path.extension? p)))

theorem task?_invocation (options : Options) (p : Path) (way : Way) :
    task? (way.invocation options p) = some (way.input p, way.target) := by
  cases way <;> rfl

theorem outputPath?_eq (settings : Settings) (form : EmitFormat) (p : Path) (way : Way) :
    outputPath? settings form (way.input p) way.target = way.output? settings form p := by
  cases way <;> rfl

/-- A file that can be read is loaded whether it is named as input or as code. -/
theorem load_input {w : World} {p : Path} {source : Text} (h : w.readText p = .ok source)
    (way : Way) : load w (way.input p) = .ok source := by
  have hload : loadFile w p = .ok source := loadFile_eq_ok.mpr h
  have hfile : w.isFile p = true := by
    rw [World.isFile, World.readText_eq_ok.mp h]
    rfl
  cases way with
  | asCode => exact (if_pos hfile).trans hload
  | printing | into _ | besideInput => exact hload

/-- The text is printed with a line feed behind it, or it is what the output file holds. -/
def Delivers (w : World) (output? : Option Path) (t : Text) (o : Outcome) : Prop :=
  match output? with
  | none => o.stdout = t ++ ['\n'] ∧ o.world = w
  | some path => o.stdout = [] ∧ o.world.readText path = .ok t

theorem sensible {w : World} {options : Options} {p : Path} {way : Way} {source : Text}
    (hp : w.readText p = .ok source) (hconfig : options.config ≠ some []) (hout : way ≠ .into []) :
    Arguments.Sensible (way.invocation options p) := by
  have hnamed : p ≠ [] := by
    rintro rfl
    cases hp
  cases way with
  | printing => exact ⟨by simp [invocation, hnamed.symm], hconfig, .inl rfl⟩
  | besideInput => exact ⟨by simp [invocation, hnamed.symm], hconfig, .inl rfl⟩
  | asCode => exact ⟨by simp [invocation], hconfig, .inr rfl⟩
  | into output =>
    have houtput : output ≠ [] := by
      rintro rfl
      exact hout rfl
    exact ⟨by simp [invocation, hnamed.symm, houtput.symm], hconfig, .inl rfl⟩

section Runs

variable {w : World} {p : Path} {source : Text} {options : Options} {way : Way}
  {arguments : List Text}

theorem ends (hparse : Arguments.parse arguments = .ok (way.invocation options p))
    (v : Verbosity) :
    Ends w (way.invocation options p) (way.input p) way.target (run w v arguments) := by
  rw [run, hparse]
  dsimp only
  rw [task?_invocation]
  exact runTask_ends ..

theorem delivers (hp : w.readText p = .ok source)
    (hparse : Arguments.parse arguments = .ok (way.invocation options p)) {v : Verbosity}
    (hexit : (run w v arguments).exitCode = 0) :
    ∃ settings form, Settings.resolve w (layers (way.invocation options p)) = .ok settings ∧
      format (way.invocation options p) = .ok form ∧
      Delivers w (way.output? settings form p) (render form settings.stringAware source)
        (run w v arguments) := by
  cases ends (w := w) hparse v with
  | failed hfail _ _ => rw [hfail] at hexit; cases hexit
  | @finished settings form loaded hsettings hformat hload _ hstdout hworld =>
    cases hload.symm.trans (load_input hp way)
    rw [outputPath?_eq] at hstdout hworld
    refine ⟨settings, form, hsettings, hformat, ?_⟩
    unfold Delivers
    cases hpath : way.output? settings form p with
    | none =>
      rw [hpath] at hstdout hworld
      exact ⟨hstdout, hworld⟩
    | some path =>
      rw [hpath] at hstdout hworld
      exact ⟨hstdout, World.readText_writeText hworld⟩

theorem exit_of_printing (hp : w.readText p = .ok source)
    (hparse : Arguments.parse arguments = .ok (way.invocation options p)) {v : Verbosity}
    {settings : Settings} {form : EmitFormat}
    (hsettings : Settings.resolve w (layers (way.invocation options p)) = .ok settings)
    (hformat : format (way.invocation options p) = .ok form)
    (hprints : way.output? settings form p = none) : (run w v arguments).exitCode = 0 := by
  cases ends (w := w) hparse v with
  | failed _ _ hcause =>
    rw [← outputPath?_eq] at hprints
    exact absurd hprints (hcause settings form source hsettings hformat (load_input hp way))
  | finished _ _ _ hexit _ _ => exact hexit

end Runs

theorem invocation_options (options : Options) (p : Path) (way : Way) :
    layers (way.invocation options p) = layers (printing.invocation options p) ∧
      format (way.invocation options p) = format (printing.invocation options p) := by
  cases way <;> exact ⟨rfl, rfl⟩

end Way

end CommandLine

open CommandLine in
/-- Runs on one readable file with the same options that succeed produce the same text, which for
the minified form is what minifying the file under its settings gives. Those that print it always
succeed under valid options, and every way of running can be asked for. -/
theorem ways_of_running_agree {w : World} {p : Path} {source : Text}
    (hp : w.readText p = .ok source) (options : Options) :
    (∃ t, ∀ (way : Way) (v : Verbosity) (arguments : List Text),
      Arguments.parse arguments = .ok (way.invocation options p) →
      (run w v arguments).exitCode = 0 →
      ∃ settings form, Settings.resolve w (layers (way.invocation options p)) = .ok settings ∧
        format (way.invocation options p) = .ok form ∧
        (form = .minified → t = minify settings.stringAware source) ∧
        Way.Delivers w (way.output? settings form p) t (run w v arguments)) ∧
    (∀ (way : Way) (v : Verbosity) (arguments : List Text) (settings : Settings)
      (form : EmitFormat), Arguments.parse arguments = .ok (way.invocation options p) →
      Settings.resolve w (layers (way.invocation options p)) = .ok settings →
      format (way.invocation options p) = .ok form →
      way.output? settings form p = none → (run w v arguments).exitCode = 0) ∧
    (options.config ≠ some [] → ∀ way : Way, way ≠ .into [] →
      ∃ arguments, Arguments.parse arguments = .ok (way.invocation options p)) := by
  refine ⟨?_, ?_, ?_⟩
  · by_cases hknown : ∃ settings form,
        Settings.resolve w (layers (Way.printing.invocation options p)) = .ok settings ∧
          format (Way.printing.invocation options p) = .ok form
    · obtain ⟨settings, form, hsettings, hformat⟩ := hknown
      refine ⟨render form settings.stringAware source, ?_⟩
      intro way v arguments hparse hexit
      obtain ⟨settings', form', hsettings', hformat', hdelivers⟩ := Way.delivers hp hparse hexit
      obtain ⟨hlayers, hforms⟩ := Way.invocation_options options p way
      cases (hlayers ▸ hsettings').symm.trans hsettings
      cases (hforms ▸ hformat').symm.trans hformat
      refine ⟨settings, form, hsettings', hformat', ?_, hdelivers⟩
      rintro rfl
      rfl
    · refine ⟨[], ?_⟩
      intro way v arguments hparse hexit
      obtain ⟨settings, form, hsettings, hformat, _⟩ := Way.delivers hp hparse hexit
      obtain ⟨hlayers, hforms⟩ := Way.invocation_options options p way
      exact absurd ⟨settings, form, hlayers ▸ hsettings, hforms ▸ hformat⟩ hknown
  · intro way v arguments settings form hparse hsettings hformat hprints
    exact Way.exit_of_printing hp hparse hsettings hformat hprints
  · intro hconfig way hout
    exact ⟨_, Arguments.parse_spell (Way.sensible hp hconfig hout)⟩

def scriptWorld : World :=
  ⟨⟨[(["a.sqf".toList], .file "x;  // y\n".toUTF8),
    (["sqfmin.toml".toList], .file "[output]\nsuffix = \".small\"\n".toUTF8)]⟩, []⟩

open CommandLine in
theorem ways_of_running_agree_script :
    ∃ t, Way.Delivers scriptWorld none t (run scriptWorld .silent ["a.sqf".toList]) ∧
      Way.Delivers scriptWorld (some "b".toList) t
        (run scriptWorld .silent ["a.sqf".toList, "b".toList]) ∧
      Way.Delivers scriptWorld (some "a.small.sqf".toList) t
        (run scriptWorld .silent ["-d".toList, "a.sqf".toList]) ∧
      Way.Delivers scriptWorld none t
        (run scriptWorld .silent ["--code".toList, "a.sqf".toList]) := by
  have hp : scriptWorld.readText "a.sqf".toList = .ok "x;  // y\n".toList := by decide +kernel
  obtain ⟨⟨t, h⟩, _⟩ := ways_of_running_agree hp ⟨none, none, false⟩
  obtain ⟨_, _, _, _, _, hprinting⟩ :=
    h .printing .silent ["a.sqf".toList] (by decide) (by decide +kernel)
  obtain ⟨_, _, _, _, _, hinto⟩ :=
    h (.into "b".toList) .silent ["a.sqf".toList, "b".toList] (by decide) (by decide +kernel)
  obtain ⟨settings, form, hsettings, hformat, _, hbeside⟩ :=
    h .besideInput .silent ["-d".toList, "a.sqf".toList] (by decide) (by decide +kernel)
  obtain ⟨_, _, _, _, _, hcode⟩ :=
    h .asCode .silent ["--code".toList, "a.sqf".toList] (by decide) (by decide +kernel)
  have hresolve : Settings.resolve scriptWorld [.project ['.']] =
      .ok ⟨false, ".small".toList⟩ := by decide +kernel
  cases hresolve.symm.trans hsettings
  cases hformat
  exact ⟨t, hprinting, hinto, hbeside, hcode⟩

end SqfMinifier
