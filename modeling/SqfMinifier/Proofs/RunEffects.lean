import SqfMinifier.CommandLine.Run
import SqfMinifier.Proofs.FileWrites

/-!
What runs leave behind. Minifying a file and emitting any other form of a source are one job: the
source is loaded, rendered, and written if there is a path to write to, and this is the last thing
that happens. So a run that fails has changed nothing, and one that succeeds has changed at most
the file that its output path leads to, which then holds the rendered text.
-/

namespace SqfMinifier

theorem loadFile_eq_ok {w : World} {p : Path} {source : Text} :
    loadFile w p = .ok source ↔ w.readText p = .ok source := by
  unfold loadFile
  split <;> simp_all

/-- What becomes of a world when a text goes to a path, or to none. -/
def World.Receives (w : World) (path? : Option Path) (t : Text) (after : World) : Prop :=
  match path? with
  | none => after = w
  | some path => w.writeText path t = .ok after

inductive JobEnds (w : World) (loaded : Except FileError Text) (rendered : Text → Text)
    (path? : Option Path) : Except FileError Text → World → Prop where
  | unread {e : FileError} (hload : loaded = .error e) :
      JobEnds w loaded rendered path? (.error e) w
  | unwritten {source : Text} {path : Path} {e : OsError} (hload : loaded = .ok source)
      (hpath : path? = some path) (hwrite : w.writeText path (rendered source) = .error e) :
      JobEnds w loaded rendered path? (.error (.io e.message)) w
  | done {source : Text} {after : World} (hload : loaded = .ok source)
      (hafter : w.Receives path? (rendered source) after) :
      JobEnds w loaded rendered path? (.ok (rendered source)) after

theorem minifyFile_ends (w : World) (input : Path) (target : Target) (aware : Bool)
    (suffix : Text) :
    JobEnds w (loadFile w input) (minify aware) (target.path? input suffix)
      (minifyFile w input target aware suffix).result
      (minifyFile w input target aware suffix).world := by
  unfold minifyFile
  cases hload : loadFile w input with
  | error e => exact .unread rfl
  | ok source =>
    cases hpath : target.path? input suffix with
    | none => exact .done rfl rfl
    | some path =>
      dsimp only
      cases hwrite : w.writeText path (minify aware source) with
      | error e => exact .unwritten rfl rfl hwrite
      | ok after => exact .done rfl hwrite

namespace CommandLine

def printed? (path? : Option Path) (t : Text) : Option Text := if path?.isNone then some t else none

theorem emit_ends (w : World) (settings : Settings) (format : EmitFormat) (input : Input)
    (target : Target) :
    ∃ result, JobEnds w (load w input) (render format settings.stringAware)
        (outputPath? settings format input target) result
        (emit w settings format input target).world ∧
      (emit w settings format input target).result =
        result.map (printed? (outputPath? settings format input target)) := by
  unfold emit
  cases hload : load w input with
  | error e => exact ⟨_, .unread rfl, rfl⟩
  | ok source =>
    cases hpath : outputPath? settings format input target with
    | none => exact ⟨_, .done rfl rfl, rfl⟩
    | some path =>
      dsimp only
      cases hwrite : w.writeText path (render format settings.stringAware source) with
      | error e => exact ⟨_, .unwritten rfl rfl hwrite, rfl⟩
      | ok after => exact ⟨_, .done rfl hwrite, rfl⟩

/-- Minified text goes where every other form goes. -/
theorem path?_eq_outputPath? (settings : Settings) (input : Path) (target : Target) :
    target.path? input settings.suffix = outputPath? settings .minified (.file input) target := by
  cases target <;> rfl

theorem printed?_outputPath? (settings : Settings) (format : EmitFormat) (input : Path)
    (target : Target) :
    printed? (outputPath? settings format (.file input) target) =
      fun t => if target = .nowhere then some t else none := by
  cases target <;> rfl

/-- Whatever is performed is the same job: a file that is minified goes the way of all forms. -/
theorem perform_ends (w : World) (settings : Settings) (format : EmitFormat) (input : Input)
    (target : Target) :
    ∃ result, JobEnds w (load w input) (render format settings.stringAware)
        (outputPath? settings format input target) result
        (perform w settings format input target).world ∧
      (perform w settings format input target).result =
        result.map (printed? (outputPath? settings format input target)) := by
  unfold perform
  split
  · rename_i path
    have hends := minifyFile_ends w path target settings.stringAware settings.suffix
    rw [path?_eq_outputPath?] at hends
    exact ⟨_, hends, by rw [printed?_outputPath?]⟩
  · exact emit_ends w settings format input target

/-- The possible ends of a run on arguments that were read. A run that fails with everything read
fails in writing. -/
inductive Ends (w : World) (i : Invocation) (input : Input) (target : Target) (o : Outcome) :
    Prop where
  | failed (hexit : o.exitCode = 1) (hworld : o.world = w)
      (hcause : ∀ settings form source, Settings.resolve w (layers i) = .ok settings →
        format i = .ok form → load w input = .ok source →
        outputPath? settings form input target ≠ none)
  | finished {settings : Settings} {form : EmitFormat} {source : Text}
      (hsettings : Settings.resolve w (layers i) = .ok settings) (hformat : format i = .ok form)
      (hload : load w input = .ok source) (hexit : o.exitCode = 0)
      (hstdout : o.stdout = if (outputPath? settings form input target).isNone then
        render form settings.stringAware source ++ ['\n'] else [])
      (hworld : w.Receives (outputPath? settings form input target)
        (render form settings.stringAware source) o.world)

theorem runTask_ends (w : World) (v : Verbosity) (i : Invocation) (input : Input)
    (target : Target) : Ends w i input target (runTask w v i input target) := by
  unfold runTask
  cases hsettings : Settings.resolve w (layers i) with
  | error e => exact .failed rfl rfl (by simp [hsettings])
  | ok settings =>
    dsimp only
    cases hformat : format i with
    | error e => exact .failed rfl rfl (by simp [hformat])
    | ok form =>
      dsimp only
      obtain ⟨result, hjob, hresult⟩ := perform_ends w settings form input target
      rw [hresult]
      generalize (perform w settings form input target).world = after at hjob ⊢
      cases hjob with
      | unread hload => exact .failed rfl rfl (by simp [hload])
      | unwritten hload hpath hwrite =>
        refine .failed rfl rfl ?_
        intro settings' form' source' hs hf _
        cases hsettings.symm.trans hs
        cases hformat.symm.trans hf
        simp [hpath]
      | done hload hafter =>
        rw [Except.map, printed?]
        split_ifs with hpath
        · exact .finished hsettings hformat hload rfl (by rw [if_pos hpath]) hafter
        · exact .finished hsettings hformat hload rfl (by rw [if_neg hpath]) hafter

/-- The path that a run writes to and the text that it writes there, if it comes so far. -/
def product? (w : World) (arguments : List Text) : Option (Path × Text) := do
  let i ← (Arguments.parse arguments).toOption
  let (input, target) ← task? i
  let settings ← (Settings.resolve w (layers i)).toOption
  let form ← (format i).toOption
  let source ← (load w input).toOption
  (outputPath? settings form input target).map (·, render form settings.stringAware source)

/-- A run has a task, or it writes nothing. -/
theorem run_ends (w : World) (v : Verbosity) (arguments : List Text) :
    (∃ i input target, Arguments.parse arguments = .ok i ∧ task? i = some (input, target) ∧
      Ends w i input target (run w v arguments)) ∨
    (product? w arguments = none ∧ (run w v arguments).world = w) := by
  unfold run product?
  cases Arguments.parse arguments with
  | error stop =>
    right
    cases stop <;> exact ⟨rfl, rfl⟩
  | ok i =>
    dsimp only [Except.toOption]
    cases htask : task? i with
    | none => exact .inr ⟨by simp [htask], rfl⟩
    | some task =>
      obtain ⟨input, target⟩ := task
      exact .inl ⟨i, input, target, rfl, htask, runTask_ends w v i input target⟩

end CommandLine

/-- Nothing has changed, or one file has: the one that the output path leads to, and it holds the
text of the output. -/
def World.ChangedBy (before : World) (output? : Option (Path × Text)) (after : World) : Prop :=
  match output? with
  | none => after = before
  | some (path, text) =>
    ∃ place, before.resolveOutput path = .ok place ∧ before.Stores place text after

theorem World.Receives.changed_by {w after : World} {path? : Option Path} {t : Text}
    (h : w.Receives path? t after) : w.ChangedBy (path?.map (·, t)) after := by
  cases path? with
  | none => exact h
  | some path => exact World.stores_of_writeText h

namespace CommandLine

theorem run_world_of_exit_ne_zero {w : World} {v : Verbosity} {arguments : List Text}
    (h : (run w v arguments).exitCode ≠ 0) : (run w v arguments).world = w := by
  rcases run_ends w v arguments with ⟨i, input, target, _, _, hends⟩ | ⟨_, hworld⟩
  · cases hends with
    | failed _ hworld _ => exact hworld
    | finished _ _ _ hexit _ _ => exact absurd hexit h
  · exact hworld

theorem run_changed_by_product {w : World} {v : Verbosity} {arguments : List Text}
    (h : (run w v arguments).exitCode = 0) :
    w.ChangedBy (product? w arguments) (run w v arguments).world := by
  rcases run_ends w v arguments with ⟨i, input, target, hparse, htask, hends⟩ | ⟨hnone, hworld⟩
  · cases hends with
    | failed hexit _ _ => rw [hexit] at h; cases h
    | @finished settings form source hsettings hformat hload _ _ hworld =>
      have hproduct : product? w arguments =
          (outputPath? settings form input target).map
            (·, render form settings.stringAware source) := by
        simp [product?, hparse, htask, hsettings, hformat, hload, Except.toOption]
      rw [hproduct]
      exact hworld.changed_by
  · rw [hnone]
    exact hworld

end CommandLine

/-- A run that fails changes nothing. One that succeeds changes at most the file that its output
path leads to, and that file then holds the rendered text. So does minifying a file into a target,
which gives the minified form of what the input held before, even where the target is the input. -/
theorem failure_changes_nothing (w : World) :
    (∀ v arguments,
      ((CommandLine.run w v arguments).exitCode ≠ 0 →
        (CommandLine.run w v arguments).world = w) ∧
      ((CommandLine.run w v arguments).exitCode = 0 →
        w.ChangedBy (CommandLine.product? w arguments) (CommandLine.run w v arguments).world)) ∧
    ∀ input target aware suffix,
      match (minifyFile w input target aware suffix).result with
      | .error _ => (minifyFile w input target aware suffix).world = w
      | .ok text =>
        ∃ source, w.readText input = .ok source ∧ text = minify aware source ∧
          w.ChangedBy ((target.path? input suffix).map (·, text))
            (minifyFile w input target aware suffix).world := by
  constructor
  · intro v arguments
    exact ⟨CommandLine.run_world_of_exit_ne_zero, CommandLine.run_changed_by_product⟩
  · intro input target aware suffix
    have hends := minifyFile_ends w input target aware suffix
    generalize (minifyFile w input target aware suffix).result = result at hends ⊢
    generalize (minifyFile w input target aware suffix).world = after at hends ⊢
    cases hends with
    | unread _ => rfl
    | unwritten _ _ _ => rfl
    | done hload hafter => exact ⟨_, loadFile_eq_ok.mp hload, rfl, hafter.changed_by⟩

end SqfMinifier
