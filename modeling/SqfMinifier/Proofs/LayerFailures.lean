import SqfMinifier.Settings.Layers
import Mathlib.Data.List.Basic

/-!
Which layers fail, and what overrides cannot change. Merging is one pass over the files of the
layers, so the first file that fails decides the error before any override counts. Of the overrides
only the last of each kind is read, wherever it stands among the files.
-/

namespace SqfMinifier

namespace Layer

inductive Fails (w : World) (layer : Layer) : SettingsError → Prop where
  | missing {path : Path} (hfile : layer.file? = some (path, true))
      (hfind : Settings.findFile w path = none) : Fails w layer (.fileNotFound path)
  | unreadable {path found : Path} {e : OsError} (hfile : layer.file? = some (path, true))
      (hfind : Settings.findFile w path = some found) (hread : w.readText found = .error e) :
      Fails w layer .invalidUtf8
  | malformed {path found : Path} {required : Bool} {content : Text}
      (hfile : layer.file? = some (path, required)) (hfind : Settings.findFile w path = some found)
      (hread : w.readText found = .ok content) (hdocument : Toml.document? content = none) :
      Fails w layer (.malformed (Settings.originOf w found))
  | notTable {path found : Path} {required : Bool} {content : Text} {value : Toml.Value}
      (hfile : layer.file? = some (path, required)) (hfind : Settings.findFile w path = some found)
      (hread : w.readText found = .ok content) (hdocument : Toml.document? content = some value)
      (hvalue : ∀ style entries, value ≠ .table style entries) :
      Fails w layer (.notTable (Setting.ofToml none value).found (Settings.originOf w found))

def entries (w : World) (layer : Layer) : Except SettingsError (List (Text × Setting)) :=
  match layer.file? with
  | none => .ok []
  | some file => Settings.loadFile w file.1 file.2

theorem entries_of_override {w : World} {layer : Layer} (h : layer.file? = none) :
    layer.entries w = .ok [] := by
  rw [entries, h]

theorem entries_of_file {w : World} {layer : Layer} {path : Path} {required : Bool}
    (h : layer.file? = some (path, required)) :
    layer.entries w = Settings.loadFile w path required := by
  rw [entries, h]

def content? (w : World) (layer : Layer) : Option Text := do
  let file ← layer.file?
  let found ← Settings.findFile w file.1
  (w.readText found).toOption

theorem entries_of_absent {w : World} {layer : Layer} {path : Path}
    (hfile : layer.file? = some (path, false)) (h : layer.content? w = none) :
    layer.entries w = .ok [] := by
  rw [entries_of_file hfile, Settings.loadFile]
  cases hfind : Settings.findFile w path with
  | none => simp
  | some found =>
    cases hread : w.readText found with
    | error e => simp [hread]
    | ok content => simp [content?, hfile, hfind, hread, Except.toOption] at h

end Layer

theorem Setting.ofToml_ne_table {value : Toml.Value}
    (h : ∀ style entries, value ≠ .table style entries) (origin : Option Path) :
    (∀ source entries, ofToml origin value ≠ .table source entries) ∧
      (ofToml origin value).found = (ofToml none value).found := by
  cases value with
  | table style entries => exact absurd rfl (h style entries)
  | _ => exact ⟨by simp [ofToml], rfl⟩

theorem Settings.loadFile_eq_error {w : World} {path : Path} {required : Bool} {e : SettingsError}
    (h : loadFile w path required = .error e) {layer : Layer}
    (hfile : layer.file? = some (path, required)) : layer.Fails w e := by
  unfold loadFile at h
  split at h
  · rename_i hfind
    cases required with
    | false => cases h
    | true =>
      cases h
      exact .missing hfile hfind
  · rename_i found hfind
    split at h
    · rename_i hread
      cases required with
      | false => cases h
      | true =>
        cases h
        exact .unreadable hfile hfind hread
    · rename_i content hread
      split at h
      · rename_i hdocument
        cases h
        exact .malformed hfile hfind hread hdocument
      · rename_i value hdocument
        have hvalue : ∀ style entries, value ≠ .table style entries := by
          rintro style entries rfl
          cases h
        obtain ⟨hother, hfound⟩ := Setting.ofToml_ne_table hvalue (some (originOf w found))
        split at h
        · rename_i htable
          exact absurd htable (hother _ _)
        · cases h
          rw [hfound]
          exact .notTable hfile hfind hread hdocument hvalue

theorem Layer.entries_eq_error_iff {w : World} {layer : Layer} {e : SettingsError} :
    layer.entries w = .error e ↔ layer.Fails w e := by
  constructor
  · intro h
    cases hfile : layer.file? with
    | none =>
      rw [entries_of_override hfile] at h
      cases h
    | some file =>
      rw [entries_of_file hfile] at h
      exact Settings.loadFile_eq_error h hfile
  · intro h
    cases h with
    | missing hfile hfind => simp [entries_of_file hfile, Settings.loadFile, hfind]
    | unreadable hfile hfind hread => simp [entries_of_file hfile, Settings.loadFile, hfind, hread]
    | malformed hfile hfind hread hdocument =>
      simp [entries_of_file hfile, Settings.loadFile, hfind, hread, hdocument]
    | notTable hfile hfind hread hdocument hvalue =>
      obtain ⟨hother, hfound⟩ := Setting.ofToml_ne_table hvalue (some (Settings.originOf w _))
      simp only [entries_of_file hfile, Settings.loadFile, hfind, hread, hdocument]
      split
      · rename_i htable
        exact absurd htable (hother _ _)
      · rw [hfound]

namespace Settings

section Merging

variable (w : World)

theorem mergeFiles_eq_foldlM (layers : List Layer) (root : Setting) :
    mergeFiles w layers root =
      (layers.filterMap Layer.file?).foldlM
        (fun root file => (loadFile w file.1 file.2).map (Setting.mergeFile · root)) root := by
  induction layers generalizing root with
  | nil => rfl
  | cons layer rest ih =>
    cases hfile : layer.file? with
    | none =>
      rw [List.filterMap_cons_none hfile, ← ih, mergeFiles, hfile]
    | some file =>
      obtain ⟨path, required⟩ := file
      rw [List.filterMap_cons_some hfile, List.foldlM_cons, mergeFiles]
      simp only [hfile]
      cases loadFile w path required with
      | error e => rfl
      | ok entries => exact ih _

theorem mergeFiles_append (front back : List Layer) (root : Setting) :
    mergeFiles w (front ++ back) root = mergeFiles w front root >>= mergeFiles w back := by
  have hback : mergeFiles w back = fun root => _ := funext (mergeFiles_eq_foldlM w back)
  rw [hback, mergeFiles_eq_foldlM, mergeFiles_eq_foldlM, List.filterMap_append, List.foldlM_append]

theorem mergeFiles_cons (layer : Layer) (rest : List Layer) (root : Setting) :
    mergeFiles w (layer :: rest) root =
      layer.entries w >>= fun entries => mergeFiles w rest (Setting.mergeFile entries root) := by
  rw [mergeFiles, Layer.entries]
  cases layer.file? <;> rfl

variable {w}

theorem mergeFiles_ok {layers : List Layer} (h : ∀ layer ∈ layers, ∀ e, ¬ layer.Fails w e)
    (root : Setting) : ∃ out, mergeFiles w layers root = .ok out := by
  induction layers generalizing root with
  | nil => exact ⟨root, rfl⟩
  | cons layer rest ih =>
    rw [List.forall_mem_cons] at h
    rw [mergeFiles_cons]
    cases hentries : layer.entries w with
    | error e => exact absurd (Layer.entries_eq_error_iff.mp hentries) (h.1 e)
    | ok entries => exact ih h.2 _

end Merging

end Settings

def Layer.Rivals : Layer → Layer → Prop
  | .stringAware _, .stringAware _ => True
  | .suffix _, .suffix _ => True
  | _, _ => False

theorem Layer.none_of_not_rivals {layer other : Layer} (h : ¬ layer.Rivals other) :
    (layer.stringAware? = none ∨ other.stringAware? = none) ∧
      (layer.suffix? = none ∨ other.suffix? = none) := by
  cases layer <;> cases other <;> simp_all [Rivals, stringAware?, suffix?]

theorem Layer.Rivals.superseded {layer later : Layer} (h : layer.Rivals later) :
    layer.file? = none ∧ (layer.stringAware? = none ∨ later.stringAware?.isSome) ∧
      (layer.suffix? = none ∨ later.suffix?.isSome) := by
  cases layer <;> cases later <;> simp_all [Rivals, file?, stringAware?, suffix?]

section Overrides

variable {α β : Type} {f : α → Option β} {layer : α}

theorem filterMap_move {mid : List α} (h : ∀ other ∈ mid, f layer = none ∨ f other = none)
    (front back : List α) :
    (front ++ layer :: (mid ++ back)).filterMap f =
      (front ++ (mid ++ layer :: back)).filterMap f := by
  cases hlayer : f layer with
  | none => simp [hlayer]
  | some b =>
    have hmid : mid.filterMap f = [] := by
      rw [List.filterMap_eq_nil_iff]
      intro other hm
      simpa [hlayer] using h other hm
    simp [hlayer, hmid]

theorem getLast?_filterMap_drop {later : α} {back : List α} (hlater : later ∈ back)
    (h : f layer = none ∨ (f later).isSome) (front : List α) :
    ((front ++ layer :: back).filterMap f).getLast? =
      ((front ++ back).filterMap f).getLast? := by
  rcases h with hlayer | hsome
  · simp [hlayer]
  · obtain ⟨b, hb⟩ := Option.isSome_iff_exists.mp hsome
    have hne := List.ne_nil_of_mem (List.mem_filterMap.mpr ⟨later, hlater, hb⟩)
    have hlast := List.getLast?_eq_some_getLast hne
    cases hlayer : f layer <;>
      simp only [List.filterMap_append, List.filterMap_cons, hlayer, List.getLast?_append,
        List.getLast?_cons, hlast, Option.getD_some, Option.some_or]

end Overrides

namespace Settings

variable {w : World}

/-- The result is read off the files and the last override of each setting. -/
theorem resolve_congr {layers others : List Layer}
    (hfiles : layers.filterMap Layer.file? = others.filterMap Layer.file?)
    (haware : (layers.filterMap Layer.stringAware?).getLast? =
      (others.filterMap Layer.stringAware?).getLast?)
    (hsuffix : (layers.filterMap Layer.suffix?).getLast? =
      (others.filterMap Layer.suffix?).getLast?) :
    resolve w layers = resolve w others := by
  rw [resolve, resolve, mergeFiles_eq_foldlM, mergeFiles_eq_foldlM, hfiles, haware, hsuffix]

theorem resolve_move {layer : Layer} {mid : List Layer} (hlayer : layer.file? = none)
    (h : ∀ other ∈ mid, ¬ layer.Rivals other) (front back : List Layer) :
    resolve w (front ++ layer :: (mid ++ back)) = resolve w (front ++ (mid ++ layer :: back)) := by
  refine resolve_congr (filterMap_move ?_ _ _) (congrArg _ (filterMap_move ?_ _ _))
    (congrArg _ (filterMap_move ?_ _ _))
  · exact fun _ _ => .inl hlayer
  · exact fun other hm => (Layer.none_of_not_rivals (h other hm)).1
  · exact fun other hm => (Layer.none_of_not_rivals (h other hm)).2

theorem resolve_drop {layer later : Layer} {back : List Layer} (h : layer.Rivals later)
    (hlater : later ∈ back) (front : List Layer) :
    resolve w (front ++ layer :: back) = resolve w (front ++ back) := by
  obtain ⟨hfile, haware, hsuffix⟩ := h.superseded
  refine resolve_congr ?_ (getLast?_filterMap_drop hlater haware _)
    (getLast?_filterMap_drop hlater hsuffix _)
  simp [hfile]

theorem resolve_fails {front : List Layer} {layer : Layer} {e : SettingsError}
    (hfront : ∀ other ∈ front, ∀ e, ¬ other.Fails w e) (hlayer : layer.Fails w e)
    (back : List Layer) : resolve w (front ++ layer :: back) = .error e := by
  obtain ⟨root, hroot⟩ := mergeFiles_ok hfront Settings.default.toSetting
  have hentries := Layer.entries_eq_error_iff.mpr hlayer
  have hmerge : mergeFiles w (front ++ layer :: back) Settings.default.toSetting = .error e := by
    rw [mergeFiles_append, hroot]
    exact (mergeFiles_cons w layer back root).trans (by rw [hentries]; rfl)
  rw [resolve, hmerge]
  rfl

end Settings

/-- What layers resolve to is read off their files in order and the last override of each setting.
An override may stand anywhere among the files and the overrides of the other setting, one that is
superseded may go, and the first layer whose file fails decides the error. -/
theorem overrides_after_files (w : World) :
    (∀ layers others : List Layer,
      layers.filterMap Layer.file? = others.filterMap Layer.file? →
      (layers.filterMap Layer.stringAware?).getLast? =
        (others.filterMap Layer.stringAware?).getLast? →
      (layers.filterMap Layer.suffix?).getLast? = (others.filterMap Layer.suffix?).getLast? →
      Settings.resolve w layers = Settings.resolve w others) ∧
    (∀ (front mid back : List Layer) (layer : Layer), layer.file? = none →
      (∀ other ∈ mid, ¬ layer.Rivals other) →
      Settings.resolve w (front ++ layer :: (mid ++ back)) =
        Settings.resolve w (front ++ (mid ++ layer :: back))) ∧
    (∀ (front back : List Layer) (layer later : Layer), layer.Rivals later → later ∈ back →
      Settings.resolve w (front ++ layer :: back) = Settings.resolve w (front ++ back)) ∧
    ∀ (front back : List Layer) (layer : Layer) (e : SettingsError),
      (∀ other ∈ front, ∀ e, ¬ other.Fails w e) → layer.Fails w e →
      Settings.resolve w (front ++ layer :: back) = .error e := by
  refine ⟨?_, ?_, ?_, ?_⟩
  · intro layers others hfiles haware hsuffix
    exact Settings.resolve_congr hfiles haware hsuffix
  · intro front mid back layer hlayer hmid
    exact Settings.resolve_move hlayer hmid front back
  · intro front back layer later hrivals hlater
    exact Settings.resolve_drop hrivals hlater front
  · intro front back layer e hfront hlayer
    exact Settings.resolve_fails hfront hlayer back

/-- A project file that breaks off within a header. -/
def brokenWorld : World :=
  ⟨⟨[(["sqfmin.toml".toList], .file "[output\n".toUTF8)]⟩, []⟩

open Settings in
theorem overrides_after_files_broken :
    resolve brokenWorld [.project ['.']] =
        resolve brokenWorld [.optional "./sqfmin.toml".toList] ∧
      resolve brokenWorld [.suffix [], .project ['.']] =
        resolve brokenWorld [.project ['.'], .suffix []] ∧
      resolve brokenWorld [.suffix ['a'], .project ['.'], .suffix []] =
        resolve brokenWorld [.project ['.'], .suffix []] ∧
      resolve brokenWorld [.optional "a.toml".toList, .suffix [], .project ['.'],
        .required "a.toml".toList] = .error (.malformed "sqfmin.toml".toList) := by
  obtain ⟨hcongr, hmove, hdrop, hfails⟩ := overrides_after_files brokenWorld
  refine ⟨hcongr _ _ (by decide) rfl rfl, ?_, ?_, ?_⟩
  · exact hmove [] [.project ['.']] [] (.suffix []) rfl (by simp [Layer.Rivals])
  · exact hdrop [] _ (.suffix ['a']) (.suffix []) trivial (by simp)
  · refine hfails [.optional "a.toml".toList, .suffix []] [.required "a.toml".toList]
      (.project ['.']) _ ?_ ?_
    · have habsent : (Layer.optional "a.toml".toList).content? brokenWorld = none := by
        decide +kernel
      have hoptional := Layer.entries_of_absent rfl habsent
      intro other hm e hfails
      rw [← Layer.entries_eq_error_iff] at hfails
      rcases List.mem_cons.mp hm with rfl | hm
      · cases hoptional.symm.trans hfails
      · obtain rfl := List.mem_singleton.mp hm
        cases hfails
    · have hfind : findFile brokenWorld "./sqfmin.toml".toList = some "/./sqfmin.toml".toList := by
        decide +kernel
      have hread : brokenWorld.readText "/./sqfmin.toml".toList = .ok "[output\n".toList := by
        decide +kernel
      exact .malformed rfl hfind hread (by decide +kernel)

end SqfMinifier
