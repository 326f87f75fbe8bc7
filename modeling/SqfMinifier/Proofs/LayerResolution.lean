import SqfMinifier.Proofs.LayerFailures
import SqfMinifier.Proofs.SettingsMerge

/-!
What layers resolve to. Each of the two settings is the argument of its last override, else what
the last file gives that gives it, else the built-in default, and neither depends on the other.
This holds as long as the files are tables with plain keys and the two fields, where a file gives
them, have their own types. Files that are not there, or cannot be read, count for nothing unless
they are required.
-/

namespace SqfMinifier

namespace Toml.Value

def boolean? : Value → Option Bool
  | boolean b => some b
  | _ => none

def text? : Value → Option Text
  | string t => some t
  | _ => none

def entries? : Value → Option Table
  | table _ entries => some entries
  | _ => none

theorem entries?_eq_some {value : Value} {entries : Table} :
    value.entries? = some entries ↔ ∃ style, value = .table style entries := by
  constructor
  · intro h
    cases value <;> cases h
    exact ⟨_, rfl⟩
  · rintro ⟨style, rfl⟩
    rfl

end Toml.Value

/-- A setting: where a file gives it and of what type, what overrides it, and its default. -/
structure Field (α : Type) where
  sec : Setting.Section
  typed : Toml.Value → Option α
  wrap : α → Scalar
  override? : Layer → Option α
  initial : α
  typed_wrap : ∀ {v a}, typed v = some a →
    ∀ origin, Setting.ofToml origin v = .scalar origin (wrap a)
  lower_key : Text.lower sec.key.toList = sec.key.toList
  lower_field : Text.lower sec.field.toList = sec.field.toList

namespace Field

def stringAware : Field Bool where
  sec := Settings.stripSection
  typed := Toml.Value.boolean?
  wrap := .boolean
  override? := Layer.stringAware?
  initial := false
  typed_wrap := by
    intro v a h origin
    cases v <;> cases h
    rfl
  lower_key := by decide
  lower_field := by decide

def suffix : Field Text where
  sec := Settings.outputSection
  typed := Toml.Value.text?
  wrap := .text
  override? := Layer.suffix?
  initial := "-min".toList
  typed_wrap := by
    intro v a h origin
    cases v <;> cases h
    rfl
  lower_key := by decide
  lower_field := by decide

variable {α : Type} (f : Field α)

def key : Text := f.sec.key.toList

def name : Text := f.sec.field.toList

def given? (entries : Toml.Table) : Option α := do
  let value ← entries.lookup f.key
  let inner ← value.entries?
  f.typed (← inner.lookup f.name)

/-- Where a file has the section it is a table in small letters, and where that has the field it is
of the right type. -/
def Fits (entries : Toml.Table) : Prop :=
  ∀ value ∈ entries.lookup f.key, ∃ inner ∈ value.entries?,
    (∀ entry ∈ inner, Text.lower entry.1 = entry.1) ∧
      ∀ v ∈ inner.lookup f.name, (f.typed v).isSome

instance (entries : Toml.Table) : Decidable (f.Fits entries) :=
  inferInstanceAs (Decidable (∀ value ∈ entries.lookup f.key, ∃ inner ∈ value.entries?,
    (∀ entry ∈ inner, Text.lower entry.1 = entry.1) ∧
      ∀ v ∈ inner.lookup f.name, (f.typed v).isSome))

def Holds (root : Setting) (a : α) : Prop :=
  ∃ origin entries source, root.get? f.key = some (.table origin entries) ∧
    entries.lookup f.name = some (.scalar source (f.wrap a))

variable {f} {root : Setting} {a : α}

theorem lookup_mergedSection {inner : Toml.Table} (hkeyed : Toml.Table.Keyed inner)
    (hlower : ∀ entry ∈ inner, Text.lower entry.1 = entry.1)
    (htyped : ∀ v ∈ inner.lookup f.name, (f.typed v).isSome) {source : Option Path}
    {old : List (Text × Setting)} (hfield : old.lookup f.name = some (.scalar source (f.wrap a)))
    (origin target : Option Path) :
    ∃ new source, Setting.mergeAll (Setting.ofEntries origin inner) (.table target old) =
        .table target new ∧
      new.lookup f.name =
        some (.scalar source (f.wrap (((inner.lookup f.name).bind f.typed).getD a))) := by
  obtain ⟨new, hnew⟩ := Setting.mergeAll_table (Setting.ofEntries origin inner) target old
  have hkeys : ((Setting.ofEntries origin inner).map Prod.fst).Nodup := by
    rw [Setting.keys_ofEntries]
    exact hkeyed.keys
  have hentry := Setting.get?_mergeAll hkeys (Setting.lower_ofEntries hlower) (.table target old)
    f.name
  rw [hnew, Setting.lookup_ofEntries] at hentry
  cases hinner : inner.lookup f.name with
  | none =>
    simp only [hinner, Option.map_none] at hentry
    exact ⟨new, source, hnew, hentry.trans hfield⟩
  | some v =>
    obtain ⟨b, hb⟩ := Option.isSome_iff_exists.mp (htyped v hinner)
    simp only [hinner, Option.map_some, f.typed_wrap hb] at hentry
    rw [Option.bind_some, hb]
    exact ⟨new, origin, hnew, hentry⟩

/-- A file changes the field just when it gives it. -/
theorem Holds.mergeFile {entries : Toml.Table} (hkeyed : Toml.Table.Keyed entries)
    (hplain : ∀ entry ∈ entries, KeyPath.Plain entry.1) (hfits : f.Fits entries)
    (h : f.Holds root a) (origin : Option Path) :
    f.Holds (Setting.mergeFile (Setting.ofEntries origin entries) root)
      ((f.given? entries).getD a) := by
  obtain ⟨rootOrigin, old, source, hsection, hfield⟩ := h
  have hkeys : ((Setting.ofEntries origin entries).map Prod.fst).Nodup := by
    rw [Setting.keys_ofEntries]
    exact hkeyed.keys
  have hplainEntries : ∀ entry ∈ Setting.ofEntries origin entries, KeyPath.Plain entry.1 := by
    rw [← List.forall_mem_map (f := Prod.fst) (P := KeyPath.Plain)] at hplain ⊢
    rwa [Setting.keys_ofEntries]
  have hmerged := Setting.get?_mergeAll hkeys (fun entry hm => (hplainEntries entry hm).lower)
    root f.key
  rw [← Setting.mergeFile_eq_mergeAll hplainEntries, Setting.lookup_ofEntries, hsection] at hmerged
  cases hvalue : entries.lookup f.key with
  | none =>
    simp only [hvalue, Option.map_none] at hmerged
    have hgiven : f.given? entries = none := by simp [given?, hvalue]
    rw [hgiven]
    exact ⟨rootOrigin, old, source, hmerged, hfield⟩
  | some value =>
    obtain ⟨inner, htable, hlower, htyped⟩ := hfits value hvalue
    obtain ⟨style, rfl⟩ := Toml.Value.entries?_eq_some.mp htable
    obtain ⟨new, newSource, hnew, hnewField⟩ :=
      lookup_mergedSection (Toml.Table.keyed_of_table (hkeyed.lookup hvalue)) hlower htyped hfield
        origin rootOrigin
    have hgiven : f.given? entries = (inner.lookup f.name).bind f.typed := by
      simp [given?, hvalue, Toml.Value.entries?]
    rw [hgiven]
    refine ⟨rootOrigin, new, newSource, ?_, hnewField⟩
    simpa only [hvalue, Option.map_some, Setting.ofToml, Setting.merged, Option.getD_some, hnew]
      using hmerged

theorem Holds.override (h : f.Holds root a) (value : Option α) :
    f.Holds (Settings.override f.sec (value.map f.wrap) root) (value.getD a) := by
  cases value with
  | none => exact h
  | some b =>
    obtain ⟨origin, entries, source, hsection, hfield⟩ := h
    have hput : Settings.override f.sec (some (f.wrap b)) root =
        root.put f.key
          (Setting.merge f.name (.scalar none (f.wrap b)) (.table origin entries)) := by
      rw [Settings.override, Setting.mergeAt]
      · simp only [f.lower_key]
        rw [show root.get? f.sec.key.toList = _ from hsection]
        rfl
      · simp
    have hmerge : Setting.merge f.name (.scalar none (f.wrap b)) (.table origin entries) =
        .table origin (Setting.putEntry f.name (.scalar none (f.wrap b)) entries) := by
      rw [Setting.merge_eq_put, name, f.lower_field]
      rfl
    refine ⟨origin, Setting.putEntry f.name (.scalar none (f.wrap b)) entries, none, ?_, ?_⟩
    · rw [Option.map_some, hput, hmerge, Setting.get?_put, if_pos rfl]
    · rw [Setting.lookup_putEntry, if_pos rfl]
      rfl

theorem Holds.override_other {β : Type} {g : Field β} (hne : f.key ≠ g.key) (h : f.Holds root a)
    (value : Option Scalar) : f.Holds (Settings.override g.sec value root) a := by
  cases value with
  | none => exact h
  | some value =>
    obtain ⟨origin, entries, source, hsection, hfield⟩ := h
    refine ⟨origin, entries, source, ?_, hfield⟩
    rw [Settings.override, Setting.mergeAt]
    · simp only [g.lower_key]
      rw [Setting.get?_put, if_neg (show f.key ≠ g.sec.key.toList from hne), hsection]
    · simp

theorem Holds.read (h : f.Holds root a) {decode : String → Setting → Except SettingsError α}
    (hdecode : ∀ name source, decode name (.scalar source (f.wrap a)) = .ok a) :
    f.sec.read decode root = .ok a := by
  obtain ⟨origin, entries, source, hsection, hfield⟩ := h
  rw [Setting.Section.read, show root.get? f.sec.key.toList = _ from hsection]
  simp only [Setting.get?]
  rw [show entries.lookup f.sec.field.toList = _ from hfield]
  exact hdecode _ _

end Field

section Layers

structure Toml.Table.Plain (entries : Toml.Table) : Prop where
  keys : ∀ entry ∈ entries, KeyPath.Plain entry.1
  stringAware : Field.stringAware.Fits entries
  suffix : Field.suffix.Fits entries

instance (entries : Toml.Table) : Decidable entries.Plain :=
  decidable_of_iff ((∀ entry ∈ entries, KeyPath.Plain entry.1) ∧ Field.stringAware.Fits entries ∧
      Field.suffix.Fits entries)
    ⟨fun h => ⟨h.1, h.2.1, h.2.2⟩, fun h => ⟨h.keys, h.stringAware, h.suffix⟩⟩

variable {w : World}

namespace Layer

def table? (w : World) (layer : Layer) : Option Toml.Table := do
  let content ← layer.content? w
  (← Toml.document? content).entries?

/-- The file of a layer is there if it has to be, and if it is there it holds plain settings. -/
structure Sound (w : World) (layer : Layer) : Prop where
  present : ∀ file ∈ layer.file?, file.2 = true → (layer.content? w).isSome
  plain : (layer.content? w).isSome → ∃ table ∈ layer.table? w, Toml.Table.Plain table

instance (layer : Layer) : Decidable (layer.Sound w) :=
  decidable_of_iff ((∀ file ∈ layer.file?, file.2 = true → (layer.content? w).isSome) ∧
      ((layer.content? w).isSome → ∃ table ∈ layer.table? w, Toml.Table.Plain table))
    ⟨fun h => ⟨h.1, h.2⟩, fun h => ⟨h.present, h.plain⟩⟩

theorem entries_of_table {layer : Layer} {table : Toml.Table} (h : layer.table? w = some table) :
    Toml.Table.Keyed table ∧
      ∃ origin, layer.entries w = .ok (Setting.ofEntries (some origin) table) := by
  obtain ⟨content, hcontent, h⟩ := Option.bind_eq_some_iff.mp h
  obtain ⟨value, hdocument, h⟩ := Option.bind_eq_some_iff.mp h
  obtain ⟨style, rfl⟩ := Toml.Value.entries?_eq_some.mp h
  obtain ⟨⟨path, required⟩, hfile, hcontent⟩ := Option.bind_eq_some_iff.mp hcontent
  obtain ⟨found, hfind, hcontent⟩ := Option.bind_eq_some_iff.mp hcontent
  have hread : w.readText found = .ok content := by
    cases hread : w.readText found with
    | error e => simp [hread, Except.toOption] at hcontent
    | ok t => simpa [hread, Except.toOption] using hcontent
  refine ⟨Toml.Table.keyed_of_table (Toml.document?_keyed hdocument), Settings.originOf w found, ?_⟩
  dsimp only at hfind
  simp [entries_of_file hfile, Settings.loadFile, hfind, hread, hdocument, Setting.ofToml]

/-- A sound layer merges the table of its file, or nothing. -/
theorem Sound.entries {layer : Layer} (h : layer.Sound w) :
    (layer.table? w = none ∧ layer.entries w = .ok []) ∨
      ∃ table origin, layer.table? w = some table ∧ Toml.Table.Keyed table ∧
        Toml.Table.Plain table ∧ layer.entries w = .ok (Setting.ofEntries origin table) := by
  cases hcontent : layer.content? w with
  | none =>
    refine .inl ⟨by simp [table?, hcontent], ?_⟩
    cases hfile : layer.file? with
    | none => exact entries_of_override hfile
    | some file =>
      obtain ⟨path, required⟩ := file
      cases required with
      | false => exact entries_of_absent hfile hcontent
      | true => simpa [hcontent] using h.present _ hfile rfl
  | some content =>
    obtain ⟨table, htable, hplain⟩ := h.plain (by rw [hcontent]; rfl)
    obtain ⟨hkeyed, origin, hentries⟩ := entries_of_table htable
    exact .inr ⟨table, some origin, htable, hkeyed, hplain, hentries⟩

end Layer

def Field.given {α : Type} (f : Field α) (w : World) (layer : Layer) : Option α :=
  (layer.table? w).bind f.given?

structure Setting.Holds (root : Setting) (aware : Bool) (suffix : Text) : Prop where
  stringAware : Field.stringAware.Holds root aware
  suffix : Field.suffix.Holds root suffix

theorem Settings.default_holds :
    default.toSetting.Holds Field.stringAware.initial Field.suffix.initial :=
  ⟨⟨none, _, none, rfl, rfl⟩, ⟨none, _, none, rfl, rfl⟩⟩

variable {root : Setting} {aware : Bool} {suffix : Text}

/-- One sound layer changes the fields that its file gives. -/
theorem Setting.Holds.mergeLayer {layer : Layer} (h : layer.Sound w)
    (hroot : root.Holds aware suffix) :
    ∃ entries, layer.entries w = .ok entries ∧ (mergeFile entries root).Holds
      ((Field.stringAware.given w layer).getD aware)
      ((Field.suffix.given w layer).getD suffix) := by
  rcases h.entries with ⟨htable, hentries⟩ | ⟨table, origin, htable, hkeyed, hplain, hentries⟩
  · refine ⟨[], hentries, ?_⟩
    simp only [Field.given, htable, Option.bind_none, Option.getD_none]
    exact hroot
  · refine ⟨_, hentries, ?_⟩
    simp only [Field.given, htable, Option.bind_some]
    exact ⟨hroot.stringAware.mergeFile hkeyed hplain.keys hplain.stringAware origin,
      hroot.suffix.mergeFile hkeyed hplain.keys hplain.suffix origin⟩

theorem getLast?_filterMap_cons {α β : Type} (f : α → Option β) (x : α) (xs : List α) (b : β) :
    ((x :: xs).filterMap f).getLast?.getD b = (xs.filterMap f).getLast?.getD ((f x).getD b) := by
  cases hx : f x with
  | none => rw [List.filterMap_cons_none hx, Option.getD_none]
  | some y =>
    rw [List.filterMap_cons_some hx, List.getLast?_cons, Option.getD_some, Option.getD_some]

theorem Setting.Holds.mergeFiles {layers : List Layer} (h : ∀ layer ∈ layers, layer.Sound w)
    (hroot : root.Holds aware suffix) :
    ∃ out, Settings.mergeFiles w layers root = .ok out ∧
      out.Holds ((layers.filterMap (Field.stringAware.given w)).getLast?.getD aware)
        ((layers.filterMap (Field.suffix.given w)).getLast?.getD suffix) := by
  induction layers generalizing root aware suffix with
  | nil => exact ⟨root, rfl, hroot⟩
  | cons layer rest ih =>
    rw [List.forall_mem_cons] at h
    obtain ⟨entries, hentries, hnext⟩ := hroot.mergeLayer h.1
    obtain ⟨out, hout, hholds⟩ := ih h.2 hnext
    rw [getLast?_filterMap_cons, getLast?_filterMap_cons]
    refine ⟨out, ?_, hholds⟩
    rw [Settings.mergeFiles_cons, hentries]
    exact hout

theorem Setting.Holds.override (h : root.Holds aware suffix) (aware' : Option Bool)
    (suffix' : Option Text) :
    (Settings.override Settings.outputSection (suffix'.map .text)
      (Settings.override Settings.stripSection (aware'.map .boolean) root)).Holds
      (aware'.getD aware) (suffix'.getD suffix) := by
  have hne : Field.stringAware.key ≠ Field.suffix.key := by decide
  constructor
  · exact Field.Holds.override_other hne (h.stringAware.override aware') (suffix'.map .text)
  · exact Field.Holds.override (Field.Holds.override_other hne.symm h.suffix _) suffix'

theorem Settings.ofSetting_holds (h : root.Holds aware suffix) :
    ofSetting root = if suffix = [] then .error .emptySuffix else .ok ⟨aware, suffix⟩ := by
  have haware : stripSection.read Setting.switch? root = .ok aware :=
    h.stringAware.read fun _ _ => rfl
  have hsuffix : outputSection.read Setting.text? root = .ok suffix :=
    h.suffix.read fun _ _ => rfl
  rw [ofSetting, haware, hsuffix]
  rfl

/-- The argument of the last override of a field, else what the last file that gives it gives, else
its default. -/
def Field.resolved {α : Type} (f : Field α) (w : World) (layers : List Layer) : α :=
  (layers.filterMap f.override?).getLast?.getD
    ((layers.filterMap (f.given w)).getLast?.getD f.initial)

theorem Settings.resolve_of_sound {layers : List Layer} (h : ∀ layer ∈ layers, layer.Sound w) :
    resolve w layers =
      if Field.suffix.resolved w layers = [] then .error .emptySuffix
      else .ok ⟨Field.stringAware.resolved w layers, Field.suffix.resolved w layers⟩ := by
  obtain ⟨merged, hmerged, hholds⟩ := default_holds.mergeFiles h
  rw [resolve, hmerged]
  exact ofSetting_holds (hholds.override _ _)

theorem Settings.resolve_without_absent {layer : Layer} {path : Path}
    (hfile : layer.file? = some (path, false)) (h : layer.content? w = none)
    (front back : List Layer) :
    resolve w (front ++ layer :: back) = resolve w (front ++ back) := by
  have hmerge : mergeFiles w (front ++ layer :: back) = mergeFiles w (front ++ back) := by
    funext root
    simp only [mergeFiles_append]
    congr 1
    funext root
    rw [mergeFiles_cons, Layer.entries_of_absent hfile h]
    rfl
  have hnone : layer.stringAware? = none ∧ layer.suffix? = none := by
    cases layer <;> cases hfile <;> exact ⟨rfl, rfl⟩
  rw [resolve, resolve, hmerge]
  simp only [List.filterMap_append, List.filterMap_cons_none hnone.1,
    List.filterMap_cons_none hnone.2]

end Layers

/-- Layers whose files are sound resolve, setting by setting, to the last override, else to what
the last file that gives the setting gives, else to the default; only an empty suffix is refused.
A file that is not required and is missing or unreadable counts for nothing. -/
theorem resolve_last_given (w : World) :
    (∀ layers : List Layer, (∀ layer ∈ layers, layer.Sound w) →
      (Settings.resolve w layers).mapError SettingsError.message =
        if Field.suffix.resolved w layers = [] then .error "output.suffix must not be empty"
        else .ok ⟨Field.stringAware.resolved w layers, Field.suffix.resolved w layers⟩) ∧
    ∀ (front back : List Layer) (layer : Layer) (path : Path),
      layer.file? = some (path, false) → layer.content? w = none →
      Settings.resolve w (front ++ layer :: back) = Settings.resolve w (front ++ back) := by
  constructor
  · intro layers hsound
    rw [Settings.resolve_of_sound hsound]
    split_ifs <;> rfl
  · intro front back layer path hfile hcontent
    exact Settings.resolve_without_absent hfile hcontent front back

/-- A project file, a file that sets the suffix, and one that is no text. -/
def layeredWorld : World :=
  ⟨⟨[(["sqfmin.toml".toList],
      .file "[strip]\nstring_aware = true\n\n[output]\nsuffix = \".a\"\n".toUTF8),
    (["more.toml".toList], .file "[output]\nsuffix = \".b\"\n".toUTF8),
    (["bytes.toml".toList], .file ⟨#[255]⟩)]⟩, []⟩

open Settings in
theorem resolve_last_given_layered :
    (resolve layeredWorld [.project ['.'], .required "more.toml".toList,
        .optional "bytes.toml".toList, .suffix [], .suffix "-x".toList]).mapError
        SettingsError.message = .ok ⟨true, "-x".toList⟩ ∧
      (resolve layeredWorld [.stringAware false, .project ['.'],
        .required "more.toml".toList]).mapError SettingsError.message =
          .ok ⟨false, ".b".toList⟩ ∧
      resolve layeredWorld [.optional "bytes.toml".toList] = resolve layeredWorld [] := by
  obtain ⟨hresolve, habsent⟩ := resolve_last_given layeredWorld
  refine ⟨?_, ?_, ?_⟩
  · exact (hresolve _ (by decide +kernel)).trans (by decide +kernel)
  · exact (hresolve _ (by decide +kernel)).trans (by decide +kernel)
  · exact habsent [] [] _ "bytes.toml".toList rfl (by decide +kernel)

end SqfMinifier
