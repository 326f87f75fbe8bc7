import SqfMinifier.World
import SqfMinifier.Proofs.Lines

/-!
What writing a file does to a world. The place that the path leads to holds the bytes of the text,
every other place is as it was, and no path that could be followed before leads elsewhere: a
written place is never a directory, and paths are followed through directories only. So the text
is read back under the path that it was written to.
-/

namespace SqfMinifier

theorem bind_eq_ok {ε α β : Type} {x : Except ε α} {f : α → Except ε β} {b : β} :
    x >>= f = .ok b ↔ ∃ a, x = .ok a ∧ f a = .ok b := by
  cases x <;> simp [bind, Except.bind]

theorem fromUTF8?_toUTF8 (s : String) : String.fromUTF8? s.toUTF8 = some s := by
  rw [String.fromUTF8?, String.toUTF8_eq_toByteArray, dif_pos s.isValidUTF8]
  rfl

theorem toUTF8_of_fromUTF8? {b : ByteArray} {s : String} (h : String.fromUTF8? b = some s) :
    s.toUTF8 = b := by
  rw [String.fromUTF8?] at h
  split_ifs at h with hvalid
  cases h
  rfl

namespace FileTree

theorem lookup_filter_ne (entries : List (Location × Node)) {place other : Location}
    (h : other ≠ place) :
    (entries.filter fun entry => entry.1 ≠ place).lookup other = entries.lookup other := by
  induction entries with
  | nil => rfl
  | cons entry entries ih =>
    obtain ⟨key, node⟩ := entry
    by_cases hkey : key = place
    · have hskip : (other == key) = false := by simpa [hkey] using h
      rw [List.filter_cons_of_neg (by simp [hkey]), ih, List.lookup_cons, hskip]
    · rw [List.filter_cons_of_pos (by simp [hkey]), List.lookup_cons, List.lookup_cons, ih]

theorem get?_set_self (tree : FileTree) {place : Location} (h : place ≠ []) (node : Node) :
    (tree.set place node).get? place = some node := by
  simp [get?, set, h]

theorem get?_set_of_ne (tree : FileTree) {place other : Location} (h : other ≠ place)
    (node : Node) : (tree.set place node).get? other = tree.get? other := by
  have hskip : (other == place) = false := by simpa using h
  unfold get? set
  rw [List.lookup_cons, hskip, lookup_filter_ne tree.entries h]

end FileTree

namespace World

inductive Enters (tree : FileTree) (here : Location) (segment : Text) : Location → Prop where
  | stay (hdir : tree.get? here = some .directory) (hquiet : Path.saysNothing segment = true) :
      Enters tree here segment here
  | up (hdir : tree.get? here = some .directory) (hup : segment = ['.', '.']) :
      Enters tree here segment here.dropLast
  | down (hdir : tree.get? here = some .directory) (hspeaks : Path.saysNothing segment = false)
      (hdown : segment ≠ ['.', '.']) (hfits : Text.byteSize segment ≤ maxNameBytes) :
      Enters tree here segment (here ++ [segment])

theorem Enters.directory {tree : FileTree} {here there : Location} {segment : Text}
    (h : Enters tree here segment there) : tree.get? here = some .directory := by
  cases h <;> assumption

theorem walk_cons_eq_ok {tree : FileTree} {here there : Location} {segment : Text}
    {rest : List Text} :
    walk tree here (segment :: rest) = .ok there ↔
      ∃ next, Enters tree here segment next ∧ walk tree next rest = .ok there := by
  constructor
  · intro h
    rw [walk] at h
    split at h
    · cases h
    · cases h
    · rename_i hdir
      split_ifs at h with hquiet hup hlong
      · exact ⟨here, .stay hdir hquiet, h⟩
      · exact ⟨_, .up hdir hup, h⟩
      · exact ⟨_, .down hdir (by simpa using hquiet) hup (by omega), h⟩
  · rintro ⟨next, henter, hwalk⟩
    rw [walk, henter.directory]
    cases henter with
    | stay _ hquiet => simpa [hquiet] using hwalk
    | up _ hup =>
      subst hup
      exact hwalk
    | down _ hspeaks hdown hfits => simpa [hspeaks, hdown, Nat.not_lt.mpr hfits] using hwalk

theorem walk_append_eq_ok {tree : FileTree} {here there : Location} {front back : List Text} :
    walk tree here (front ++ back) = .ok there ↔
      ∃ middle, walk tree here front = .ok middle ∧ walk tree middle back = .ok there := by
  induction front generalizing here with
  | nil => simp [walk]
  | cons segment front ih =>
    simp only [List.cons_append, walk_cons_eq_ok, ih]
    constructor
    · rintro ⟨next, henter, middle, hfront, hback⟩
      exact ⟨middle, ⟨next, henter, hfront⟩, hback⟩
    · rintro ⟨middle, ⟨next, henter, hfront⟩, hback⟩
      exact ⟨next, henter, middle, hfront, hback⟩

theorem walk_singleton_eq_ok {tree : FileTree} {here there : Location} {segment : Text} :
    walk tree here [segment] = .ok there ↔ Enters tree here segment there := by
  rw [walk_cons_eq_ok]
  simp [walk]

section Placing

variable {tree : FileTree} {place : Location} {node : Node}

/-- Directories stay directories where no directory is written over. -/
theorem get?_set_directory (node : Node) (hplace : tree.get? place ≠ some .directory)
    {here : Location} (hdir : tree.get? here = some .directory) :
    (tree.set place node).get? here = some .directory := by
  have hne : here ≠ place := by
    rintro rfl
    exact hplace hdir
  rw [tree.get?_set_of_ne hne, hdir]

theorem Enters.set (hplace : tree.get? place ≠ some .directory) {here there : Location}
    {segment : Text} (h : Enters tree here segment there) :
    Enters (tree.set place node) here segment there := by
  have hdir := get?_set_directory node hplace h.directory
  cases h with
  | stay _ hquiet => exact .stay hdir hquiet
  | up _ hup => exact .up hdir hup
  | down _ hspeaks hdown hfits => exact .down hdir hspeaks hdown hfits

theorem walk_set (hplace : tree.get? place ≠ some .directory) {here there : Location}
    {segments : List Text} (h : walk tree here segments = .ok there) :
    walk (tree.set place node) here segments = .ok there := by
  induction segments generalizing here with
  | nil => exact h
  | cons segment rest ih =>
    obtain ⟨next, henter, hrest⟩ := walk_cons_eq_ok.mp h
    exact walk_cons_eq_ok.mpr ⟨next, henter.set hplace, ih hrest⟩

end Placing

theorem resolve_eq_ok {w : World} {p : Path} {place : Location} :
    w.resolve p = .ok place ↔
      checkPath p = .ok () ∧ walk w.tree (w.start p) (Text.split '/' p) = .ok place := by
  rw [resolve, bind_eq_ok]
  constructor
  · rintro ⟨⟨⟩, hchecked, hwalk⟩
    exact ⟨hchecked, hwalk⟩
  · rintro ⟨hchecked, hwalk⟩
    exact ⟨(), hchecked, hwalk⟩

theorem read_eq_ok {w : World} {p : Path} {content : ByteArray} :
    w.read p = .ok content ↔
      ∃ place, w.resolve p = .ok place ∧ w.tree.get? place = some (.file content) := by
  rw [read, bind_eq_ok]
  refine exists_congr fun place => and_congr_right fun _ => ?_
  split <;> simp_all

theorem readText_eq_ok {w : World} {p : Path} {t : Text} :
    w.readText p = .ok t ↔ w.read p = .ok (String.ofList t).toUTF8 := by
  rw [readText, bind_eq_ok]
  constructor
  · rintro ⟨content, hread, hdecode⟩
    split at hdecode
    · rename_i s hs
      cases hdecode
      rw [String.ofList_toList, toUTF8_of_fromUTF8? hs, hread]
    · cases hdecode
  · intro hread
    exact ⟨_, hread, by rw [fromUTF8?_toUTF8]; simp⟩

/-- The path names an entry of a directory, which need not be there. -/
structure Names (w : World) (p : Path) (folder : List Text) (name : Text) (here : Location) :
    Prop where
  checked : checkPath p = .ok ()
  segments : Text.split '/' p = folder ++ [name]
  reached : walk w.tree (w.start p) folder = .ok here
  enters : Enters w.tree here name (here ++ [name])

theorem Names.resolve {w : World} {p : Path} {folder : List Text} {name : Text} {here : Location}
    (h : Names w p folder name here) : w.resolve p = .ok (here ++ [name]) := by
  rw [resolve_eq_ok, h.segments, walk_append_eq_ok]
  exact ⟨h.checked, here, h.reached, walk_singleton_eq_ok.mpr h.enters⟩

theorem dropTrailingSlashes_of_getLast? {p : Path} (h : p.getLast? ≠ some '/') :
    dropTrailingSlashes p = p := by
  unfold dropTrailingSlashes
  rw [← List.head?_reverse] at h
  cases hr : p.reverse with
  | nil => simpa using hr
  | cons c rest =>
    have hc : (c == '/') = false := by simpa [hr] using h
    rw [List.dropWhile_cons_of_neg (by simp [hc]), ← hr, List.reverse_reverse]

theorem names_of_resolveOutput {w : World} {p : Path} {place : Location}
    (h : w.resolveOutput p = .ok place) :
    ∃ folder name here, Names w p folder name here ∧ place = here ++ [name] ∧
      w.tree.get? place ≠ some .directory := by
  rw [resolveOutput, bind_eq_ok] at h
  obtain ⟨⟨⟩, hchecked, h⟩ := h
  rw [bind_eq_ok] at h
  obtain ⟨here, hreached, h⟩ := h
  split at h
  · cases h
  · cases h
  · cases h
  · rename_i name hdir hname
    split_ifs at h with hends hlong htaken
    cases h
    simp only [Bool.or_eq_true, decide_eq_true_eq, not_or] at hends
    obtain ⟨⟨hslash, hquiet⟩, hup⟩ := hends
    rw [dropTrailingSlashes_of_getLast? hslash] at hname hreached
    refine ⟨_, name, here, ⟨hchecked, ?_, hreached, ?_⟩, rfl, htaken⟩
    · exact (List.dropLast_append_getLast? _ hname).symm
    · exact .down hdir (by simpa using hquiet) hup (by omega)

structure Stores (before : World) (place : Location) (t : Text) (after : World) : Prop where
  stored : after.tree.get? place = some (.file (String.ofList t).toUTF8)
  kept : ∀ other, other ≠ place → after.tree.get? other = before.tree.get? other
  workingDirectory : after.workingDirectory = before.workingDirectory

section Writing

variable {w after : World} {p : Path} {t : Text}

theorem writeText_eq_ok :
    w.writeText p t = .ok after ↔ ∃ place, w.resolveOutput p = .ok place ∧
      after = { w with tree := w.tree.set place (.file (String.ofList t).toUTF8) } := by
  rw [writeText, bind_eq_ok]
  simp only [Except.ok.injEq, eq_comm]

theorem stores_of_writeText (h : w.writeText p t = .ok after) :
    ∃ place, w.resolveOutput p = .ok place ∧ Stores w place t after := by
  obtain ⟨place, hplace, rfl⟩ := writeText_eq_ok.mp h
  obtain ⟨folder, name, here, _, rfl, _⟩ := names_of_resolveOutput hplace
  refine ⟨_, hplace, ?_, ?_, rfl⟩
  · exact w.tree.get?_set_self (by simp) _
  · intro other hne
    exact w.tree.get?_set_of_ne hne _

theorem resolve_writeText (h : w.writeText p t = .ok after) {q : Path} {place : Location}
    (hq : w.resolve q = .ok place) : after.resolve q = .ok place := by
  obtain ⟨written, hwritten, rfl⟩ := writeText_eq_ok.mp h
  obtain ⟨_, _, _, _, _, hfree⟩ := names_of_resolveOutput hwritten
  obtain ⟨hchecked, hwalk⟩ := resolve_eq_ok.mp hq
  exact resolve_eq_ok.mpr ⟨hchecked, walk_set hfree hwalk⟩

theorem readText_writeText (h : w.writeText p t = .ok after) : after.readText p = .ok t := by
  obtain ⟨place, hplace, hstores⟩ := stores_of_writeText h
  obtain ⟨folder, name, here, hnames, rfl, _⟩ := names_of_resolveOutput hplace
  rw [readText_eq_ok, read_eq_ok]
  exact ⟨_, resolve_writeText h hnames.resolve, hstores.stored⟩

theorem read_writeText_of_ne (h : w.writeText p t = .ok after) {written place : Location}
    (hwritten : w.resolveOutput p = .ok written) {q : Path} {content : ByteArray}
    (hq : w.resolve q = .ok place) (hfile : w.tree.get? place = some (.file content))
    (hne : place ≠ written) : after.read q = .ok content := by
  obtain ⟨_, hsame, hstores⟩ := stores_of_writeText h
  cases hwritten.symm.trans hsame
  exact read_eq_ok.mpr ⟨place, resolve_writeText h hq, by rw [hstores.kept place hne, hfile]⟩

end Writing

end World

end SqfMinifier
