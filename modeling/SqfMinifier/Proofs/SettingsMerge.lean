import SqfMinifier.Proofs.TomlKeys
import SqfMinifier.Settings.Layers

/-!
What merging does to one key. A value set at a key is found there and all other keys keep theirs; a
table goes into the table that is there key by key. So a file with plain keys changes a field just
when it gives that field, and an override changes it in any case.
-/

namespace SqfMinifier

namespace Setting

def merged (value : Setting) (old : Option Setting) : Setting :=
  match value with
  | table _ entries => mergeAll entries (old.getD emptyTable)
  | value => value

theorem lookup_cons_if (key k : Text) (value : Setting) (rest : List (Text × Setting)) :
    List.lookup k ((key, value) :: rest) = if k = key then some value else rest.lookup k := by
  by_cases hk : k = key
  · simp [hk]
  · have hb : (k == key) = false := beq_false_of_ne hk
    simp [List.lookup_cons, hb, hk]

theorem lookup_putEntry (key k : Text) (value : Setting) (entries : List (Text × Setting)) :
    (putEntry key value entries).lookup k = if k = key then some value else entries.lookup k := by
  induction entries with
  | nil => exact lookup_cons_if key k value []
  | cons entry rest ih =>
    obtain ⟨first, v⟩ := entry
    rw [putEntry]
    by_cases hfirst : first = key
    · rw [if_pos hfirst, hfirst, lookup_cons_if, lookup_cons_if]
      split_ifs <;> rfl
    · rw [if_neg hfirst, lookup_cons_if, lookup_cons_if, ih]
      by_cases hk : k = key
      · have hne : k ≠ first := by
          rintro rfl
          exact hfirst hk
        rw [if_neg hne, if_pos hk, if_pos hk]
      · rw [if_neg hk, if_neg hk]

theorem get?_put (target : Setting) (key k : Text) (value : Setting) :
    (target.put key value).get? k = if k = key then some value else target.get? k := by
  cases target with
  | table origin entries => exact lookup_putEntry key k value entries
  | _ => exact lookup_cons_if key k value []

theorem merge_eq_put (key : Text) (value target : Setting) :
    merge key value target =
      target.put (Text.lower key) (merged value (target.get? (Text.lower key))) := by
  cases value with
  | table origin entries => rw [merge, merged]
  | _ => rw [merge, merged] <;> simp

theorem get?_merge (key k : Text) (value target : Setting) :
    (merge key value target).get? k =
      if k = Text.lower key then some (merged value (target.get? k)) else target.get? k := by
  rw [merge_eq_put, get?_put]
  split_ifs with hk
  · rw [hk]
  · rfl

/-- Entries in small letters, no key twice, go in each at its own key. -/
theorem get?_mergeAll {entries : List (Text × Setting)} (hkeys : (entries.map Prod.fst).Nodup)
    (hlower : ∀ entry ∈ entries, Text.lower entry.1 = entry.1) (target : Setting) (k : Text) :
    (mergeAll entries target).get? k =
      match entries.lookup k with
      | some value => some (merged value (target.get? k))
      | none => target.get? k := by
  induction entries generalizing target with
  | nil => rw [mergeAll]; rfl
  | cons entry rest ih =>
    obtain ⟨key, value⟩ := entry
    rw [List.map_cons, List.nodup_cons] at hkeys
    rw [List.forall_mem_cons] at hlower
    rw [mergeAll, ih hkeys.2 hlower.2, get?_merge, hlower.1]
    by_cases hk : k = key
    · subst hk
      have hnone : rest.lookup k = none := Toml.lookup_eq_none.mpr hkeys.1
      simp [hnone]
    · simp [hk, lookup_cons_if]

theorem mergeAll_table (entries : List (Text × Setting)) (origin : Option Path)
    (old : List (Text × Setting)) :
    ∃ new, mergeAll entries (table origin old) = table origin new := by
  induction entries generalizing old with
  | nil => exact ⟨old, by rw [mergeAll]⟩
  | cons entry rest ih =>
    obtain ⟨key, value⟩ := entry
    rw [mergeAll, merge_eq_put, put]
    exact ih _

theorem keys_ofEntries (origin : Option Path) (entries : Toml.Table) :
    (ofEntries origin entries).map Prod.fst = entries.map Prod.fst := by
  induction entries with
  | nil => rfl
  | cons entry rest ih => simp [ofEntries, ih]

theorem lookup_ofEntries (origin : Option Path) (entries : Toml.Table) (key : Text) :
    (ofEntries origin entries).lookup key = (entries.lookup key).map (ofToml origin) := by
  induction entries with
  | nil => rfl
  | cons entry rest ih =>
    obtain ⟨k, v⟩ := entry
    rw [ofEntries, List.lookup_cons, List.lookup_cons, ih]
    cases key == k <;> rfl

theorem lower_ofEntries {origin : Option Path} {entries : Toml.Table}
    (h : ∀ entry ∈ entries, Text.lower entry.1 = entry.1) :
    ∀ entry ∈ ofEntries origin entries, Text.lower entry.1 = entry.1 := by
  rw [← List.forall_mem_map (f := Prod.fst) (P := fun key => Text.lower key = key)] at h ⊢
  rwa [keys_ofEntries]

end Setting

section PlainKeys

structure KeyPath.Plain (key : Text) : Prop where
  lower : Text.lower key = key
  noDot : '.' ∉ key
  noBracket : '[' ∉ key

instance (key : Text) : Decidable (KeyPath.Plain key) :=
  decidable_of_iff (Text.lower key = key ∧ '.' ∉ key ∧ '[' ∉ key)
    ⟨fun h => ⟨h.1, h.2.1, h.2.2⟩, fun h => ⟨h.lower, h.noDot, h.noBracket⟩⟩

theorem KeyPath.ofKey_plain {key : Text} (hdot : '.' ∉ key) (hbracket : '[' ∉ key) :
    ofKey key = ⟨key, []⟩ := by
  have hparts := List.takeWhile_append_dropWhile (p := isNameChar) (l := key)
  cases hrest : key.dropWhile isNameChar with
  | nil =>
    rw [hrest, List.append_nil] at hparts
    cases key with
    | nil => rfl
    | cons c key => simp [ofKey, ofText?, name?, hparts, hrest, steps?]
  | cons c rest =>
    have hc : c ∈ key := (List.dropWhile_sublist isNameChar).subset (by simp [hrest])
    have hstop : ∀ fuel, steps? fuel (c :: rest) = none := by
      intro fuel
      unfold steps?
      split <;> simp_all
    have hnone : ofText? key = none := by
      cases hname : key.takeWhile isNameChar <;>
        simp [ofText?, name?, hname, hrest, hstop]
    rw [ofKey, hnone]
    rfl

theorem Setting.mergeFile_eq_mergeAll {entries : List (Text × Setting)}
    (h : ∀ entry ∈ entries, KeyPath.Plain entry.1) (target : Setting) :
    mergeFile entries target = mergeAll entries target := by
  induction entries generalizing target with
  | nil => rw [mergeAll]; rfl
  | cons entry rest ih =>
    obtain ⟨key, value⟩ := entry
    rw [List.forall_mem_cons] at h
    have hfirst : mergeTop key value target = merge key value target := by
      rw [mergeTop, KeyPath.ofKey_plain h.1.noDot h.1.noBracket]
      rfl
    rw [mergeAll, ← hfirst, ← ih h.2]
    rfl

end PlainKeys

end SqfMinifier
