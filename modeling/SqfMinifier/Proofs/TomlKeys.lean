import SqfMinifier.Toml.Document
import Mathlib.Data.List.Nodup

/-!
No table of a TOML document holds a key twice. Keys come into a table in three ways: as a new key
behind the others, in the place of an old value, or by a header that moves an implied table to the
end. Each keeps the keys apart, so all readers do, and so does putting dates and times in the
place of the tables that stand for them.
-/

namespace SqfMinifier.Toml

theorem lookup_eq_none {β : Type} {entries : List (Text × β)} {key : Text} :
    entries.lookup key = none ↔ key ∉ entries.map Prod.fst := by
  rw [List.lookup_eq_none_iff]
  constructor
  · intro h hm
    obtain ⟨entry, hentry, rfl⟩ := List.mem_map.mp hm
    simpa using h entry hentry
  · intro h entry hentry
    have hne : key ≠ entry.1 := by
      rintro rfl
      exact h (List.mem_map_of_mem hentry)
    simp [hne]

theorem mem_of_lookup {β : Type} {entries : List (Text × β)} {key : Text} {value : β}
    (h : entries.lookup key = some value) : (key, value) ∈ entries := by
  obtain ⟨front, back, rfl, -⟩ := List.lookup_eq_some_iff.mp h
  simp

/-- In no table of this value does a key stand twice. -/
inductive Value.Keyed : Value → Prop where
  | string (t : Text) : Keyed (.string t)
  | integer (i : Int) : Keyed (.integer i)
  | float (x : Binary64) : Keyed (.float x)
  | boolean (b : Bool) : Keyed (.boolean b)
  | moment (t : Text) : Keyed (.moment t)
  | array {elements : List Value} (h : ∀ value ∈ elements, Keyed value) : Keyed (.array elements)
  | tables {elements : List Value} (h : ∀ value ∈ elements, Keyed value) : Keyed (.tables elements)
  | table {style : TableStyle} {entries : Table} (hkeys : (entries.map Prod.fst).Nodup)
      (hvalues : ∀ entry ∈ entries, Keyed entry.2) : Keyed (.table style entries)

namespace Table

structure Keyed (entries : Table) : Prop where
  keys : (entries.map Prod.fst).Nodup
  values : ∀ entry ∈ entries, entry.2.Keyed

theorem Keyed.table {entries : Table} (h : Keyed entries) (style : TableStyle) :
    (Value.table style entries).Keyed :=
  .table h.keys h.values

theorem keyed_of_table {style : TableStyle} {entries : Table}
    (h : (Value.table style entries).Keyed) : Keyed entries := by
  cases h with
  | table hkeys hvalues => exact ⟨hkeys, hvalues⟩

theorem keyed_nil : Keyed [] := ⟨by simp, by simp⟩

theorem Keyed.lookup {entries : Table} (h : Keyed entries) {key : Text} {value : Value}
    (hlookup : entries.lookup key = some value) : value.Keyed :=
  h.values _ (mem_of_lookup hlookup)

section Building

variable {entries : Table} {key : Text} {value : Value}

theorem Keyed.append (h : Keyed entries) (hkey : entries.lookup key = none) (hv : value.Keyed) :
    Keyed (entries ++ [(key, value)]) := by
  constructor
  · rw [List.map_append, List.map_singleton, ← List.concat_eq_append]
    exact h.keys.concat (lookup_eq_none.mp hkey)
  · rw [List.forall_mem_append]
    exact ⟨h.values, by simpa using hv⟩

theorem Keyed.filter (h : Keyed entries) (p : Text × Value → Bool) : Keyed (entries.filter p) := by
  constructor
  · exact h.keys.sublist (List.filter_sublist.map Prod.fst)
  · intro entry hm
    exact h.values entry (List.mem_of_mem_filter hm)

theorem keys_put : (put key value entries).map Prod.fst =
    if key ∈ entries.map Prod.fst then entries.map Prod.fst
    else entries.map Prod.fst ++ [key] := by
  induction entries with
  | nil => rfl
  | cons first rest ih =>
    obtain ⟨k, v⟩ := first
    rw [put]
    by_cases hk : k = key
    · simp [hk]
    · simp only [hk, if_false, List.map_cons, ih, List.mem_cons, Ne.symm hk, false_or]
      split_ifs <;> rfl

theorem mem_put {entry : Text × Value} (h : entry ∈ put key value entries) :
    entry.2 = value ∨ entry ∈ entries := by
  induction entries with
  | nil =>
    obtain rfl : entry = (key, value) := by simpa [put] using h
    exact .inl rfl
  | cons first rest ih =>
    obtain ⟨k, v⟩ := first
    rw [put] at h
    split_ifs at h
    · rcases List.mem_cons.mp h with rfl | h
      · exact .inl rfl
      · exact .inr (List.mem_cons_of_mem _ h)
    · rcases List.mem_cons.mp h with rfl | h
      · exact .inr List.mem_cons_self
      · exact (ih h).imp_right (List.mem_cons_of_mem _)

theorem Keyed.put (h : Keyed entries) (hv : value.Keyed) : Keyed (put key value entries) := by
  constructor
  · rw [keys_put]
    split_ifs with hkey
    · exact h.keys
    · rw [← List.concat_eq_append]
      exact h.keys.concat hkey
  · intro entry hm
    rcases mem_put hm with hvalue | hm
    · rwa [hvalue]
    · exact h.values entry hm

/-- What a change keeps keyed at the end of a path, it keeps keyed along the path. -/
theorem Keyed.updateAt {byDots : Bool} {change : TableStyle → Table → Option Table}
    (hchange : ∀ style inner out, change style inner = some out → Keyed inner → Keyed out)
    {path : List Text} {style : TableStyle} {out : Table}
    (h : updateAt byDots change path style entries = some out) (hkeyed : Keyed entries) :
    Keyed out := by
  induction path generalizing style entries out with
  | nil => exact hchange style entries out h hkeyed
  | cons key path ih =>
    rw [Table.updateAt] at h
    split at h
    · obtain ⟨inner, hinner, hout⟩ := Option.bind_eq_some_iff.mp h
      obtain rfl := Option.some.inj hout
      exact hkeyed.put ((ih hinner keyed_nil).table _)
    · rename_i innerStyle inner hlookup
      split_ifs at h
      obtain ⟨changed, hchanged, hout⟩ := Option.bind_eq_some_iff.mp h
      obtain rfl := Option.some.inj hout
      exact hkeyed.put ((ih hchanged (keyed_of_table (hkeyed.lookup hlookup))).table _)
    · rename_i elements hlookup
      have helements : ∀ value ∈ elements, value.Keyed := by
        cases hkeyed.lookup hlookup with
        | tables h => exact h
      split at h
      · rename_i innerStyle inner hlast
        obtain ⟨changed, hchanged, hout⟩ := Option.bind_eq_some_iff.mp h
        obtain rfl := Option.some.inj hout
        have hinner := keyed_of_table (helements _ (List.mem_of_getLast? hlast))
        refine hkeyed.put (.tables ?_)
        rw [List.forall_mem_append]
        refine ⟨fun v hv => helements v (List.dropLast_subset _ hv), ?_⟩
        simpa using (ih hchanged hinner).table innerStyle
      · cases h
    · cases h

theorem Keyed.insertNew {out : Table} (h : insertNew key value entries = some out)
    (hkeyed : Keyed entries) (hv : value.Keyed) : Keyed out := by
  rw [Table.insertNew] at h
  split_ifs at h with hkey
  obtain rfl := Option.some.inj h
  exact hkeyed.append (Option.not_isSome_iff_eq_none.mp hkey) hv

theorem Keyed.define {style : TableStyle} {path : List Text} {out : Table}
    (h : define style path key value entries = some out) (hkeyed : Keyed entries)
    (hv : value.Keyed) : Keyed out := by
  refine Keyed.updateAt ?_ h hkeyed
  intro style inner out hout hinner
  split_ifs at hout
  exact hinner.insertNew hout hv

theorem Keyed.openTable {path : List Text} {out : Table}
    (h : openTable path key entries = some out) (hkeyed : Keyed entries) : Keyed out := by
  refine Keyed.updateAt ?_ h hkeyed
  intro style inner out hout hinner
  split at hout
  · rename_i hnone
    obtain rfl := Option.some.inj hout
    exact hinner.append hnone (keyed_nil.table _)
  · rename_i kept himplied
    obtain rfl := Option.some.inj hout
    refine (hinner.filter _).append ?_ ((keyed_of_table (hinner.lookup himplied)).table _)
    rw [lookup_eq_none]
    simp
  · cases hout

theorem Keyed.openElement {path : List Text} {out : Table}
    (h : openElement path key entries = some out) (hkeyed : Keyed entries) : Keyed out := by
  have hnew : (Value.table .header []).Keyed := keyed_nil.table _
  refine Keyed.updateAt ?_ h hkeyed
  intro style inner out hout hinner
  split at hout
  · rename_i hnone
    obtain rfl := Option.some.inj hout
    exact hinner.append hnone (.tables (by simpa using hnew))
  · rename_i elements hlookup
    obtain rfl := Option.some.inj hout
    refine hinner.put (.tables ?_)
    rw [List.forall_mem_append]
    refine ⟨?_, by simpa using hnew⟩
    cases hinner.lookup hlookup with
    | tables h => exact h
  · cases hout

end Building

end Table

section Reading

theorem integer?_keyed {i : Int} {value : Value} (h : integer? i = some value) : value.Keyed := by
  rw [integer?] at h
  split_ifs at h
  obtain rfl := Option.some.inj h
  exact .integer i

theorem float?_keyed {negative : Bool} {digits : Nat} {exponent : Int} {value : Value}
    (h : float? negative digits exponent = some value) : value.Keyed := by
  rw [float?] at h
  split at h
  · cases h
  · obtain rfl := Option.some.inj h
    exact .float _

theorem prefixedInteger?_keyed {base : Nat} {t rest : Text} {value : Value}
    (h : prefixedInteger? base t = some (value, rest)) : value.Keyed := by
  obtain ⟨⟨digits, after⟩, -, h⟩ := Option.bind_eq_some_iff.mp h
  obtain ⟨i, hi, h⟩ := Option.bind_eq_some_iff.mp h
  cases h
  exact integer?_keyed hi

theorem number?_keyed {t rest : Text} {value : Value} (h : number? t = some (value, rest)) :
    value.Keyed := by
  unfold number? at h
  split at h
  · exact prefixedInteger?_keyed h
  · exact prefixedInteger?_keyed h
  · exact prefixedInteger?_keyed h
  · split at h
    · cases h
      exact .float _
    · cases h
      exact .float _
    · obtain ⟨⟨whole, after⟩, -, h⟩ := Option.bind_eq_some_iff.mp h
      dsimp only at h
      split at h
      · obtain ⟨⟨places, after⟩, -, h⟩ := Option.bind_eq_some_iff.mp h
        obtain ⟨⟨exponent, after⟩, -, h⟩ := Option.bind_eq_some_iff.mp h
        obtain ⟨x, hx, h⟩ := Option.bind_eq_some_iff.mp h
        cases h
        exact float?_keyed hx
      · obtain ⟨i, hi, h⟩ := Option.bind_eq_some_iff.mp h
        cases h
        exact integer?_keyed hi

structure ReadsKeyed (fuel : Nat) : Prop where
  value : ∀ {depth t value rest}, value? fuel depth t = some (value, rest) → value.Keyed
  elements : ∀ {depth t values rest}, elements? fuel depth t = some (values, rest) →
    ∀ value ∈ values, value.Keyed
  pairs : ∀ {depth entries t out rest}, pairs? fuel depth entries t = some (out, rest) →
    Table.Keyed entries → Table.Keyed out

variable {fuel depth : Nat} {t rest : Text}

theorem value?_keyed (h : ReadsKeyed fuel) {value : Value}
    (hvalue : value? (fuel + 1) depth t = some (value, rest)) : value.Keyed := by
  unfold value? at hvalue
  split at hvalue
  · split_ifs at hvalue
    obtain ⟨⟨elements, after⟩, helements, hvalue⟩ := Option.map_eq_some_iff.mp hvalue
    cases hvalue
    exact .array (h.elements helements)
  · split_ifs at hvalue
    split at hvalue
    · cases hvalue
      exact Table.keyed_nil.table _
    · obtain ⟨⟨entries, after⟩, hentries, hvalue⟩ := Option.map_eq_some_iff.mp hvalue
      cases hvalue
      exact (h.pairs hentries Table.keyed_nil).table _
  · cases hvalue
    exact .boolean _
  · cases hvalue
    exact .boolean _
  · split_ifs at hvalue
    · obtain ⟨⟨s, after⟩, -, hvalue⟩ := Option.map_eq_some_iff.mp hvalue
      cases hvalue
      exact .string s
    · obtain ⟨⟨s, after⟩, -, hvalue⟩ := Option.map_eq_some_iff.mp hvalue
      cases hvalue
      exact .moment s
    · exact number?_keyed hvalue

theorem elements?_keyed (h : ReadsKeyed fuel) {values : List Value}
    (hvalues : elements? (fuel + 1) depth t = some (values, rest)) :
    ∀ value ∈ values, value.Keyed := by
  unfold elements? at hvalues
  split at hvalues
  · cases hvalues
    simp
  · obtain ⟨⟨value, after⟩, hvalue, hvalues⟩ := Option.bind_eq_some_iff.mp hvalues
    dsimp only at hvalues
    split at hvalues
    · cases hvalues
      simpa using h.value hvalue
    · obtain ⟨⟨others, after⟩, hothers, hvalues⟩ := Option.bind_eq_some_iff.mp hvalues
      cases hvalues
      exact List.forall_mem_cons.mpr ⟨h.value hvalue, h.elements hothers⟩
    · cases hvalues

theorem pairs?_keyed (h : ReadsKeyed fuel) {entries out : Table}
    (hpairs : pairs? (fuel + 1) depth entries t = some (out, rest)) (hkeyed : entries.Keyed) :
    out.Keyed := by
  unfold pairs? at hpairs
  obtain ⟨⟨⟨path, key⟩, after⟩, -, hpairs⟩ := Option.bind_eq_some_iff.mp hpairs
  obtain ⟨after, -, hpairs⟩ := Option.bind_eq_some_iff.mp hpairs
  obtain ⟨⟨value, after⟩, hvalue, hpairs⟩ := Option.bind_eq_some_iff.mp hpairs
  obtain ⟨entries, hentries, hpairs⟩ := Option.bind_eq_some_iff.mp hpairs
  have hnext := hkeyed.define hentries (h.value hvalue)
  split at hpairs
  · cases hpairs
    exact hnext
  · exact h.pairs hpairs hnext
  · cases hpairs

theorem reads_keyed (fuel : Nat) : ReadsKeyed fuel := by
  induction fuel with
  | zero =>
    constructor
    · intro depth t value rest h
      cases h
    · intro depth t values rest h
      cases h
    · intro depth entries t out rest h
      cases h
  | succ fuel ih => exact ⟨value?_keyed ih, elements?_keyed ih, pairs?_keyed ih⟩

theorem Progress.define_keyed {p q : Progress} {path : List Text} {key : Text} {value : Value}
    (h : p.define path key value = some q) (hkeyed : p.root.Keyed) (hv : value.Keyed) :
    q.root.Keyed := by
  obtain ⟨root, hroot, h⟩ := Option.bind_eq_some_iff.mp h
  cases h
  refine Table.Keyed.updateAt ?_ hroot hkeyed
  intro style inner out hout hinner
  exact hinner.define hout hv

theorem keyValue?_keyed {p q : Progress} {t rest : Text} (h : keyValue? p t = some (q, rest))
    (hkeyed : p.root.Keyed) : q.root.Keyed := by
  obtain ⟨⟨⟨path, key⟩, after⟩, -, h⟩ := Option.bind_eq_some_iff.mp h
  obtain ⟨after, -, h⟩ := Option.bind_eq_some_iff.mp h
  obtain ⟨⟨value, after⟩, hvalue, h⟩ := Option.bind_eq_some_iff.mp h
  obtain ⟨next, hnext, h⟩ := Option.bind_eq_some_iff.mp h
  cases h
  exact Progress.define_keyed hnext hkeyed ((reads_keyed _).value hvalue)

theorem lines?_keyed {fuel : Nat} {p : Progress} {t : Text} {root : Table}
    (h : lines? fuel p t = some root) (hkeyed : p.root.Keyed) : root.Keyed := by
  induction fuel generalizing p t with
  | zero => cases h
  | succ fuel ih =>
    unfold lines? at h
    split at h
    · cases h
      exact hkeyed
    · obtain ⟨⟨⟨path, key⟩, after⟩, -, h⟩ := Option.bind_eq_some_iff.mp h
      obtain ⟨after, -, h⟩ := Option.bind_eq_some_iff.mp h
      obtain ⟨after, -, h⟩ := Option.bind_eq_some_iff.mp h
      obtain ⟨after, -, h⟩ := Option.bind_eq_some_iff.mp h
      obtain ⟨next, hnext, h⟩ := Option.bind_eq_some_iff.mp h
      exact ih h (hkeyed.openElement hnext)
    · obtain ⟨⟨⟨path, key⟩, after⟩, -, h⟩ := Option.bind_eq_some_iff.mp h
      obtain ⟨after, -, h⟩ := Option.bind_eq_some_iff.mp h
      obtain ⟨after, -, h⟩ := Option.bind_eq_some_iff.mp h
      obtain ⟨next, hnext, h⟩ := Option.bind_eq_some_iff.mp h
      exact ih h (hkeyed.openTable hnext)
    · split at h
      · obtain ⟨after, -, h⟩ := Option.bind_eq_some_iff.mp h
        exact ih h hkeyed
      · obtain ⟨⟨next, after⟩, hnext, h⟩ := Option.bind_eq_some_iff.mp h
        obtain ⟨after, -, h⟩ := Option.bind_eq_some_iff.mp h
        exact ih h (keyValue?_keyed hnext hkeyed)

end Reading

section Moments

theorem momentValue?_keyed {value out : Value} (h : momentValue? value = some out) :
    out.Keyed := by
  unfold momentValue? at h
  split at h
  · obtain ⟨moment, -, rfl⟩ := Option.map_eq_some_iff.mp h
    exact .moment moment
  · cases h

mutual

theorem resolve?_keyed : ∀ {value out : Value}, value.resolve? = some out → value.Keyed → out.Keyed
  | .array elements, out, h, hkeyed => by
    obtain ⟨resolved, hresolved, rfl⟩ := Option.map_eq_some_iff.mp h
    cases hkeyed with
    | array helements => exact .array (resolveElements?_keyed hresolved helements)
  | .tables elements, out, h, hkeyed => by
    obtain ⟨resolved, hresolved, rfl⟩ := Option.map_eq_some_iff.mp h
    cases hkeyed with
    | tables helements => exact .tables (resolveElements?_keyed hresolved helements)
  | .table style entries, out, h, hkeyed => by
    unfold Value.resolve? at h
    split at h
    · exact momentValue?_keyed h
    · obtain ⟨resolved, hresolved, rfl⟩ := Option.map_eq_some_iff.mp h
      cases hkeyed with
      | table hkeys hvalues =>
        obtain ⟨hsame, hout⟩ := resolveEntries?_keyed hresolved hvalues
        exact .table (hsame ▸ hkeys) hout
  | .string t, out, h, _ => by cases h; exact .string t
  | .integer i, out, h, _ => by cases h; exact .integer i
  | .float x, out, h, _ => by cases h; exact .float x
  | .boolean b, out, h, _ => by cases h; exact .boolean b
  | .moment t, out, h, _ => by cases h; exact .moment t

theorem resolveElements?_keyed : ∀ {elements out : List Value},
    resolveElements? elements = some out → (∀ value ∈ elements, value.Keyed) →
    ∀ value ∈ out, value.Keyed
  | [], out, h, _ => by
    cases h
    simp
  | value :: rest, out, h, hkeyed => by
    obtain ⟨first, hfirst, h⟩ := Option.bind_eq_some_iff.mp h
    obtain ⟨others, hothers, h⟩ := Option.bind_eq_some_iff.mp h
    cases h
    rw [List.forall_mem_cons] at hkeyed
    exact List.forall_mem_cons.mpr
      ⟨resolve?_keyed hfirst hkeyed.1, resolveElements?_keyed hothers hkeyed.2⟩

theorem resolveEntries?_keyed : ∀ {entries out : List (Text × Value)},
    resolveEntries? entries = some out → (∀ entry ∈ entries, entry.2.Keyed) →
    out.map Prod.fst = entries.map Prod.fst ∧ ∀ entry ∈ out, entry.2.Keyed
  | [], out, h, _ => by
    cases h
    simp
  | (key, value) :: rest, out, h, hkeyed => by
    obtain ⟨first, hfirst, h⟩ := Option.bind_eq_some_iff.mp h
    obtain ⟨others, hothers, h⟩ := Option.bind_eq_some_iff.mp h
    cases h
    rw [List.forall_mem_cons] at hkeyed
    obtain ⟨hsame, hout⟩ := resolveEntries?_keyed hothers hkeyed.2
    exact ⟨by simp [hsame], List.forall_mem_cons.mpr ⟨resolve?_keyed hfirst hkeyed.1, hout⟩⟩

end

end Moments

theorem document?_keyed {t : Text} {value : Value} (h : document? t = some value) :
    value.Keyed := by
  obtain ⟨entries, hentries, h⟩ := Option.bind_eq_some_iff.mp h
  exact resolve?_keyed h ((lines?_keyed hentries Table.keyed_nil).table _)

end SqfMinifier.Toml
