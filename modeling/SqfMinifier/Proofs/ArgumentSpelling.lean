import SqfMinifier.CommandLine.Arguments
import Mathlib.Data.List.Nodup

/-!
Every invocation that makes sense can be asked for: with its values attached to their options, then
its flags, and its paths behind `--`, where nothing is taken for an option. Reading these arguments
gives the invocation back.
-/

namespace SqfMinifier

namespace Valued

def word : Valued → Text
  | code => "code".toList
  | config => "config".toList
  | emit => "emit".toList

theorem ofLong?_word (option : Valued) : ofLong? option.word = some option := by
  cases option <;> decide

end Valued

namespace Flag

def word : Flag → Text
  | defaultOutput => "default-output".toList
  | stringAware => "string-aware".toList
  | help => "help".toList
  | version => "version".toList

theorem ofLong?_word (flag : Flag) : ofLong? flag.word = some flag := by
  cases flag <;> decide

theorem valued_ofLong?_word (flag : Flag) : Valued.ofLong? flag.word = none := by
  cases flag <;> decide

end Flag

namespace Arguments

def spellValue (option : Valued) (value : Text) : Text :=
  '-' :: '-' :: option.word ++ '=' :: value

def spellFlag (flag : Flag) : Text := '-' :: '-' :: flag.word

theorem splitAtEquals_append {name : Text} (h : '=' ∉ name) (value : Text) :
    splitAtEquals (name ++ '=' :: value) = (name, some value) := by
  have hname : ∀ c ∈ name, (c != '=') = true := by
    intro c hc
    have hne : c ≠ '=' := by
      rintro rfl
      exact h hc
    simpa using hne
  have hdrop : (name ++ '=' :: value).dropWhile (· != '=') = '=' :: value := by
    rw [List.dropWhile_append_of_pos hname]
    rfl
  have htake : (name ++ '=' :: value).takeWhile (· != '=') = name := by
    rw [List.takeWhile_append_of_pos hname]
    simp
  rw [splitAtEquals, hdrop, htake]

theorem settle_of_nothing {s : State} (h : s.pending = .nothing) : settle s = .ok s := by
  obtain ⟨values, flags, paths, codeFirst, pending, onlyPaths⟩ := s
  obtain rfl : pending = .nothing := h
  rfl

structure Open (s : State) : Prop where
  settled : s.pending = .nothing
  options : s.onlyPaths = false

theorem open_initial : Open State.initial := ⟨rfl, rfl⟩

theorem accept_long {s : State} (h : Open s) (c : Char) (body : Text) :
    accept s ('-' :: '-' :: c :: body) = acceptLong s (c :: body) := by
  simp [accept, h.options]

/-- `t` has settled more options than `s`, and is ready for more of them. -/
structure Settles (s : State) (values : List (Valued × Text)) (flags : List Flag) (t : State) :
    Prop where
  values : t.values = s.values ++ values
  flags : t.flags = s.flags ++ flags
  paths : t.paths = s.paths
  ready : Open t

theorem accept_spellValue {s : State} (h : Open s) {option : Valued} {value : Text}
    (hnew : s.value? option = none) (hnamed : option = .config → value ≠ []) :
    ∃ t, accept s (spellValue option value) = .ok t ∧ Settles s [(option, value)] [] t := by
  have hsplit : splitAtEquals (option.word ++ '=' :: value) = (option.word, some value) := by
    apply splitAtEquals_append
    cases option <;> decide
  have haccept : accept s (spellValue option value) = acceptValue s option value := by
    have hlong : accept s (spellValue option value) =
        acceptLong s (option.word ++ '=' :: value) := by
      cases option <;> exact accept_long h _ _
    rw [hlong, acceptLong, hsplit]
    simp [Valued.ofLong?_word, acceptOption, settle_of_nothing h.settled, bind, Except.bind]
  have hvalue : (decide (option = .config) && decide (value = [])) = false := by
    by_cases hc : option = .config
    · simp [hnamed hc]
    · simp [hc]
  rw [haccept, acceptValue, hnew, hvalue]
  exact ⟨_, rfl, rfl, (List.append_nil _).symm, rfl, h.settled, h.options⟩

theorem accept_spellFlag {s : State} (h : Open s) {flag : Flag}
    (hkept : flag = .defaultOutput ∨ flag = .stringAware) (hnew : flag ∉ s.flags) :
    ∃ t, accept s (spellFlag flag) = .ok t ∧ Settles s [] [flag] t := by
  have haccept : accept s (spellFlag flag) = .ok { s with flags := s.flags ++ [flag] } := by
    have hlong : accept s (spellFlag flag) = acceptLong s flag.word := by
      cases flag <;> exact accept_long h _ _
    have hsplit : splitAtEquals flag.word = (flag.word, none) := by
      cases flag <;> decide
    rw [hlong, acceptLong, hsplit]
    simp only [Flag.valued_ofLong?_word, Flag.ofLong?_word, acceptFlag,
      settle_of_nothing h.settled, bind, Except.bind]
    rcases hkept with rfl | rfl <;> simp [hnew]
  exact ⟨_, haccept, (List.append_nil _).symm, rfl, rfl, h.settled, h.options⟩

theorem Settles.trans {s t u : State} {values more : List (Valued × Text)}
    {flags others : List Flag} (h : Settles s values flags t) (k : Settles t more others u) :
    Settles s (values ++ more) (flags ++ others) u where
  values := by rw [k.values, h.values, List.append_assoc]
  flags := by rw [k.flags, h.flags, List.append_assoc]
  paths := k.paths.trans h.paths
  ready := k.ready

theorem Settles.value? {s t : State} {values : List (Valued × Text)} {flags : List Flag}
    (h : Settles s values flags t) (option : Valued) :
    t.value? option = (s.value? option).or (values.lookup option) := by
  rw [State.value?, h.values, List.lookup_append]
  rfl

theorem foldlM_spellValue {s : State} (h : Open s) {values : List (Valued × Text)}
    (honce : (values.map Prod.fst).Nodup) (hnew : ∀ x ∈ values, s.value? x.1 = none)
    (hnamed : ∀ x ∈ values, x.1 = .config → x.2 ≠ []) :
    ∃ t, (values.map fun x => spellValue x.1 x.2).foldlM accept s = .ok t ∧
      Settles s values [] t := by
  induction values generalizing s with
  | nil => exact ⟨s, rfl, by simp, by simp, rfl, h⟩
  | cons x values ih =>
    rw [List.map_cons, List.nodup_cons] at honce
    rw [List.forall_mem_cons] at hnew hnamed
    obtain ⟨t, haccept, ht⟩ := accept_spellValue h hnew.1 hnamed.1
    have hrest : ∀ y ∈ values, t.value? y.1 = none := by
      intro y hy
      have hne : (y.1 == x.1) = false := by
        rw [beq_eq_false_iff_ne]
        intro heq
        exact honce.1 (heq ▸ List.mem_map_of_mem hy)
      rw [ht.value?, hnew.2 y hy, List.lookup_cons, hne]
      rfl
    obtain ⟨u, hfold, hu⟩ := ih ht.ready honce.2 hrest hnamed.2
    refine ⟨u, ?_, by simpa using ht.trans hu⟩
    rw [List.map_cons, List.foldlM_cons, haccept]
    exact hfold

theorem foldlM_spellFlag {s : State} (h : Open s) {flags : List Flag}
    (hkept : ∀ flag ∈ flags, flag = .defaultOutput ∨ flag = .stringAware) (honce : flags.Nodup)
    (hnew : ∀ flag ∈ flags, flag ∉ s.flags) :
    ∃ t, (flags.map spellFlag).foldlM accept s = .ok t ∧ Settles s [] flags t := by
  induction flags generalizing s with
  | nil => exact ⟨s, rfl, by simp, by simp, rfl, h⟩
  | cons flag flags ih =>
    rw [List.forall_mem_cons] at hkept hnew
    rw [List.nodup_cons] at honce
    obtain ⟨t, haccept, ht⟩ := accept_spellFlag h hkept.1 hnew.1
    have hrest : ∀ other ∈ flags, other ∉ t.flags := by
      intro other hother
      have hne : other ≠ flag := by
        rintro rfl
        exact honce.1 hother
      simp [ht.flags, hnew.2 other hother, hne]
    obtain ⟨u, hfold, hu⟩ := ih ht.ready hkept.2 honce.2 hrest
    refine ⟨u, ?_, by simpa using ht.trans hu⟩
    rw [List.map_cons, List.foldlM_cons, haccept]
    exact hfold

theorem foldlM_paths {s : State} (honly : s.onlyPaths = true) {before : List Text}
    (hpending : s.pending = .paths before) (paths : List Text) :
    paths.foldlM accept s = .ok { s with pending := .paths (before ++ paths) } := by
  induction paths generalizing s before with
  | nil =>
    rw [List.append_nil, ← hpending]
    rfl
  | cons path paths ih =>
    have haccept : accept s path = .ok { s with pending := .paths (before ++ [path]) } := by
      simp [accept, honly, acceptWord, acceptPath, hpending]
    rw [List.foldlM_cons, haccept]
    refine (ih (s := { s with pending := .paths (before ++ [path]) }) honly rfl).trans ?_
    simp

theorem settle_paths {s : State} (honly : s.onlyPaths = true) (hpending : s.pending = .nothing)
    {paths : List Text} (hnamed : [] ∉ paths) :
    ∃ t, paths.foldlM accept s = .ok t ∧ settle t = .ok { s with paths := s.paths ++ paths } := by
  cases paths with
  | nil => exact ⟨s, rfl, by simp [settle_of_nothing hpending]⟩
  | cons path paths =>
    have hsettle := settle_of_nothing hpending
    have haccept : accept s path = .ok { s with pending := .paths [path] } := by
      simp [accept, honly, acceptWord, acceptPath, hpending, hsettle, bind, Except.bind]
    refine ⟨{ s with pending := .paths ([path] ++ paths) }, ?_, ?_⟩
    · rw [List.foldlM_cons, haccept]
      exact foldlM_paths (s := { s with pending := .paths [path] }) honly rfl paths
    · simp [settle, hnamed, hpending]

/-- Files have names, and inline code has no place beside which its output could go. -/
structure Sensible (i : Invocation) : Prop where
  paths : [] ∉ i.paths
  config : i.config ≠ some []
  output : i.code = none ∨ i.defaultOutput = false

def values (i : Invocation) : List (Valued × Text) :=
  (i.config.map (Valued.config, ·)).toList ++ (i.emit.map (Valued.emit, ·)).toList ++
    (i.code.map (Valued.code, ·)).toList

def flags (i : Invocation) : List Flag :=
  (if i.stringAware then [.stringAware] else []) ++
    if i.defaultOutput then [.defaultOutput] else []

/-- Arguments that ask for an invocation. -/
def spell (i : Invocation) : List Text :=
  (values i).map (fun x => spellValue x.1 x.2) ++ (flags i).map spellFlag ++ ['-', '-'] :: i.paths

theorem values_once (i : Invocation) : ((values i).map Prod.fst).Nodup := by
  unfold values
  cases i.config <;> cases i.emit <;> cases i.code <;> simp

theorem flags_once (i : Invocation) : (flags i).Nodup := by
  unfold flags
  cases i.stringAware <;> cases i.defaultOutput <;> simp

theorem lookup_values (i : Invocation) :
    (values i).lookup .config = i.config ∧ (values i).lookup .emit = i.emit ∧
      (values i).lookup .code = i.code := by
  unfold values
  cases i.config <;> cases i.emit <;> cases i.code <;> exact ⟨rfl, rfl, rfl⟩

theorem contains_flags (i : Invocation) :
    (flags i).contains .stringAware = i.stringAware ∧
      (flags i).contains .defaultOutput = i.defaultOutput := by
  unfold flags
  cases i.stringAware <;> cases i.defaultOutput <;> decide

theorem values_named {i : Invocation} (h : i.config ≠ some []) :
    ∀ x ∈ values i, x.1 = .config → x.2 ≠ [] := by
  rintro ⟨option, value⟩ hx rfl rfl
  have hconfig : i.config = some [] := by simpa [values] using hx
  exact h hconfig

theorem flags_kept (i : Invocation) :
    ∀ flag ∈ flags i, flag = .defaultOutput ∨ flag = .stringAware := by
  unfold flags
  cases i.stringAware <;> cases i.defaultOutput <;> simp

/-- Reading the arguments that ask for an invocation gives it back. -/
theorem parse_spell {i : Invocation} (h : Sensible i) : parse (spell i) = .ok i := by
  obtain ⟨s, hvalues, hs⟩ :=
    foldlM_spellValue open_initial (values_once i) (fun _ _ => rfl) (values_named h.config)
  obtain ⟨t, hflags, ht⟩ :=
    foldlM_spellFlag hs.ready (flags_kept i) (flags_once i) (by simp [hs.flags, State.initial])
  obtain ⟨u, hpaths, hu⟩ :=
    settle_paths (s := { t with onlyPaths := true }) rfl ht.ready.settled h.paths
  have hdashes : accept t ['-', '-'] = .ok { t with onlyPaths := true } := by
    simp [accept, ht.ready.options]
  have hfold : (spell i).foldlM accept State.initial = .ok u := by
    rw [spell, List.foldlM_append, List.foldlM_append, hvalues]
    simp only [bind, Except.bind, hflags]
    rw [List.foldlM_cons, hdashes]
    exact hpaths
  have hall := hs.trans ht
  rw [List.append_nil, List.nil_append] at hall
  obtain ⟨hconfig, hemit, hcode⟩ := lookup_values i
  obtain ⟨haware, hdefault⟩ := contains_flags i
  rw [parse, hfold]
  simp only [bind, Except.bind]
  rw [finish, hu]
  have hfree : (i.code.isSome && i.defaultOutput) = false := by
    rcases h.output with hcode | hdefault <;> simp [*]
  simp only [bind, Except.bind, State.value?, hall.values, hall.flags, hall.paths, State.initial,
    List.nil_append, hconfig, hemit, hcode, haware, hdefault, hfree]
  rfl

end Arguments

end SqfMinifier
