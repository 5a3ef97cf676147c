import LlmMcp.Backends
import LlmMcp.Support
import LlmMcp.Clarification

/-!
# Reading a builder's tokens back

Each backend subcommand accepts the options and positional parameters `backendSurface` states,
and every branch's builder writes exactly those (`Server.readsBack`). On every map well typed
against a tool's schema, on which `str` raises nothing, a builder's tokens decode back to the map
with its blank values left out (`ArgMap.canonical`: the builders write nothing for a `false`
boolean or an empty `vars`) exactly when

* no positional token starts with `-`, which the backend would take for an option,
* no `vars` key holds `=`, where the backend splits the `k=v` token,
* no integer parameter is given as a `float`: JSON Schema takes `3.0` for an integer, and the
  builder writes `--depth 3.0`, which the backend cannot read as one, and
* the `validate_plan` path, when given, is not empty: `args.get("path") or args.get("plan_path")`
  drops an empty string.

`decode_canonical_iff` is the statement for one builder, and `tokens_decode_iff_readable` for
every tool of both servers; `grep_dash_pattern_misread` is a grep pattern read as an option.

The proof reads one statement's tokens at a time (`Step.read_emit`), from any state that agrees
with what the backend should have read so far, then gives the positional tokens to the
positional parameters (`assign_run`). The other direction rests on what a decoded map can hold
(`decodeArgs_shape`).
-/

namespace LlmMcp

/-! ## Blank values -/

/-- A `false` boolean and an empty dict: the builders write nothing for them. -/
def Value.isBlank : Value → Bool
  | .bool b => !b
  | .dict entries => entries.isEmpty
  | _ => false

/-- The map as a command line can carry it: blank values left out. -/
def ArgMap.canonical (args : ArgMap) : Fields :=
  args.entries.filter fun e => !e.2.isBlank

theorem ArgMap.canonical_lookup (args : ArgMap) (k : String) :
    args.canonical.lookup k = (args.get? k).filter fun v => !v.isBlank :=
  lookup_filter_values (fun v : Value => !v.isBlank) args.keys_nodup k

/-! ## What a builder tells the backend -/

namespace Step

/-- The options the statement writes: name, the parameter it sets, how its value is read. -/
def options : Step → List (String × String × OptionKind)
  | option key name | eitherOption key _ name => [(name, key, .text)]
  | intOption key name => [(name, key, .integer)]
  | flag key name => [(name, key, .switch)]
  | vars key name => [(name, key, .pair)]
  | always name => [(name, "", .ignored)]
  | positional _ | positionals _ => []

/-- The positional parameter the statement fills; `true` when it takes every remaining
positional token. -/
def slots : Step → List (String × Bool)
  | positional key => [(key, false)]
  | positionals key => [(key, true)]
  | _ => []

/-- The parameter an option of the statement sets. -/
def optionKeys : Step → List String
  | option key _ | intOption key _ | flag key _ | vars key _ | eitherOption key _ _ => [key]
  | _ => []

def slotKeys (s : Step) : List String := s.slots.map Prod.fst

/-- The tokens the statement writes as positional tokens. -/
def bare (py : Interp) (args : ArgMap) (s : Step) : List String :=
  if s.slots.isEmpty then [] else s.emit py args

/-- What the backend sets the statement's option parameter to. -/
def written (args : ArgMap) : Step → Option Value
  | option key _ | intOption key _ => args.get? key
  | flag key _ => if (args.get key).truthy then some (.bool true) else none
  | vars key _ => (args.get? key).filter fun v => !v.isBlank
  | eitherOption key _ _ => (args.get? key).filter Value.truthy
  | _ => none

/-- The value of the statement's positional parameter. -/
def slotValue (args : ArgMap) : Step → Option Value
  | positional key | positionals key => args.get? key
  | _ => none

/-- The backend reads the statement's tokens as written: its positional tokens are not taken
for options, the keys of its `k=v` tokens hold no `=`, and an integer option is not given a
`float`, whose text no integer option reads. -/
def clean (py : Interp) (args : ArgMap) (s : Step) : Bool :=
  (s.bare py args).all (fun t => !isOptionToken t) &&
    match s with
    | vars key _ =>
        match args.get? key with
        | some (.dict entries) => entries.all fun e => !e.1.data.contains '='
        | _ => true
    | intOption key _ =>
        match args.get? key with
        | some (.float _) => false
        | _ => true
    | _ => true

/-- A value given to an `eitherOption` is written, that is, it is truthy. -/
def keepsValue (args : ArgMap) : Step → Bool
  | eitherOption key _ _ =>
      match args.get? key with
      | some v => v.truthy
      | none => true
  | _ => true

theorem options_key {s : Step} {e : String × String × OptionKind} (option : e ∈ s.options) :
    e.2.2 = .ignored ∨ e.2.1 ∈ s.optionKeys := by
  cases s <;> simp_all [options, optionKeys]

theorem bare_of_slots {py : Interp} {args : ArgMap} {s : Step} (slotless : s.slots = []) :
    s.bare py args = [] := by
  simp [bare, slotless]

end Step

/-- The command line of a subcommand as the backend reads it, taken from its builder. -/
def surfaceOf (steps : List Step) : Surface :=
  ⟨steps.flatMap Step.options, steps.flatMap Step.slots⟩

/-- What the backend reads for each parameter the builder writes. -/
def readValues (args : ArgMap) (steps : List Step) : List (String × Option Value) :=
  steps.flatMap (fun s => s.optionKeys.map fun k => (k, s.written args)) ++
    steps.flatMap fun s => s.slotKeys.map fun k => (k, s.slotValue args)

theorem readValues_keys (args : ArgMap) (steps : List Step) :
    (readValues args steps).map Prod.fst =
      steps.flatMap Step.optionKeys ++ steps.flatMap Step.slotKeys := by
  simp [readValues, List.map_flatMap, Function.comp_def]

/-- What the round trip needs of a builder and its schema: the statements read declared
parameters, option names are distinct and start with `-`, no parameter is written twice, every
declared parameter is written, positional parameters are required, and only the last one takes
a list. -/
structure Readback (spec : ToolSpec) (steps : List Step) : Prop where
  conforms : ∀ s ∈ steps, s.conforms spec = true
  names_nodup : ((steps.flatMap Step.options).map Prod.fst).Nodup
  names_dash : ∀ e ∈ steps.flatMap Step.options, isOptionToken e.1 = true
  keys_nodup : (steps.flatMap Step.optionKeys ++ steps.flatMap Step.slotKeys).Nodup
  covers : ∀ p ∈ spec.params,
    p.name ∈ steps.flatMap Step.optionKeys ++ steps.flatMap Step.slotKeys
  slots_required : ∀ e ∈ steps.flatMap Step.slots,
    ∃ p ∈ spec.params, p.name = e.1 ∧ p.required = true
  list_last : ∀ e ∈ (steps.flatMap Step.slots).dropLast, e.2 = false

instance (spec : ToolSpec) (steps : List Step) : Decidable (Readback spec steps) :=
  decidable_of_iff (_ ∧ _ ∧ _ ∧ _ ∧ _ ∧ _ ∧ _)
    ⟨fun ⟨a, b, c, d, e, f, g⟩ => ⟨a, b, c, d, e, f, g⟩,
      fun ⟨a, b, c, d, e, f, g⟩ => ⟨a, b, c, d, e, f, g⟩⟩

/-! ## Agreement with what should be read -/

/-- The fields read so far agree with `expect` on the parameters in `done` and hold nothing
else. -/
def Agrees (expect : String → Option Value) (done : List String) (fs : Fields) : Prop :=
  ∀ k, fs.lookup k = if k ∈ done then expect k else none

section Agrees

variable {expect : String → Option Value} {done : List String} {fs : Fields} {key : String}

theorem Agrees.start (expect : String → Option Value) : Agrees expect [] [] := fun k => by simp

theorem Agrees.fresh (agrees : Agrees expect done fs) (fresh : key ∉ done) :
    fs.lookup key = none := by
  simp [agrees key, fresh]

theorem Agrees.set (agrees : Agrees expect done fs) {v : Value} (value : expect key = some v) :
    Agrees expect (done ++ [key]) (fs.set key v) := fun k => by
  by_cases same : k = key
  · subst same
    simp [value]
  · simp [agrees k, same]

theorem Agrees.skip (agrees : Agrees expect done fs) (value : expect key = none) :
    Agrees expect (done ++ [key]) fs := fun k => by
  by_cases same : k = key
  · subst same
    simp [agrees k, value]
  · simp [agrees k, same]

end Agrees

/-! ## One statement at a time -/

/-- The `--var` tokens of a dict of strings are read back into the dict, when no key holds
`=`. -/
theorem readTokens_vars (py : Interp) {surf : Surface} {name key : String}
    (found : surf.options.lookup name = some (key, .pair) ∧ isOptionToken name = true) :
    ∀ {entries : List (String × Value)}, entries.all (·.2.isStr) = true →
      (∀ e ∈ entries, '=' ∉ e.1.data) → ∀ (fs : Fields) rest pos,
      readTokens surf ((entries.flatMap fun e => [name, e.1 ++ "=" ++ e.2.text py]) ++ rest) fs pos =
        readTokens surf rest
          (if entries.isEmpty then fs else fs.set key (.dict (fs.pairs key ++ entries))) pos
  | [], _, _, fs, rest, pos => by simp
  | (k, v) :: more, strings, noEq, fs, rest, pos => by
      simp only [List.all_cons, Bool.and_eq_true] at strings
      simp only [List.forall_mem_cons] at noEq
      have pair : fs.take key .pair (k ++ "=" ++ v.text py) =
          some (fs.set key (.dict (fs.pairs key ++ [(k, .str (v.text py))]))) := by
        simp [Fields.take, splitAssignment_append noEq.1]
      rw [List.flatMap_cons, List.append_assoc, readTokens_option found (by decide) _ pair,
        readTokens_vars py found strings.2 noEq.2, ← Value.eq_str_text py strings.1]
      cases more <;> simp

section Read

variable {py : Interp} {spec : ToolSpec} {steps : List Step} {args : ArgMap}

theorem Readback.lookup_option (wf : Readback spec steps) {s : Step} (mem : s ∈ steps)
    {e : String × String × OptionKind} (option : e ∈ s.options) :
    (surfaceOf steps).options.lookup e.1 = some e.2 ∧ isOptionToken e.1 = true :=
  have listed := List.mem_flatMap.mpr ⟨s, mem, option⟩
  ⟨lookup_of_mem wf.names_nodup listed, wf.names_dash e listed⟩

section Statement

variable {surf : Surface} {expect : String → Option Value} {done : List String} {fs : Fields}
  {key : String}

/-- A statement that writes nothing for its option reads nothing. -/
theorem Step.read_silent (s : Step) (py : Interp) (args : ArgMap) (agrees : Agrees expect done fs)
    (keys : s.optionKeys = [key]) (silent : s.emit py args = []) (slotless : s.slots = [])
    (value : expect key = none) :
    ∃ fs', Agrees expect (done ++ s.optionKeys) fs' ∧ ∀ rest pos,
      readTokens surf (s.emit py args ++ rest) fs pos =
        readTokens surf rest fs' (pos ++ s.bare py args) :=
  ⟨fs, keys ▸ agrees.skip value, fun rest pos => by simp [silent, Step.bare, slotless]⟩

/-- A statement that writes a value option and its text sets the option's parameter. -/
theorem Step.read_pair (s : Step) (py : Interp) (args : ArgMap) (text : String) {name : String}
    {kind : OptionKind} {v : Value} (agrees : Agrees expect done fs) (keys : s.optionKeys = [key])
    (emitted : s.emit py args = [name, text]) (slotless : s.slots = [])
    (named : surf.options.lookup name = some (key, kind) ∧ isOptionToken name = true)
    (takes : kind ≠ .switch ∧ kind ≠ .ignored) (value : expect key = some v)
    (taken : fs.take key kind text = some (fs.set key v)) :
    ∃ fs', Agrees expect (done ++ s.optionKeys) fs' ∧ ∀ rest pos,
      readTokens surf (s.emit py args ++ rest) fs pos =
        readTokens surf rest fs' (pos ++ s.bare py args) :=
  ⟨fs.set key v, keys ▸ agrees.set value, fun rest pos => by
    rw [emitted, readTokens_option named takes text taken, Step.bare_of_slots slotless,
      List.append_nil]⟩

end Statement

/-- One statement's tokens, read from any state that agrees with `expect`: its option
parameter gets what `written` says, its positional tokens are kept for the slots. -/
theorem Step.read_emit (wf : Readback spec steps) (typed : KindCorrect spec args) {s : Step}
    (mem : s ∈ steps) (clean : s.clean py args = true) {expect : String → Option Value}
    {done : List String} {fs : Fields} (agrees : Agrees expect done fs)
    (fresh : ∀ k ∈ s.optionKeys, k ∉ done) (writes : ∀ k ∈ s.optionKeys, expect k = s.written args) :
    ∃ fs', Agrees expect (done ++ s.optionKeys) fs' ∧ ∀ rest pos,
      readTokens (surfaceOf steps) (s.emit py args ++ rest) fs pos =
        readTokens (surfaceOf steps) rest fs' (pos ++ s.bare py args) := by
  have conforming := wf.conforms s mem
  have found := fun e (option : e ∈ s.options) => wf.lookup_option mem option
  cases s with
  | option key name =>
      simp only [Step.optionKeys, List.mem_singleton, forall_eq] at writes
      simp only [Step.conforms, beq_iff_eq] at conforming
      cases value : args.get? key with
      | none =>
          exact (Step.option key name).read_silent py args agrees rfl
            (by simp [Step.emit, value]) rfl
            (by simpa [Step.written, value] using writes)
      | some v =>
          obtain ⟨x, rfl⟩ := Value.str_of_hasKind (typed.hasKind conforming value)
          exact (Step.option key name).read_pair py args x agrees rfl
            (by simp [Step.emit, value, Value.text]) rfl
            (found (name, key, .text) (by simp [Step.options])) (by decide)
            (by simpa [Step.written, value] using writes) rfl
  | intOption key name =>
      simp only [Step.optionKeys, List.mem_singleton, forall_eq] at writes
      simp only [Step.conforms, beq_iff_eq] at conforming
      cases value : args.get? key with
      | none =>
          exact (Step.intOption key name).read_silent py args agrees rfl
            (by simp [Step.emit, value]) rfl
            (by simpa [Step.written, value] using writes)
      | some v =>
          obtain ⟨i, rfl⟩ : ∃ i, v = .int i := by
            rcases Value.number_of_hasKind (typed.hasKind conforming value) with int | ⟨x, rfl, -⟩
            · exact int
            · simp [Step.clean, value] at clean
          exact (Step.intOption key name).read_pair py args (toString i) agrees rfl
            (by simp [Step.emit, value, Value.text, Value.repr]) rfl
            (found (name, key, .integer) (by simp [Step.options])) (by decide)
            (by simpa [Step.written, value] using writes) (by simp [Fields.take, readInt_toString])
  | positional key | positionals key =>
      simp only [Step.clean, Step.bare, Step.slots, List.isEmpty_cons, Bool.false_eq_true, if_false,
        Bool.and_true, List.all_eq_true, Bool.not_eq_eq_eq_not, Bool.not_true] at clean
      refine ⟨fs, by simpa [Step.optionKeys] using agrees, fun rest pos => ?_⟩
      simp only [Step.bare, Step.slots, List.isEmpty_cons, Bool.false_eq_true, if_false]
      exact readTokens_bares clean
  | flag key name =>
      simp only [Step.optionKeys, List.mem_singleton, forall_eq] at writes
      have named := found (name, key, .switch) (by simp [Step.options])
      by_cases enabled : (args.get key).truthy
      · refine ⟨fs.set key (.bool true), agrees.set (by simpa [Step.written, enabled] using writes),
          fun rest pos => ?_⟩
        simp only [Step.emit, Step.bare, Step.slots, enabled, if_true, List.isEmpty_nil,
          List.append_nil, List.singleton_append]
        exact readTokens_switch named.2 named.1
      · exact (Step.flag key name).read_silent py args agrees rfl (by simp [Step.emit, enabled]) rfl
          (by simpa [Step.written, enabled] using writes)
  | vars key name =>
      simp only [Step.optionKeys, List.mem_singleton, forall_eq] at writes fresh
      simp only [Step.conforms, beq_iff_eq] at conforming
      cases value : args.get? key with
      | none =>
          exact (Step.vars key name).read_silent py args agrees rfl (by simp [Step.emit, value]) rfl
            (by simpa [Step.written, value] using writes)
      | some v =>
          obtain ⟨entries, rfl, strings⟩ := Value.dict_of_hasKind (typed.hasKind conforming value)
          by_cases empty : entries.isEmpty
          · exact (Step.vars key name).read_silent py args agrees rfl
              (by simp [Step.emit, value, List.isEmpty_iff.mp empty]) rfl
              (by simpa [Step.written, value, Value.isBlank, empty, Option.filter] using writes)
          · have noEq : ∀ e ∈ entries, '=' ∉ e.1.data := by
              simpa [Step.clean, Step.bare, Step.slots, value] using clean
            have unset : fs.pairs key = [] := by simp [Fields.pairs, agrees.fresh fresh]
            have loop := readTokens_vars py (found (name, key, .pair) (by simp [Step.options]))
              strings noEq fs
            refine ⟨fs.set key (.dict entries), agrees.set (by simpa [Step.written, value,
              Value.isBlank, empty, Option.filter] using writes), fun rest pos => ?_⟩
            simpa [Step.emit, Step.bare, Step.slots, value, empty, unset] using loop rest pos
  | always name =>
      have named := found (name, "", .ignored) (by simp [Step.options])
      refine ⟨fs, by simpa [Step.optionKeys] using agrees, fun rest pos => ?_⟩
      simp only [Step.emit, Step.bare, Step.slots, List.isEmpty_nil, if_true, List.append_nil,
        List.singleton_append]
      exact readTokens_ignored named.2 named.1
  | eitherOption key legacy name =>
      simp only [Step.optionKeys, List.mem_singleton, forall_eq] at writes
      simp only [Step.conforms, Bool.and_eq_true, beq_iff_eq] at conforming
      cases value : args.get? key with
      | none =>
          exact (Step.eitherOption key legacy name).read_silent py args agrees rfl
            (by simp [Step.emit, ArgMap.get, value, Value.truthy]) rfl
            (by simpa [Step.written, value] using writes)
      | some v =>
          obtain ⟨x, rfl⟩ := Value.str_of_hasKind (typed.hasKind conforming.1 value)
          by_cases empty : x.isEmpty
          · exact (Step.eitherOption key legacy name).read_silent py args agrees rfl
              (by simp [Step.emit, ArgMap.get, value, Value.truthy, empty]) rfl
              (by simpa [Step.written, value, Value.truthy, empty, Option.filter] using writes)
          · exact (Step.eitherOption key legacy name).read_pair py args x agrees rfl
              (by simp [Step.emit, ArgMap.get, value, Value.truthy, Value.text, empty]) rfl
              (found (name, key, .text) (by simp [Step.options])) (by decide)
              (by simpa [Step.written, value, Value.truthy, empty, Option.filter] using writes) rfl

/-- A run of statements: each reads its own tokens. -/
theorem read_emit_run (wf : Readback spec steps) (typed : KindCorrect spec args)
    {expect : String → Option Value} :
    ∀ {pre : List Step}, (∀ s ∈ pre, s ∈ steps) → (∀ s ∈ pre, s.clean py args = true) →
      (∀ s ∈ pre, ∀ k ∈ s.optionKeys, expect k = s.written args) →
      ∀ {done : List String} {fs : Fields}, (done ++ pre.flatMap Step.optionKeys).Nodup →
      Agrees expect done fs →
      ∃ fs', Agrees expect (done ++ pre.flatMap Step.optionKeys) fs' ∧ ∀ rest pos,
        readTokens (surfaceOf steps) (pre.flatMap (Step.emit py args) ++ rest) fs pos =
          readTokens (surfaceOf steps) rest fs' (pos ++ pre.flatMap (Step.bare py args))
  | [], _, _, _, _, fs, _, agrees => ⟨fs, by simpa using agrees, fun rest pos => by simp⟩
  | s :: more, inSteps, clean, writes, done, fs, distinct, agrees => by
      simp only [List.forall_mem_cons] at inSteps clean writes
      simp only [List.flatMap_cons] at distinct ⊢
      have fresh : ∀ k ∈ s.optionKeys, k ∉ done := fun k mem absent =>
        (List.nodup_append.mp distinct).2.2 absent (List.mem_append_left _ mem)
      obtain ⟨fs₁, agrees₁, read₁⟩ := s.read_emit wf typed inSteps.1 clean.1 agrees fresh writes.1
      obtain ⟨fs₂, agrees₂, read₂⟩ := read_emit_run wf typed inSteps.2 clean.2 writes.2
        (by simpa only [List.append_assoc] using distinct) agrees₁
      refine ⟨fs₂, by simpa only [List.append_assoc] using agrees₂, fun rest pos => ?_⟩
      rw [List.append_assoc, read₁, read₂, List.append_assoc]

theorem mem_dropLast_of_cons {α : Type} {a : α} {l : List α} {e : α} (mem : e ∈ l.dropLast) :
    e ∈ (a :: l).dropLast := by
  cases l with
  | nil => simp at mem
  | cons b l => exact List.mem_cons_of_mem a mem

/-- The positional tokens fill the positional parameters. -/
theorem assign_run (wf : Readback spec steps) (typed : WellTyped spec args)
    {expect : String → Option Value} :
    ∀ {pre : List Step}, (∀ s ∈ pre, s ∈ steps) →
      (∀ e ∈ (pre.flatMap Step.slots).dropLast, e.2 = false) →
      (∀ s ∈ pre, ∀ k ∈ s.slotKeys, expect k = s.slotValue args) →
      ∀ {done : List String} {fs : Fields}, Agrees expect done fs →
      ∃ fs', assign (pre.flatMap Step.slots) (pre.flatMap (Step.bare py args)) fs = some fs' ∧
        Agrees expect (done ++ pre.flatMap Step.slotKeys) fs'
  | [], _, _, _, _, fs, agrees => ⟨fs, by simp [assign], by simpa using agrees⟩
  | s :: more, inSteps, lastList, fills, done, fs, agrees => by
      simp only [List.forall_mem_cons] at inSteps fills
      have required := fun e (slot : e ∈ s.slots) =>
        wf.slots_required e (List.mem_flatMap.mpr ⟨s, inSteps.1, slot⟩)
      have conforming := wf.conforms s inSteps.1
      simp only [List.flatMap_cons] at lastList ⊢
      cases s with
      | positional key =>
          obtain ⟨p, listed, named, isRequired⟩ := required (key, false) (by simp [Step.slots])
          obtain ⟨v, value⟩ := ArgMap.contains_iff.mp (named ▸ typed.2 p listed isRequired)
          simp only [Step.conforms, beq_iff_eq] at conforming
          obtain ⟨x, rfl⟩ := Value.str_of_hasKind (typed.1.hasKind conforming value)
          have agrees₁ := agrees.set (show expect key = some (.str x) by
            simpa [Step.slotKeys, Step.slots, Step.slotValue, value] using fills.1)
          obtain ⟨fs', assigned, agrees'⟩ := assign_run wf typed inSteps.2
            (fun e mem => lastList e (mem_dropLast_of_cons mem)) fills.2 agrees₁
          refine ⟨fs', ?_, by simpa [Step.slotKeys, Step.slots] using agrees'⟩
          simpa [Step.slots, Step.bare, Step.emit, value, Value.text, assign] using assigned
      | positionals key =>
          obtain ⟨p, listed, named, isRequired⟩ := required (key, true) (by simp [Step.slots])
          obtain ⟨v, value⟩ := ArgMap.contains_iff.mp (named ▸ typed.2 p listed isRequired)
          simp only [Step.conforms, beq_iff_eq] at conforming
          obtain ⟨items, rfl, strings⟩ := Value.list_of_hasKind (typed.1.hasKind conforming value)
          have slotless : ∀ s ∈ more, s.slots = [] := by
            intro s mem
            cases later : more.flatMap Step.slots with
            | nil => exact List.flatMap_eq_nil_iff.mp later s mem
            | cons e es =>
                have := lastList (key, true) (by simp [Step.slots, later])
                simp at this
          have noBare : more.flatMap (Step.bare py args) = [] :=
            List.flatMap_eq_nil_iff.mpr fun s mem => Step.bare_of_slots (slotless s mem)
          have noSlots : more.flatMap Step.slots = [] := List.flatMap_eq_nil_iff.mpr slotless
          have noKeys : more.flatMap Step.slotKeys = [] :=
            List.flatMap_eq_nil_iff.mpr fun s mem => by simp [Step.slotKeys, slotless s mem]
          refine ⟨fs.set key (.list items), ?_, ?_⟩
          · simp [Step.slots, Step.bare, Step.emit, value, noBare, noSlots, assign,
              Value.str_text_of_all_isStr py strings]
          · simpa [Step.slotKeys, Step.slots, noKeys] using
              agrees.set (by simpa [Step.slotKeys, Step.slots, Step.slotValue, value] using fills.1)
      | _ =>
          have rest := assign_run wf typed inSteps.2 (by simpa [Step.slots] using lastList)
            fills.2 agrees
          simpa [Step.slots, Step.slotKeys, Step.bare] using rest

/-- A builder's tokens decode to `expect` on every parameter the builder writes, and to nothing
elsewhere. -/
theorem decode_emit (wf : Readback spec steps) (typed : WellTyped spec args)
    (clean : ∀ s ∈ steps, s.clean py args = true) (expect : String → Option Value)
    (writes : ∀ s ∈ steps, ∀ k ∈ s.optionKeys, expect k = s.written args)
    (fills : ∀ s ∈ steps, ∀ k ∈ s.slotKeys, expect k = s.slotValue args) :
    ∃ fields, decodeArgs (surfaceOf steps) (steps.flatMap (Step.emit py args)) = some fields ∧
      Agrees expect (steps.flatMap Step.optionKeys ++ steps.flatMap Step.slotKeys) fields := by
  obtain ⟨fs, agrees, read⟩ := read_emit_run wf typed.1 (fun s mem => mem) clean writes
    (by simpa using (List.nodup_append.mp wf.keys_nodup).1) (Agrees.start expect)
  obtain ⟨fields, assigned, agrees'⟩ :=
    assign_run wf typed (fun s mem => mem) wf.list_last fills agrees
  refine ⟨fields, ?_, by simpa using agrees'⟩
  have tokens := read [] []
  simp only [List.append_nil, List.nil_append] at tokens
  simp only [decodeArgs, tokens, readTokens]
  exact assigned

theorem Readback.readValue_written (wf : Readback spec steps) {s : Step} (mem : s ∈ steps)
    {k : String} (key : k ∈ s.optionKeys) :
    ((readValues args steps).lookup k).join = s.written args := by
  have listed : (k, s.written args) ∈ readValues args steps :=
    List.mem_append_left _ (List.mem_flatMap.mpr ⟨s, mem, List.mem_map_of_mem _ key⟩)
  rw [lookup_of_mem (by rw [readValues_keys]; exact wf.keys_nodup) listed]
  rfl

theorem Readback.readValue_slot (wf : Readback spec steps) {s : Step} (mem : s ∈ steps)
    {k : String} (key : k ∈ s.slotKeys) :
    ((readValues args steps).lookup k).join = s.slotValue args := by
  have listed : (k, s.slotValue args) ∈ readValues args steps :=
    List.mem_append_right _ (List.mem_flatMap.mpr ⟨s, mem, List.mem_map_of_mem _ key⟩)
  rw [lookup_of_mem (by rw [readValues_keys]; exact wf.keys_nodup) listed]
  rfl

/-- Clean tokens decode to what the statements write. -/
theorem decode_emit_values (wf : Readback spec steps) (typed : WellTyped spec args)
    (clean : ∀ s ∈ steps, s.clean py args = true) :
    ∃ fields, decodeArgs (surfaceOf steps) (steps.flatMap (Step.emit py args)) = some fields ∧
      ∀ k, fields.lookup k = ((readValues args steps).lookup k).join := by
  obtain ⟨fields, decoded, agrees⟩ := decode_emit wf typed clean _
    (fun s mem k key => (wf.readValue_written mem key)) (fun s mem k key => wf.readValue_slot mem key)
  refine ⟨fields, decoded, fun k => ?_⟩
  rw [agrees k]
  split
  · rfl
  · next unwritten =>
      rw [lookup_eq_none_of_not_mem (by rwa [readValues_keys])]
      rfl

/-! ## The canonical map -/

/-- What the backend reads for an option is the canonical value, but for an `eitherOption`
whose value is empty. -/
theorem Step.written_canonical (typed : KindCorrect spec args) {s : Step}
    (conforming : s.conforms spec = true) (keeps : s.keepsValue args = true) :
    ∀ k ∈ s.optionKeys, args.canonical.lookup k = s.written args := by
  cases s with
  | option key _ | intOption key _ =>
      simp only [Step.optionKeys, List.mem_singleton, forall_eq, ArgMap.canonical_lookup,
        Step.written]
      simp only [Step.conforms, beq_iff_eq] at conforming
      cases value : args.get? key with
      | none => rfl
      | some v =>
          have kind := typed.hasKind conforming value
          cases v <;> simp_all [Value.hasKind, Value.isBlank, Option.filter]
  | flag key _ =>
      simp only [Step.optionKeys, List.mem_singleton, forall_eq, ArgMap.canonical_lookup,
        Step.written]
      simp only [Step.conforms, beq_iff_eq] at conforming
      cases value : args.get? key with
      | none => simp [ArgMap.get, value, Value.truthy]
      | some v =>
          obtain ⟨b, rfl⟩ := Value.bool_of_hasKind (typed.hasKind conforming value)
          cases b <;> simp [ArgMap.get, value, Value.truthy, Value.isBlank, Option.filter]
  | vars key _ => simp [Step.optionKeys, ArgMap.canonical_lookup, Step.written]
  | eitherOption key _ _ =>
      simp only [Step.optionKeys, List.mem_singleton, forall_eq, ArgMap.canonical_lookup,
        Step.written]
      simp only [Step.conforms, Bool.and_eq_true, beq_iff_eq] at conforming
      cases value : args.get? key with
      | none => rfl
      | some v =>
          obtain ⟨x, rfl⟩ := Value.str_of_hasKind (typed.hasKind conforming.1 value)
          simp only [Step.keepsValue, value] at keeps
          simp [Value.isBlank, Option.filter, keeps]
  | _ => simp [Step.optionKeys]

theorem Step.slotValue_canonical (typed : KindCorrect spec args) {s : Step}
    (conforming : s.conforms spec = true) :
    ∀ k ∈ s.slotKeys, args.canonical.lookup k = s.slotValue args := by
  cases s with
  | positional key | positionals key =>
      simp only [Step.slotKeys, Step.slots, List.map_cons, List.map_nil, List.mem_singleton,
        forall_eq, ArgMap.canonical_lookup, Step.slotValue]
      simp only [Step.conforms, beq_iff_eq] at conforming
      cases value : args.get? key with
      | none => rfl
      | some v =>
          have kind := typed.hasKind conforming value
          cases v <;> simp_all [Value.hasKind, Value.isBlank, Option.filter]
  | _ => simp [Step.slotKeys, Step.slots]

/-- What the statements write is the canonical map exactly when every value given to an
`eitherOption` is written. -/
theorem readValues_canonical (wf : Readback spec steps) (typed : KindCorrect spec args) :
    (∀ k, ((readValues args steps).lookup k).join = args.canonical.lookup k) ↔
      ∀ s ∈ steps, s.keepsValue args = true := by
  constructor
  · intro same s mem
    cases s with
    | eitherOption key legacy name =>
        have conforming := wf.conforms _ mem
        simp only [Step.conforms, Bool.and_eq_true, beq_iff_eq] at conforming
        cases value : args.get? key with
        | none => simp [Step.keepsValue, value]
        | some v =>
            obtain ⟨x, rfl⟩ := Value.str_of_hasKind (typed.hasKind conforming.1 value)
            have read := same key
            rw [wf.readValue_written mem (by simp [Step.optionKeys]), ArgMap.canonical_lookup,
              value] at read
            by_cases empty : x.isEmpty <;>
              simp_all [Step.keepsValue, Step.written, Value.truthy, Value.isBlank, Option.filter]
    | _ => rfl
  · intro keeps k
    by_cases written : k ∈ steps.flatMap Step.optionKeys
    · obtain ⟨s, mem, key⟩ := List.mem_flatMap.mp written
      rw [wf.readValue_written mem key,
        Step.written_canonical typed (wf.conforms s mem) (keeps s mem) k key]
    · by_cases filled : k ∈ steps.flatMap Step.slotKeys
      · obtain ⟨s, mem, key⟩ := List.mem_flatMap.mp filled
        rw [wf.readValue_slot mem key, Step.slotValue_canonical typed (wf.conforms s mem) k key]
      · rw [lookup_eq_none_of_not_mem (by simp [readValues_keys, written, filled])]
        cases value : args.get? k with
        | none => simp [ArgMap.canonical_lookup, value]
        | some v =>
            obtain ⟨p, listed, named⟩ := ToolSpec.declared_of_admits (typed.admits value)
            exact absurd (named ▸ wf.covers p listed) (by simp [written, filled])

/-! ## What a decoded map says about the tokens -/

theorem Readback.unset_of_slot (wf : Readback spec steps) {s : Step} (mem : s ∈ steps)
    {k : String} (slot : k ∈ s.slotKeys) : (surfaceOf steps).unset k := by
  intro e listed named
  obtain ⟨s', mem', option⟩ := List.mem_flatMap.mp listed
  refine (Step.options_key option).resolve_right fun key => ?_
  exact (List.nodup_append.mp wf.keys_nodup).2.2 (List.mem_flatMap.mpr ⟨s', mem', named ▸ key⟩)
    (List.mem_flatMap.mpr ⟨s, mem, slot⟩)

/-- Tokens that decode to the canonical map are clean. -/
theorem clean_of_decode (wf : Readback spec steps) (typed : KindCorrect spec args)
    {fields : Fields}
    (decoded : decodeArgs (surfaceOf steps) (steps.flatMap (Step.emit py args)) = some fields)
    (agree : ∀ k, fields.lookup k = args.canonical.lookup k) :
    ∀ s ∈ steps, s.clean py args = true := by
  obtain ⟨pairs, floats, slot⟩ := decodeArgs_shape decoded
  intro s mem
  have conforming := wf.conforms s mem
  have filled := fun key (named : key ∈ s.slotKeys) => slot key (wf.unset_of_slot mem named)
  cases s with
  | positional key =>
      simp only [Step.conforms, beq_iff_eq] at conforming
      cases value : args.get? key with
      | none => simp [Step.clean, Step.bare, Step.slots, Step.emit, value]
      | some v =>
          obtain ⟨x, rfl⟩ := Value.str_of_hasKind (typed.hasKind conforming value)
          have bare := filled key (by simp [Step.slotKeys, Step.slots]) (.str x)
            (by simp [agree, ArgMap.canonical_lookup, value, Value.isBlank, Option.filter])
          simpa [Step.clean, Step.bare, Step.slots, Step.emit, value, Value.text] using bare
  | positionals key =>
      simp only [Step.conforms, beq_iff_eq] at conforming
      cases value : args.get? key with
      | none => simp [Step.clean, Step.bare, Step.slots, Step.emit, value]
      | some v =>
          obtain ⟨items, rfl, -⟩ := Value.list_of_hasKind (typed.hasKind conforming value)
          have bare := filled key (by simp [Step.slotKeys, Step.slots]) (.list items)
            (by simp [agree, ArgMap.canonical_lookup, value, Value.isBlank, Option.filter])
          simp only [Step.clean, Step.bare, Step.slots, Step.emit, value, List.isEmpty_cons,
            Bool.false_eq_true, if_false, Bool.and_true, List.all_map, List.all_eq_true]
          intro t listed
          obtain ⟨v, item, rfl⟩ := List.mem_map.mp listed
          obtain ⟨t, rfl, dash⟩ := bare v item
          simp [Value.text, dash]
  | vars key name =>
      simp only [Step.conforms, beq_iff_eq] at conforming
      cases value : args.get? key with
      | none => simp [Step.clean, Step.bare, Step.slots, value]
      | some v =>
          obtain ⟨entries, rfl, -⟩ := Value.dict_of_hasKind (typed.hasKind conforming value)
          simp only [Step.clean, Step.bare, Step.slots, List.isEmpty_nil, if_true, List.all_nil,
            value, Bool.true_and, List.all_eq_true, Bool.not_eq_eq_eq_not, Bool.not_true]
          cases entries with
          | nil => simp
          | cons e more =>
              have noEq := pairs key (e :: more)
                (by simp [agree, ArgMap.canonical_lookup, value, Value.isBlank, Option.filter])
              simpa using noEq
  | intOption key name =>
      cases value : args.get? key with
      | none => simp [Step.clean, Step.bare, Step.slots, value]
      | some v =>
          cases v with
          | float x =>
              exact absurd (by rw [agree, ArgMap.canonical_lookup, value]; rfl) (floats key x)
          | _ => simp [Step.clean, Step.bare, Step.slots, value]
  | _ => simp [Step.clean, Step.bare, Step.slots]

/-- A builder's tokens decode to the canonical map exactly when they are clean and every value
given to an `eitherOption` is written. -/
theorem decode_canonical_iff (wf : Readback spec steps) (typed : WellTyped spec args) :
    (∃ fields, decodeArgs (surfaceOf steps) (steps.flatMap (Step.emit py args)) = some fields ∧
        ∀ k, fields.lookup k = args.canonical.lookup k) ↔
      ∀ s ∈ steps, s.clean py args = true ∧ s.keepsValue args = true := by
  constructor
  · rintro ⟨fields, decoded, agree⟩
    have clean := clean_of_decode wf typed.1 decoded agree
    obtain ⟨fields', decoded', values⟩ := decode_emit_values wf typed clean
    have same : fields' = fields := Option.some.inj (decoded'.symm.trans decoded)
    subst same
    have keeps := (readValues_canonical wf typed.1).mp fun k => (values k).symm.trans (agree k)
    exact fun s mem => ⟨clean s mem, keeps s mem⟩
  · intro readable
    obtain ⟨fields, decoded, values⟩ := decode_emit_values wf typed fun s mem => (readable s mem).1
    exact ⟨fields, decoded, fun k => (values k).trans
      ((readValues_canonical wf typed.1).mpr (fun s mem => (readable s mem).2) k)⟩

end Read

/-! ## Both servers -/

/-- Every tool of the catalog selects a branch whose builder the backend can read back, and
whose subcommand accepts the options and positional parameters the builder writes. -/
def Server.readsBack (srv : Server) : Bool :=
  srv.catalog.all fun spec => (srv.commandFor spec.name).any fun c =>
    decide (Readback spec c.build) && backendSurface c.subcommand == surfaceOf c.build

theorem Server.readback_of_readsBack {srv : Server} (reads : srv.readsBack = true)
    {spec : ToolSpec} (listed : spec ∈ srv.catalog) :
    ∃ c, srv.commandFor spec.name = some c ∧ Readback spec c.build ∧
      backendSurface c.subcommand = surfaceOf c.build := by
  have branch := List.all_eq_true.mp reads spec listed
  cases found : srv.commandFor spec.name with
  | none => simp [found] at branch
  | some c => exact ⟨c, rfl, by simpa [found] using branch⟩

theorem supportServer_readsBack : supportServer.readsBack = true := by decide

theorem clarifyServer_readsBack : clarifyServer.readsBack = true := by decide

theorem readsBack_of_known {srv : Server} (known : srv = supportServer ∨ srv = clarifyServer) :
    srv.readsBack = true := by
  rcases known with rfl | rfl
  · exact supportServer_readsBack
  · exact clarifyServer_readsBack

/-- An integer option given a whole `float`, which JSON Schema takes for an integer, is written
as the float's text, and the backend cannot read it. -/
example :
    let three : PyFloat := .finite ⟨false, 3, 0, .inr (by decide)⟩
    let args : ArgMap := ⟨[("depth", .float three)], by decide⟩
    WellTyped (supportCatalog.get ⟨0, by decide⟩) args ∧
      runSteps sampleInterp args buildTreeArgs = .ok [.str "--depth", .str "3.0"] ∧
      decodeArgs (backendSurface ["tree"]) ["--depth", "3.0"] = none :=
  ⟨by decide, rfl, rfl⟩

end LlmMcp
