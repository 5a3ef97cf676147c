import LlmMcp.Schema

/-!
# Argument builders

Every `_build_<tool>_args` method of both servers is a straight sequence of statements, each of
one of eight forms. `Step` names the forms and `Step.run` is what one statement appends to
`cmd_args`, or the exception it raises; a builder is its list of statements, and `runSteps`
runs them in order, as the method does.

On a map whose values have their declared kinds, a step that conforms to the schema raises
nothing and appends strings only: `Step.run_eq_emit` says which, as `Step.emit`.
-/

namespace LlmMcp

/-- One statement of an argument builder. -/
inductive Step where
  /-- `if "key" in args: cmd_args.extend([name, args["key"]])` -/
  | option (key name : String)
  /-- `if "key" in args: cmd_args.extend([name, str(args["key"])])` -/
  | intOption (key name : String)
  /-- `if "key" in args: cmd_args.append(args["key"])` -/
  | positional (key : String)
  /-- `if "key" in args: cmd_args.extend(args["key"])` -/
  | positionals (key : String)
  /-- `if args.get("key"): cmd_args.append(name)` -/
  | flag (key name : String)
  /-- `if "key" in args:` then `for k, v in args["key"].items(): cmd_args.extend([name, f"{k}={v}"])` -/
  | vars (key name : String)
  /-- `cmd_args.append(name)` -/
  | always (name : String)
  /-- `path = args.get("key") or args.get("legacy")`, then `if path: cmd_args.extend([name, path])` -/
  | eitherOption (key legacy name : String)
deriving DecidableEq, Repr

/-- The loop `for k, v in entries: cmd_args.extend([name, f"{k}={v}"])`; the first `str` that
raises ends it. -/
def varTokens (py : Interp) (name : String) : List (String × Value) → Except String (List Value)
  | [] => .ok []
  | (k, v) :: rest => do
      let t ← v.pyStr py
      let tail ← varTokens py name rest
      pure (.str name :: .str (k ++ "=" ++ t) :: tail)

namespace Step

/-- What one statement appends to `cmd_args`. -/
def run (py : Interp) (args : ArgMap) : Step → Except String (List Value)
  | option key name => .ok (if args.contains key then [.str name, args.get key] else [])
  | intOption key name =>
      if args.contains key then ((args.get key).pyStr py).map fun t => [.str name, .str t]
      else .ok []
  | positional key => .ok (if args.contains key then [args.get key] else [])
  | positionals key => if args.contains key then (args.get key).iter else .ok []
  | flag key name => .ok (if (args.get key).truthy then [.str name] else [])
  | vars key name => if args.contains key then (args.get key).items >>= varTokens py name else .ok []
  | always name => .ok [.str name]
  | eitherOption key legacy name =>
      let path := if (args.get key).truthy then args.get key else args.get legacy
      .ok (if path.truthy then [.str name, path] else [])

/-- The strings a statement appends when the values it reads have their declared kinds and
`str` raises on none of them. -/
def emit (py : Interp) (args : ArgMap) : Step → List String
  | option key name | intOption key name =>
      match args.get? key with
      | some v => [name, v.text py]
      | none => []
  | positional key =>
      match args.get? key with
      | some v => [v.text py]
      | none => []
  | positionals key =>
      match args.get? key with
      | some (.list items) => items.map (Value.text py)
      | _ => []
  | flag key name => if (args.get key).truthy then [name] else []
  | vars key name =>
      match args.get? key with
      | some (.dict entries) => entries.flatMap fun e => [name, e.1 ++ "=" ++ e.2.text py]
      | _ => []
  | always name => [name]
  | eitherOption key _ name =>
      if (args.get key).truthy then [name, (args.get key).text py] else []

/-- The statement reads a parameter the schema declares, with the kind the statement expects;
the legacy key of `eitherOption` is not declared. -/
def conforms (spec : ToolSpec) : Step → Bool
  | option key _ | positional key => spec.kindOf key == some .string
  | intOption key _ => spec.kindOf key == some .integer
  | positionals key => spec.kindOf key == some .array
  | flag key _ => spec.kindOf key == some .boolean
  | vars key _ => spec.kindOf key == some .object
  | always _ => true
  | eitherOption key legacy _ =>
      spec.kindOf key == some .string && spec.kindOf legacy == none

/-- The literal tokens of the statement. -/
def names : Step → List String
  | option _ name | intOption _ name | flag _ name | vars _ name | always name
  | eitherOption _ _ name => [name]
  | positional _ | positionals _ => []

/-- The keys of `args` the statement reads. -/
def reads : Step → List String
  | option key _ | intOption key _ | positional key | positionals key | flag key _ | vars key _ =>
      [key]
  | always _ => []
  | eitherOption key legacy _ => [key, legacy]

end Step

/-- A builder's statements, run in order; the first exception ends it. -/
def runSteps (py : Interp) (args : ArgMap) : List Step → Except String (List Value)
  | [] => .ok []
  | s :: rest => do
      let head ← s.run py args
      let tail ← runSteps py args rest
      pure (head ++ tail)

/-! ## What a builder reads -/

/-- A statement does the same on two maps that agree on the keys it reads. -/
theorem Step.run_congr {py : Interp} {args args' : ArgMap} {s : Step}
    (same : ∀ k ∈ s.reads, args.get? k = args'.get? k) : s.run py args = s.run py args' := by
  cases s <;> simp_all [Step.reads, Step.run, ArgMap.contains, ArgMap.get]

theorem runSteps_congr {py : Interp} {args args' : ArgMap} :
    ∀ {steps : List Step}, (∀ k ∈ steps.flatMap Step.reads, args.get? k = args'.get? k) →
      runSteps py args steps = runSteps py args' steps
  | [], _ => rfl
  | s :: rest, same => by
      simp only [List.flatMap_cons, List.mem_append, or_imp, forall_and] at same
      rw [runSteps, runSteps, Step.run_congr same.1, runSteps_congr same.2]

/-! ## Builders on kind-correct maps -/

@[simp] theorem Value.itemsFit_eq (py : Interp) :
    ∀ items : List Value, Value.itemsFit py items = items.all (Value.fits py)
  | [] => rfl
  | v :: vs => by simp [Value.itemsFit, Value.itemsFit_eq py vs]

@[simp] theorem Value.entriesFit_eq (py : Interp) :
    ∀ entries : List (String × Value), Value.entriesFit py entries = entries.all (·.2.fits py)
  | [] => rfl
  | (_, v) :: es => by simp [Value.entriesFit, Value.entriesFit_eq py es]

/-- The loop over `vars` raises exactly when `str` raises on one of the values. -/
theorem varTokens_eq (py : Interp) (name : String) :
    ∀ entries : List (String × Value), varTokens py name entries =
      if entries.all (·.2.fits py) then
        .ok (entries.flatMap fun e => [.str name, .str (e.1 ++ "=" ++ e.2.text py)])
      else .error (intLimitError py)
  | [] => rfl
  | (k, v) :: rest => by
      rw [varTokens, varTokens_eq py name rest]
      by_cases head : v.fits py <;> by_cases tail : rest.all (·.2.fits py) <;>
        simp [Value.pyStr, head, tail] <;> rfl

theorem Value.eq_str_text (py : Interp) {v : Value} (string : v.isStr = true) :
    v = .str (v.text py) := by
  cases v <;> simp_all [Value.isStr, Value.text]

theorem Value.str_text_of_all_isStr (py : Interp) :
    ∀ {items : List Value}, items.all Value.isStr = true → (items.map (Value.text py)).map .str = items
  | [], _ => rfl
  | v :: rest, strings => by
      simp only [List.all_cons, Bool.and_eq_true] at strings
      simp only [List.map_cons, ← Value.eq_str_text py strings.1,
        Value.str_text_of_all_isStr py strings.2]

section KindCorrect

variable {py : Interp} {spec : ToolSpec} {args : ArgMap}

theorem Step.run_eq_emit (typed : KindCorrect spec args) (fits : args.Fits py) :
    ∀ {s : Step}, s.conforms spec = true → s.run py args = .ok ((s.emit py args).map .str)
  | .option key name, conforming | .positional key, conforming => by
      simp only [Step.conforms, beq_iff_eq] at conforming
      cases found : args.get? key with
      | none => simp [Step.run, Step.emit, ArgMap.contains, found]
      | some v =>
          have string := typed.hasKind conforming found
          cases v <;> simp_all [Step.run, Step.emit, ArgMap.contains, Value.hasKind, Value.text]
  | .intOption key name, _ => by
      cases found : args.get? key with
      | none => simp [Step.run, Step.emit, ArgMap.contains, found]
      | some v =>
          simp [Step.run, Step.emit, ArgMap.contains, found, Value.pyStr, fits.get found, Except.map]
  | .positionals key, conforming => by
      simp only [Step.conforms, beq_iff_eq] at conforming
      cases found : args.get? key with
      | none => simp [Step.run, Step.emit, ArgMap.contains, found]
      | some v =>
          have array := typed.hasKind conforming found
          cases v <;> simp only [Value.hasKind, Bool.false_eq_true] at array
          simp [Step.run, Step.emit, ArgMap.contains, ArgMap.get, found, Value.iter,
            Value.str_text_of_all_isStr py array]
  | .flag key name, _ => by
      simp only [Step.run, Step.emit]
      split <;> rfl
  | .vars key name, conforming => by
      simp only [Step.conforms, beq_iff_eq] at conforming
      cases found : args.get? key with
      | none => simp [Step.run, Step.emit, ArgMap.contains, found]
      | some v =>
          have object := typed.hasKind conforming found
          cases v <;> simp only [Value.hasKind, Bool.false_eq_true] at object
          rename_i entries
          have fit : entries.all (·.2.fits py) = true := by
            simpa [Value.fits] using fits.get found
          simp [Step.run, Step.emit, ArgMap.contains, ArgMap.get, found, Value.items, bind,
            Except.bind, varTokens_eq, fit, List.map_flatMap]
  | .always name, _ => rfl
  | .eitherOption key legacy name, conforming => by
      simp only [Step.conforms, Bool.and_eq_true, beq_iff_eq] at conforming
      have noLegacy := typed.get_undeclared conforming.2
      cases found : args.get? key with
      | none => simp [Step.run, Step.emit, ArgMap.get, found, noLegacy, Value.truthy]
      | some v =>
          have string := typed.hasKind conforming.1 found
          cases v <;> simp only [Value.hasKind, Bool.false_eq_true] at string
          rename_i text
          by_cases empty : text.isEmpty <;>
            simp [Step.run, Step.emit, ArgMap.get, found, noLegacy, Value.truthy, Value.text, empty]

/-- A conforming builder on a kind-correct map on which `str` raises nothing raises nothing and
appends only strings. -/
theorem runSteps_eq_emit (typed : KindCorrect spec args) (fits : args.Fits py) :
    ∀ {steps : List Step}, (∀ s ∈ steps, s.conforms spec = true) →
      runSteps py args steps = .ok ((steps.flatMap (Step.emit py args)).map .str)
  | [], _ => rfl
  | s :: rest, conforming => by
      simp only [List.forall_mem_cons] at conforming
      rw [runSteps, Step.run_eq_emit typed fits conforming.1, runSteps_eq_emit typed fits conforming.2]
      simp only [List.flatMap_cons, List.map_append]
      rfl

end KindCorrect

end LlmMcp
