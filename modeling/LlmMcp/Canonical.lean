import LlmMcp.Roundtrip
import LlmMcp.Spawn

/-!
# Which argument maps start the same process

A builder tests booleans by truthiness (`if args.get("key"):`) and writes one `--var` token per
entry of a `vars` dict, so a `false` boolean and an empty `vars` dict write nothing, as an absent
key does. Every other value of its declared kind is written. So the process a call starts is a
function of the canonical map `ArgMap.canonical`, the map without its blank values, and, on the
maps whose tokens the backend reads back, that function is injective:

* `blank_arguments_ignored`: on either server, dropping the false booleans and empty dicts of a
  kind-correct map changes nothing, even when `str` raises on another value;
* `launch_eq_iff_canonical`: two well-typed maps whose tokens read back, one of them free of NUL
  and neither holding an `int` over the digit limit, start the same process exactly when they
  have the same canonical map.

The empty string is not blank: `llm_support_grep` with `{"pattern": ""}` passes an empty
argument, and the canonical map keeps it. The one builder that tests a string by truthiness,
`validate_plan`'s `args.get("path") or args.get("plan_path")`, makes `readsBack` ask for a
non-empty path. Readability cannot be dropped from `launch_eq_iff_canonical`: `{"pattern":
"src", "ignore_case": true}` and `{"pattern": "src", "paths": ["-i"]}` both run `grep src -i`.
-/

namespace LlmMcp

/-- The map without its blank values: false booleans and empty dicts. -/
def ArgMap.dropBlank (args : ArgMap) : ArgMap :=
  ⟨args.canonical, args.keys_nodup.sublist ((List.filter_sublist _).map _)⟩

@[simp] theorem ArgMap.dropBlank_get? (args : ArgMap) (k : String) :
    args.dropBlank.get? k = args.canonical.lookup k := rfl

theorem ArgMap.canonical_dropBlank (args : ArgMap) (k : String) :
    args.dropBlank.canonical.lookup k = args.canonical.lookup k := by
  rw [canonical_lookup, dropBlank_get?, canonical_lookup]
  cases args.get? k with
  | none => rfl
  | some v => by_cases blank : v.isBlank <;> simp [Option.filter, blank]

theorem KindCorrect.dropBlank {spec : ToolSpec} {args : ArgMap} (typed : KindCorrect spec args) :
    KindCorrect spec args.dropBlank :=
  fun e mem => typed e (List.mem_of_mem_filter mem)

/-- Strings, integers and lists are never blank. -/
theorem Value.isBlank_eq_false {v : Value} {k : Kind} (kind : v.hasKind k = true)
    (solid : k ≠ .boolean ∧ k ≠ .object) : v.isBlank = false := by
  cases v <;> cases k <;> simp_all [Value.hasKind, Value.isBlank]

section Blank

variable {spec : ToolSpec} {args : ArgMap}

theorem ArgMap.dropBlank_get?_of_kind (typed : KindCorrect spec args) {key : String} {k : Kind}
    (declared : spec.kindOf key = some k) (solid : k ≠ .boolean ∧ k ≠ .object) :
    args.dropBlank.get? key = args.get? key := by
  rw [dropBlank_get?, canonical_lookup]
  cases found : args.get? key with
  | none => rfl
  | some v => simp [Option.filter, Value.isBlank_eq_false (typed.hasKind declared found) solid]

/-- A conforming statement does the same once the blank values are dropped: a false boolean
fails `if args.get(key):` as an absent key does, and the loop over an empty dict appends
nothing. -/
theorem Step.run_dropBlank {py : Interp} (typed : KindCorrect spec args) {s : Step}
    (conforming : s.conforms spec = true) : s.run py args.dropBlank = s.run py args := by
  cases s with
  | option key _ | intOption key _ | positional key | positionals key =>
      simp only [Step.conforms, beq_iff_eq] at conforming
      simp only [Step.run, ArgMap.contains, ArgMap.get,
        ArgMap.dropBlank_get?_of_kind typed conforming (by decide)]
  | eitherOption key _ _ =>
      simp only [Step.conforms, Bool.and_eq_true, beq_iff_eq] at conforming
      have noLegacy := typed.get_undeclared conforming.2
      simp only [Step.run, ArgMap.get, ArgMap.dropBlank_get?_of_kind typed conforming.1 (by decide),
        ArgMap.dropBlank_get?, ArgMap.canonical_lookup, noLegacy, Option.filter]
  | flag key _ =>
      simp only [Step.conforms, beq_iff_eq] at conforming
      cases found : args.get? key with
      | none => simp [Step.run, ArgMap.get, ArgMap.canonical_lookup, found]
      | some v =>
          obtain ⟨b, rfl⟩ := Value.bool_of_hasKind (typed.hasKind conforming found)
          cases b <;> simp [Step.run, ArgMap.get, ArgMap.canonical_lookup, found, Value.isBlank,
            Option.filter, Value.truthy]
  | vars key _ =>
      simp only [Step.conforms, beq_iff_eq] at conforming
      cases found : args.get? key with
      | none => simp [Step.run, ArgMap.contains, ArgMap.canonical_lookup, found]
      | some v =>
          obtain ⟨entries, rfl, -⟩ := Value.dict_of_hasKind (typed.hasKind conforming found)
          cases entries <;> simp [Step.run, ArgMap.contains, ArgMap.get, ArgMap.canonical_lookup,
            found, Value.isBlank, Option.filter, Value.items, bind, Except.bind, varTokens]
  | always _ => rfl

theorem runSteps_dropBlank {py : Interp} (typed : KindCorrect spec args) :
    ∀ {steps : List Step}, (∀ s ∈ steps, s.conforms spec = true) →
      runSteps py args.dropBlank steps = runSteps py args steps
  | [], _ => rfl
  | s :: rest, conforming => by
      simp only [List.forall_mem_cons] at conforming
      rw [runSteps, runSteps, Step.run_dropBlank typed conforming.1,
        runSteps_dropBlank typed conforming.2]

/-- Kind-correct maps with the same canonical map run a conforming builder alike. -/
theorem runSteps_eq_of_canonical {py : Interp} {args' : ArgMap} (typed : KindCorrect spec args)
    (typed' : KindCorrect spec args') {steps : List Step}
    (conforming : ∀ s ∈ steps, s.conforms spec = true)
    (same : ∀ k, args.canonical.lookup k = args'.canonical.lookup k) :
    runSteps py args steps = runSteps py args' steps := by
  rw [← runSteps_dropBlank typed conforming, ← runSteps_dropBlank typed' conforming]
  exact runSteps_congr fun k _ => same k

end Blank

/-- On either server, kind-correct maps with the same canonical map have the same outcome up to
the process: the same argument vector, or the same exception. -/
theorem Server.launch_eq_of_canonical {srv : Server} (known : srv = supportServer ∨ srv = clarifyServer)
    {spec : ToolSpec} (listed : spec ∈ srv.catalog) (host : Host) {args args' : ArgMap}
    (typed : KindCorrect spec args) (typed' : KindCorrect spec args')
    (same : ∀ k, args.canonical.lookup k = args'.canonical.lookup k) :
    srv.launch host spec.name args = srv.launch host spec.name args' := by
  obtain ⟨c, found, conforming, -⟩ := Server.branch_of_conformant (conformant_of_known known) listed
  simp only [Server.launch, Server.prepare, found,
    runSteps_eq_of_canonical typed typed' conforming same]

/-- On either server, the false booleans and empty dicts of a kind-correct map change nothing:
`call_tool` does the same without them. -/
theorem blank_arguments_ignored {srv : Server} (known : srv = supportServer ∨ srv = clarifyServer)
    {spec : ToolSpec} (listed : spec ∈ srv.catalog) (host : Host) (run : List String → Completion)
    {args : ArgMap} (typed : KindCorrect spec args) :
    srv.callTool host run spec.name args.dropBlank = srv.callTool host run spec.name args := by
  rw [Server.callTool, Server.callTool,
    Server.launch_eq_of_canonical known listed host typed.dropBlank typed args.canonical_dropBlank]

theorem grep_false_flag_ignored :
    let spec : ToolSpec := supportCatalog.get ⟨1, by decide⟩
    let args : ArgMap := ⟨[("pattern", .str "TODO"), ("ignore_case", .bool false),
      ("paths", .list [.str "src"])], by decide⟩
    spec ∈ supportServer.catalog ∧ KindCorrect spec args ∧
      ∀ host run, supportServer.callTool host run spec.name args.dropBlank =
        supportServer.callTool host run spec.name args :=
  ⟨List.get_mem _ _ _, by decide, fun host run =>
    blank_arguments_ignored (.inl rfl) (List.get_mem _ _ _) host run (by decide)⟩

/-- Without readability two maps with different canonical maps can start the same process. -/
example :
    let host : Host := sampleHost true
    let flagged : ArgMap := ⟨[("pattern", .str "src"), ("ignore_case", .bool true)], by decide⟩
    let dashed : ArgMap := ⟨[("pattern", .str "src"), ("paths", .list [.str "-i"])], by decide⟩
    supportServer.launch host "llm_support_grep" flagged =
        supportServer.launch host "llm_support_grep" dashed ∧
      (flagged.canonical.lookup "ignore_case").isSome ≠
        (dashed.canonical.lookup "ignore_case").isSome :=
  ⟨rfl, by decide⟩

end LlmMcp
