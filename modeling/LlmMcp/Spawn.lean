import LlmMcp.Support
import LlmMcp.Clarification

/-!
# `call_tool` checks no argument against the schema

Neither server validates `arguments` before it builds the command: a builder skips an absent
parameter (`if "key" in args`) and never looks at `"required"`. What stops a call before
`subprocess.run` starts a process is only a Python exception: an unknown tool name, a value
`extend` cannot iterate, a `vars` that is not a dict, `str` of an `int` over the interpreter's
digit limit, an argument that is not a string or holds a NUL character.

* `kindCorrect_launches`: for every tool of either catalog and every map whose supplied values
  have their declared kinds, hold no NUL, and hold no `int` over the digit limit, the process
  starts, whether or not the required parameters are present.
* `grep_ill_typed_spawns`: `llm_support_grep` without its required `pattern` runs `grep src`,
  and with a string for its array `paths` runs `grep TODO s r c`.
* `launch_kindCorrect_eq`: on such a map, NUL aside, the process starts with the launcher, the
  subcommand and the builder's strings, unless one of them holds a NUL character.
-/

namespace LlmMcp

/-- A value that is not a string, or a string without NUL. -/
def Value.strNoNul : Value → Bool
  | .str s => noNul s
  | _ => true

/-- The value, its items, or its keys and values, hold no string with a NUL character. -/
def Value.nulFree : Value → Bool
  | .str s => noNul s
  | .list items => items.all Value.strNoNul
  | .dict entries => entries.all fun e => noNul e.1 && e.2.strNoNul
  | _ => true

/-- No value of the map holds a NUL character. -/
def ArgMap.NulFree (args : ArgMap) : Prop :=
  ∀ e ∈ args.entries, e.2.nulFree = true

instance (args : ArgMap) : Decidable args.NulFree :=
  inferInstanceAs (Decidable (∀ e ∈ args.entries, e.2.nulFree = true))

@[simp] theorem noNul_append (a b : String) : noNul (a ++ b) = (noNul a && noNul b) := by
  simp [noNul]

theorem ArgMap.NulFree.get {args : ArgMap} (clean : args.NulFree) {key : String} {v : Value}
    (found : args.get? key = some v) : v.nulFree = true :=
  clean (key, v) (ArgMap.get?_eq_some.mp found)

/-! ## `repr` escapes NUL -/

theorem digitChar_ne_nul {k : Nat} (small : k < 16) : Nat.digitChar k ≠ nul := by
  interval_cases k <;> decide

theorem nul_not_mem_hexDigits (width n : Nat) : nul ∉ hexDigits width n := by
  simp only [hexDigits, List.mem_map, not_exists, not_and]
  exact fun _ _ => digitChar_ne_nul (Nat.mod_lt _ (by decide))

theorem nul_not_mem_escapeChar (py : Interp) {quote : Char} (quoted : quote ≠ nul) (c : Char) :
    nul ∉ escapeChar py quote c := by
  have lits : nul ≠ backslash ∧ nul ≠ 't' ∧ nul ≠ 'n' ∧ nul ≠ 'r' ∧ nul ≠ 'x' ∧ nul ≠ 'u' ∧
      nul ≠ 'U' := by decide
  unfold escapeChar
  by_cases special : c = quote ∨ c = backslash
  · rw [if_pos special]
    rcases special with rfl | rfl <;> simp [lits, Ne.symm quoted]
  rw [if_neg special]
  by_cases named : c = '\t' ∨ c = '\n' ∨ c = '\r'
  · rcases named with rfl | rfl | rfl <;> simp [lits]
  simp only [not_or] at named
  rw [if_neg named.1, if_neg named.2.1, if_neg named.2.2]
  split_ifs with control
  · simp [lits, nul_not_mem_hexDigits]
  · rintro (_ | ⟨_, ⟨⟩⟩)
    exact control (.inl (by decide))
  all_goals simp [lits, nul_not_mem_hexDigits]

theorem noNul_reprStr (py : Interp) (s : String) : noNul (reprStr py s) = true := by
  have quotes : singleQuote ≠ nul ∧ doubleQuote ≠ nul := by decide
  unfold reprStr
  split <;> simp [noNul, Ne.symm quotes.1, Ne.symm quotes.2, nul_not_mem_escapeChar py quotes.1,
    nul_not_mem_escapeChar py quotes.2]

theorem noNul_intercalate_go (sep : String) (noSep : noNul sep = true) :
    ∀ (l : List String) (acc : String), noNul acc = true → (∀ s ∈ l, noNul s = true) →
      noNul (String.intercalate.go acc sep l) = true
  | [], _, clean, _ => clean
  | s :: l, acc, clean, all => by
      simp only [String.intercalate.go]
      exact noNul_intercalate_go sep noSep l _ (by simp_all) (fun t mem => all t (.tail _ mem))

theorem noNul_intercalate (sep : String) (noSep : noNul sep = true) {l : List String}
    (all : ∀ s ∈ l, noNul s = true) : noNul (sep.intercalate l) = true := by
  cases l with
  | nil => rfl
  | cons s l =>
      exact noNul_intercalate_go sep noSep l s (all s (.head _)) fun t mem => all t (.tail _ mem)

mutual
/-- `repr` escapes NUL: no `repr` holds a NUL character. -/
theorem Value.noNul_repr (py : Interp) : ∀ v : Value, noNul (v.repr py) = true
  | .null => rfl
  | .bool b => by cases b <;> rfl
  | .int i => noNul_intText i
  | .float x => x.noNul_repr
  | .str s => noNul_reprStr py s
  | .list items => by
      simp only [Value.repr, noNul_append,
        noNul_intercalate ", " (by decide) (Value.noNul_reprItems py items)]
      decide
  | .dict entries => by
      simp only [Value.repr, noNul_append,
        noNul_intercalate ", " (by decide) (Value.noNul_reprEntries py entries)]
      decide

theorem Value.noNul_reprItems (py : Interp) :
    ∀ items : List Value, ∀ s ∈ Value.reprItems py items, noNul s = true
  | [] => fun _ mem => nomatch mem
  | v :: vs => by
      simp only [Value.reprItems, List.forall_mem_cons]
      exact ⟨Value.noNul_repr py v, Value.noNul_reprItems py vs⟩

theorem Value.noNul_reprEntries (py : Interp) :
    ∀ entries : List (String × Value), ∀ s ∈ Value.reprEntries py entries, noNul s = true
  | [] => fun _ mem => nomatch mem
  | (k, v) :: es => by
      simp only [Value.reprEntries, List.forall_mem_cons, noNul_append, noNul_reprStr,
        Value.noNul_repr py v]
      exact ⟨rfl, Value.noNul_reprEntries py es⟩
end

theorem Value.noNul_text (py : Interp) {v : Value} (free : v.strNoNul = true) :
    noNul (v.text py) = true := by
  cases v <;> simp_all [Value.strNoNul, Value.text, Value.noNul_repr]

section Emit

variable {py : Interp} {spec : ToolSpec} {args : ArgMap}

/-- A conforming statement on a kind-correct, NUL-free map emits NUL-free strings. -/
theorem Step.emit_noNul (typed : KindCorrect spec args) (clean : args.NulFree) :
    ∀ {s : Step}, s.conforms spec = true → (∀ n ∈ s.names, noNul n = true) →
      ∀ t ∈ s.emit py args, noNul t = true
  | .option key name, conforming, literal | .positional key, conforming, literal => by
      simp only [Step.conforms, beq_iff_eq] at conforming
      cases found : args.get? key with
      | none => simp [Step.emit, found]
      | some v =>
          have string := typed.hasKind conforming found
          have free := clean.get found
          cases v <;> simp_all [Step.emit, Step.names, Value.hasKind, Value.nulFree, Value.text]
  | .intOption key name, conforming, literal => by
      simp only [Step.conforms, beq_iff_eq] at conforming
      cases found : args.get? key with
      | none => simp [Step.emit, found]
      | some v =>
          have integer := typed.hasKind conforming found
          cases v <;> simp_all [Step.emit, Step.names, Value.hasKind, Value.text, Value.repr,
            noNul_intText, PyFloat.noNul_repr]
  | .positionals key, _, _ => by
      cases found : args.get? key with
      | none => simp [Step.emit, found]
      | some v =>
          have free := clean.get found
          cases v <;> simp only [Step.emit, found, List.not_mem_nil, false_imp_iff, imp_true_iff]
          simp only [Value.nulFree, List.all_eq_true] at free
          simp only [List.mem_map, forall_exists_index, and_imp]
          rintro t v mem rfl
          exact Value.noNul_text py (free v mem)
  | .flag key name, _, literal => by
      simp only [Step.emit]
      split <;> simp_all [Step.names]
  | .vars key name, _, literal => by
      cases found : args.get? key with
      | none => simp [Step.emit, found]
      | some v =>
          have free := clean.get found
          cases v <;> simp only [Step.emit, found, List.not_mem_nil, false_imp_iff, imp_true_iff]
          rename_i entries
          simp only [Value.nulFree, List.all_eq_true, Bool.and_eq_true] at free
          simp only [Step.names, List.mem_singleton, forall_eq] at literal
          simp only [List.mem_flatMap, List.mem_cons, List.mem_singleton, List.not_mem_nil,
            or_false, forall_exists_index, and_imp]
          rintro t e mem (rfl | rfl)
          · exact literal
          · simp [(free e mem).1, Value.noNul_text py (free e mem).2, show noNul "=" = true by decide]
  | .always name, _, literal => by simpa [Step.emit, Step.names] using literal
  | .eitherOption key legacy name, conforming, literal => by
      simp only [Step.conforms, Bool.and_eq_true, beq_iff_eq] at conforming
      cases found : args.get? key with
      | none => simp [Step.emit, ArgMap.get, found, Value.truthy]
      | some v =>
          have string := typed.hasKind conforming.1 found
          have free := clean.get found
          cases v <;> simp_all [Step.emit, Step.names, ArgMap.get, Value.hasKind, Value.nulFree,
            Value.text]
          rintro t - (rfl | rfl) <;> assumption

end Emit

/-- The launcher of either server holds no NUL character. -/
theorem launcher_noNul {srv : Server} (known : srv = supportServer ∨ srv = clarifyServer)
    (host : Host) : ∀ s ∈ srv.launcher host, noNul s = true := by
  obtain ⟨python, support, clarify⟩ := host.paths_noNul
  intro s mem
  rcases known with rfl | rfl
  · simp only [supportServer] at mem
    split at mem
    · rw [List.mem_singleton.mp mem]
      decide
    · simp only [List.mem_cons, List.mem_singleton, List.not_mem_nil, or_false] at mem
      rcases mem with rfl | rfl <;> assumption
  · simp only [clarifyServer, List.mem_cons, List.mem_singleton, List.not_mem_nil, or_false] at mem
    rcases mem with rfl | rfl <;> assumption

theorem supportServer_conformant : supportServer.conformant = true := by decide

theorem clarifyServer_conformant : clarifyServer.conformant = true := by decide

/-- On a conformant server, a listed tool selects a branch whose statements conform to its schema
and whose literal tokens hold no NUL character. -/
theorem Server.branch_of_conformant {srv : Server} (conformant : srv.conformant = true)
    {spec : ToolSpec} (listed : spec ∈ srv.catalog) :
    ∃ c, srv.commandFor spec.name = some c ∧ (∀ s ∈ c.build, s.conforms spec = true) ∧
      ∀ n ∈ c.subcommand ++ c.build.flatMap Step.names, noNul n = true := by
  have branch := List.all_eq_true.mp conformant spec listed
  cases found : srv.commandFor spec.name with
  | none => simp [found] at branch
  | some c =>
      simp only [found, Bool.and_eq_true, List.all_eq_true] at branch
      exact ⟨c, rfl, branch⟩

theorem conformant_of_known {srv : Server} (known : srv = supportServer ∨ srv = clarifyServer) :
    srv.conformant = true := by
  rcases known with rfl | rfl
  · exact supportServer_conformant
  · exact clarifyServer_conformant

/-- On either server, the argument vector of a kind-correct, NUL-free map holds no NUL. -/
theorem Server.argv_noNul {srv : Server} (known : srv = supportServer ∨ srv = clarifyServer)
    (host : Host) {spec : ToolSpec} (listed : spec ∈ srv.catalog) {args : ArgMap}
    (typed : KindCorrect spec args) (clean : args.NulFree) {c : Command}
    (found : srv.commandFor spec.name = some c) :
    (srv.launcher host ++ c.subcommand ++ c.build.flatMap (Step.emit host.interp args)).all noNul =
      true := by
  obtain ⟨c', found', conforming, literal⟩ :=
    Server.branch_of_conformant (conformant_of_known known) listed
  obtain rfl : c' = c := Option.some.inj (found'.symm.trans found)
  simp only [List.all_eq_true, List.mem_append, List.mem_flatMap]
  rintro t ((fromLauncher | fromSubcommand) | ⟨s, mem, emitted⟩)
  · exact launcher_noNul known host t fromLauncher
  · exact literal t (List.mem_append_left _ fromSubcommand)
  · exact Step.emit_noNul typed clean (conforming s mem)
      (fun n named => literal n (List.mem_append_right _ (List.mem_flatMap.mpr ⟨s, mem, named⟩)))
      t emitted

theorem kindCorrect_launches {srv : Server} (known : srv = supportServer ∨ srv = clarifyServer)
    (host : Host) {spec : ToolSpec} (listed : spec ∈ srv.catalog) {args : ArgMap}
    (typed : KindCorrect spec args) (clean : args.NulFree) (fits : args.Fits host.interp) :
    ∃ argv, srv.launch host spec.name args = .ok argv := by
  obtain ⟨c, found, conforming, -⟩ := Server.branch_of_conformant (conformant_of_known known) listed
  exact ⟨_, (Server.launch_of_built found (runSteps_eq_emit typed fits conforming)).trans
    (if_pos (Server.argv_noNul known host listed typed clean found))⟩

theorem grep_without_pattern_launches :
    let spec : ToolSpec := supportCatalog.get ⟨1, by decide⟩
    let args : ArgMap := ⟨[("paths", .list [.str "src"])], by decide⟩
    spec ∈ supportServer.catalog ∧ KindCorrect spec args ∧ args.NulFree ∧
      args.Fits (sampleHost true).interp ∧
      ∃ argv, supportServer.launch (sampleHost true) spec.name args = .ok argv :=
  ⟨List.get_mem _ _ _, by decide, by decide, by decide,
    kindCorrect_launches (.inl rfl) _ (List.get_mem _ _ _) (by decide) (by decide) (by decide)⟩

/-- Neither a missing required parameter nor a string where the schema declares an array stops
`llm_support_grep`: both start the backend. -/
theorem grep_ill_typed_spawns :
    let spec : ToolSpec := supportCatalog.get ⟨1, by decide⟩
    let noPattern : ArgMap := ⟨[("paths", .list [.str "src"])], by decide⟩
    let stringPaths : ArgMap := ⟨[("pattern", .str "TODO"), ("paths", .str "src")], by decide⟩
    spec.name = "llm_support_grep" ∧ ¬ WellTyped spec noPattern ∧ ¬ WellTyped spec stringPaths ∧
      supportServer.launch (sampleHost true) spec.name noPattern =
        .ok ["/usr/local/bin/llm-support", "grep", "src"] ∧
      supportServer.launch (sampleHost true) spec.name stringPaths =
        .ok ["/usr/local/bin/llm-support", "grep", "TODO", "s", "r", "c"] :=
  ⟨rfl, by decide, by decide, rfl, rfl⟩

/-! ## What `subprocess.run` receives -/

/-- On either server, a map whose values have their declared kinds and hold no `int` over the
digit limit starts the process, with the launcher, the subcommand and the builder's strings,
exactly when none of these strings holds a NUL character; otherwise `call_tool` returns
`ERROR: embedded null byte`. -/
theorem launch_kindCorrect_eq {srv : Server} (known : srv = supportServer ∨ srv = clarifyServer)
    (host : Host) {spec : ToolSpec} (listed : spec ∈ srv.catalog) {args : ArgMap}
    (typed : KindCorrect spec args) (fits : args.Fits host.interp) :
    ∃ c, srv.commandFor spec.name = some c ∧
      srv.launch host spec.name args =
        let argv := srv.launcher host ++ c.subcommand ++ c.build.flatMap (Step.emit host.interp args)
        if argv.all noNul then .ok argv else .error (.raised "embedded null byte") := by
  obtain ⟨c, found, conforming, -⟩ := Server.branch_of_conformant (conformant_of_known known) listed
  exact ⟨c, found, Server.launch_of_built found (runSteps_eq_emit typed fits conforming)⟩

theorem grep_nul_pattern_refused :
    let spec : ToolSpec := supportCatalog.get ⟨1, by decide⟩
    let args : ArgMap :=
      ⟨[("pattern", .str (String.singleton nul)), ("paths", .list [.str "src"])], by decide⟩
    spec ∈ supportServer.catalog ∧ KindCorrect spec args ∧ args.Fits (sampleHost true).interp ∧
      ∃ c, supportServer.commandFor spec.name = some c ∧
        supportServer.launch (sampleHost true) spec.name args =
          let argv := supportServer.launcher (sampleHost true) ++ c.subcommand ++
            c.build.flatMap (Step.emit sampleInterp args)
          if argv.all noNul then .ok argv else .error (.raised "embedded null byte") :=
  ⟨List.get_mem _ _ _, by decide, by decide,
    launch_kindCorrect_eq (.inl rfl) _ (List.get_mem _ _ _) (by decide) (by decide)⟩

end LlmMcp
