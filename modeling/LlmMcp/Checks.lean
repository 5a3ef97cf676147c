import LlmMcp.Spawn

/-!
# What `call_tool` does check

`call_tool` checks no argument against the schema (`kindCorrect_launches`), yet a value can still
stop it before a process starts: `os.fsencode` takes only strings without NUL, `list.extend`
only a value it can iterate, `.items()` only a dict, and `str` only an `int` within the
interpreter's digit limit. `Step.accepts` says, statement by
statement, which values get through. On either server the process starts for exactly the
names `call_tool` dispatches and the maps whose values every statement of the branch accepts
(`launches_iff_accepts`), whatever the schema declares.
-/

namespace LlmMcp

/-- What `os.fsencode` takes: a string without NUL. -/
def Value.encodable : Value → Bool
  | .str s => noNul s
  | _ => false

/-- The values the statement reads get through the statement and through `os.fsencode`. -/
def Step.accepts (py : Interp) (args : ArgMap) : Step → Bool
  | .option key _ | .positional key =>
      match args.get? key with
      | some v => v.encodable
      | none => true
  | .intOption key _ =>
      match args.get? key with
      | some v => v.fits py && noNul (v.text py)
      | none => true
  | .positionals key =>
      match args.get? key with
      | some v =>
          match v.iter with
          | .ok items => items.all Value.encodable
          | .error _ => false
      | none => true
  | .flag _ _ | .always _ => true
  | .vars key _ =>
      match args.get? key with
      | some v =>
          match v.items with
          | .ok entries => entries.all fun e => noNul e.1 && e.2.fits py && noNul (e.2.text py)
          | .error _ => false
      | none => true
  | .eitherOption key legacy _ =>
      let path := if (args.get key).truthy then args.get key else args.get legacy
      !path.truthy || path.encodable

/-- Every branch's subcommand and literal tokens hold no NUL character. -/
def Server.literalsClean (srv : Server) : Bool :=
  srv.commands.all fun c => (c.subcommand ++ c.build.flatMap Step.names).all noNul

theorem literalsClean_of_known {srv : Server} (known : srv = supportServer ∨ srv = clarifyServer) :
    srv.literalsClean = true := by
  rcases known with rfl | rfl <;> decide

@[simp] theorem Value.encodable_str (s : String) : (Value.str s).encodable = noNul s := rfl

theorem fsencode_isOk {v : Value} : (∃ s, fsencode v = .ok s) ↔ v.encodable = true := by
  cases v with
  | str s => by_cases clean : noNul s <;> simp [fsencode, clean]
  | _ => simp [fsencode, Value.encodable]

theorem mapM_fsencode_isOk :
    ∀ {cmd : List Value}, (∃ argv, cmd.mapM fsencode = .ok argv) ↔ cmd.all Value.encodable = true
  | [] => ⟨fun _ => rfl, fun _ => ⟨[], rfl⟩⟩
  | v :: rest => by
      rw [List.all_cons, Bool.and_eq_true, ← fsencode_isOk, ← mapM_fsencode_isOk]
      constructor
      · rintro ⟨argv, encoded⟩
        rw [List.mapM_cons] at encoded
        obtain ⟨s, head, encoded⟩ := bind_eq_ok encoded
        obtain ⟨strs, tail, -⟩ := bind_eq_ok encoded
        exact ⟨⟨s, head⟩, ⟨strs, tail⟩⟩
      · rintro ⟨⟨s, head⟩, ⟨strs, tail⟩⟩
        refine ⟨s :: strs, ?_⟩
        rw [List.mapM_cons, head, tail]
        rfl

/-- One statement raises nothing and appends only strings `os.fsencode` takes exactly when it
accepts the values it reads. -/
theorem Step.accepts_iff {py : Interp} {args : ArgMap} {s : Step}
    (literal : ∀ n ∈ s.names, noNul n = true) :
    s.accepts py args = true ↔ ∃ vals, s.run py args = .ok vals ∧ vals.all Value.encodable = true := by
  cases s with
  | option key name | positional key =>
      cases found : args.get? key <;>
        simp_all [Step.accepts, Step.run, Step.names, ArgMap.contains]
  | intOption key name =>
      cases found : args.get? key <;>
        simp_all [Step.accepts, Step.run, Step.names, ArgMap.contains, Value.pyStr]
      split <;> simp_all [Except.map]
  | positionals key =>
      cases found : args.get? key with
      | none => simp [Step.accepts, Step.run, ArgMap.contains, found]
      | some v =>
          cases iterated : v.iter <;> simp [Step.accepts, Step.run, ArgMap.contains, found, iterated]
  | flag key name =>
      simp only [Step.names, List.mem_singleton, forall_eq] at literal
      simp only [Step.accepts, Step.run, true_iff]
      split <;> simp [literal]
  | always name =>
      simp only [Step.names, List.mem_singleton, forall_eq] at literal
      simp [Step.accepts, Step.run, literal]
  | vars key name =>
      simp only [Step.names, List.mem_singleton, forall_eq] at literal
      cases found : args.get? key with
      | none => simp [Step.accepts, Step.run, ArgMap.contains, found]
      | some v =>
          cases v <;> simp [Step.accepts, Step.run, ArgMap.contains, found, Value.items, bind,
            Except.bind, varTokens_eq, -List.all_eq_true]
          rename_i entries
          by_cases fit : entries.all (·.2.fits py) = true
          · simp only [fit, if_true, Except.ok.injEq, exists_eq_left', List.all_flatMap]
            simp only [List.all_eq_true] at fit ⊢
            exact forall₂_congr fun e mem => by
              simp [fit e mem, literal, show noNul "=" = true by decide]
          · simp only [fit, Bool.false_eq_true, if_false, reduceCtorEq, false_and, exists_false,
              iff_false]
            refine fun all => fit (List.all_eq_true.mpr fun e mem => ?_)
            have accepted := List.all_eq_true.mp all e mem
            simp only [Bool.and_eq_true] at accepted
            exact accepted.1.2
  | eitherOption key legacy name =>
      simp only [Step.names, List.mem_singleton, forall_eq] at literal
      simp only [Step.accepts, Step.run]
      by_cases truthy :
          (if (args.get key).truthy then args.get key else args.get legacy).truthy <;>
        simp [truthy, literal]

theorem runSteps_accepts {py : Interp} {args : ArgMap} :
    ∀ {steps : List Step}, (∀ s ∈ steps, ∀ n ∈ s.names, noNul n = true) →
      ((∀ s ∈ steps, s.accepts py args = true) ↔
        ∃ vals, runSteps py args steps = .ok vals ∧ vals.all Value.encodable = true)
  | [], _ => by simp [runSteps]
  | s :: rest, literal => by
      simp only [List.forall_mem_cons] at literal ⊢
      rw [Step.accepts_iff literal.1, runSteps_accepts literal.2]
      constructor
      · rintro ⟨⟨head, ran, headOk⟩, ⟨tail, ranRest, tailOk⟩⟩
        exact ⟨head ++ tail, by rw [runSteps, ran, ranRest]; rfl, by simp [headOk, tailOk]⟩
      · rintro ⟨vals, ran, ok⟩
        rw [runSteps] at ran
        obtain ⟨head, ranHead, ran⟩ := bind_eq_ok ran
        obtain ⟨tail, ranTail, ran⟩ := bind_eq_ok ran
        cases ran
        rw [List.all_append, Bool.and_eq_true] at ok
        exact ⟨⟨head, ranHead, ok.1⟩, ⟨tail, ranTail, ok.2⟩⟩

/-- A branch whose launcher, subcommand and literal tokens hold no NUL starts the process
exactly when its statements accept the map. -/
theorem Server.launch_isOk_iff {srv : Server} {host : Host}
    (launcherClean : ∀ s ∈ srv.launcher host, noNul s = true) {name : String} {c : Command}
    (found : srv.commandFor name = some c)
    (literal : ∀ n ∈ c.subcommand ++ c.build.flatMap Step.names, noNul n = true) (args : ArgMap) :
    (∃ argv, srv.launch host name args = .ok argv) ↔
      ∀ s ∈ c.build, s.accepts host.interp args = true := by
  have fixed : ((srv.launcher host ++ c.subcommand).map Value.str).all Value.encodable = true := by
    rw [List.all_eq_true]
    intro v mem
    obtain ⟨t, listed, rfl⟩ := List.mem_map.mp mem
    rcases List.mem_append.mp listed with fromLauncher | fromSubcommand
    · exact launcherClean t fromLauncher
    · exact literal t (List.mem_append_left _ fromSubcommand)
  rw [runSteps_accepts fun s mem n named =>
    literal n (List.mem_append_right _ (List.mem_flatMap.mpr ⟨s, mem, named⟩))]
  constructor
  · rintro ⟨argv, started⟩
    obtain ⟨cmd, prepared, encoded⟩ := Server.launch_eq_ok.mp started
    obtain ⟨c', tokens, found', built, rfl⟩ := Server.prepare_eq_ok.mp prepared
    obtain rfl : c' = c := Option.some.inj (found'.symm.trans found)
    have encodable := mapM_fsencode_isOk.mp ⟨argv, encoded⟩
    rw [List.all_append, Bool.and_eq_true] at encodable
    exact ⟨tokens, built, encodable.2⟩
  · rintro ⟨tokens, built, encodable⟩
    have all : ((srv.launcher host ++ c.subcommand).map Value.str ++ tokens).all Value.encodable =
        true := by
      rw [List.all_append, fixed, encodable]
      rfl
    obtain ⟨strs, encoded⟩ := mapM_fsencode_isOk.mpr all
    exact ⟨strs, Server.launch_eq_ok.mpr
      ⟨_, Server.prepare_eq_ok.mpr ⟨c, tokens, found, built, rfl⟩, encoded⟩⟩

/-- On either server, `call_tool` starts a process for exactly the names it dispatches and the
maps whose values every statement of the branch accepts. -/
theorem launches_iff_accepts {srv : Server} (known : srv = supportServer ∨ srv = clarifyServer)
    (host : Host) (name : String) (args : ArgMap) :
    (∃ argv, srv.launch host name args = .ok argv) ↔
      ∃ c, srv.commandFor name = some c ∧ ∀ s ∈ c.build, s.accepts host.interp args = true := by
  cases found : srv.commandFor name with
  | none => simp [Server.launch, Server.prepare, found]
  | some c =>
      have listed : c ∈ srv.commands := List.mem_of_find?_eq_some found
      have literal := List.all_eq_true.mp (List.all_eq_true.mp (literalsClean_of_known known) c listed)
      rw [Server.launch_isOk_iff (launcher_noNul known host) found literal args]
      simp

theorem grep_string_paths_accepted :
    let args : ArgMap := ⟨[("pattern", .str "TODO"), ("paths", .str "src")], by decide⟩
    (∃ argv, supportServer.launch (sampleHost true) "llm_support_grep" args = .ok argv) ↔
      ∃ c, supportServer.commandFor "llm_support_grep" = some c ∧
        ∀ s ∈ c.build, s.accepts sampleInterp args = true :=
  launches_iff_accepts (.inl rfl) _ _ _

end LlmMcp
