import LlmMcp.Builder

/-!
# `call_tool`

The `call_tool` handlers of both servers have one shape:

1. strip the server's `PREFIX` from the tool name, when the name starts with it;
2. choose the launcher (the support server probes `Path(BINARY_PATH).exists()` on every call);
3. find the command name in an `if`/`elif` chain and append the branch's subcommand and its
   builder's tokens, or return `ERROR: Unknown tool '<name>'`;
4. `subprocess.run(cmd, capture_output=True, text=True, timeout=...)`, whose arguments go through
   `os.fsencode` before the process starts;
5. return stdout, followed by `\n\nSTDERR:\n` and stderr when stderr is not empty; a timeout or any
   other exception becomes an `ERROR: ` text.

`Server.callTool` is the `Outcome` of steps 1 to 4 and `Server.render` is step 5. The child
process is not modelled: `callTool` takes what it does as an argument, a `Completion` for each
argument vector.
-/

namespace LlmMcp

/-! ## The environment of a call -/

/-- What `call_tool` reads from its process and its file system. -/
structure Host where
  /-- `sys.executable` -/
  python : String
  /-- `str(SCRIPT_PATH)` in `llm-support-mcp.py` -/
  supportScript : String
  /-- `str(SCRIPT_PATH)` in `llm-clarification-mcp.py` -/
  clarifyScript : String
  /-- `Path(BINARY_PATH).exists()` at the time of the call -/
  binaryInstalled : Bool
  /-- the interpreter running the server, whose `str` and `repr` the builders call -/
  interp : Interp
  /-- Paths the operating system hands out hold no NUL character. -/
  paths_noNul : noNul python ∧ noNul supportScript ∧ noNul clarifyScript

/-- A host for the concrete runs of this development: Python at `/usr/bin/python3`, the scripts
under `/opt/llm-tools/src/mcp`, and `sampleInterp`. -/
def sampleHost (installed : Bool) : Host :=
  ⟨"/usr/bin/python3", "/opt/llm-tools/src/mcp/llm-support.py",
    "/opt/llm-tools/src/mcp/llm-clarification.py", installed, sampleInterp, by decide⟩

/-- How the child process ended, as `subprocess.run` reports it. -/
inductive Completion where
  | exited (returncode : Int) (stdout stderr : String)
  | timedOut
  /-- An exception from starting the process or from decoding its output, with its `str`. -/
  | failed (message : String)

/-- What a call came to, before it is turned into text. -/
inductive Outcome where
  | unknownTool (name : String)
  | completed (returncode : Int) (stdout stderr : String)
  | timedOut
  | raised (message : String)
deriving DecidableEq, Repr

/-! ## Servers -/

/-- One branch `elif cmd_name == tool:` of `call_tool`, with the subcommand it appends and the
builder it calls. -/
structure Command where
  tool : String
  subcommand : List String
  build : List Step

structure Server where
  /-- `PREFIX` -/
  namePrefix : String
  /-- the `timeout=` of `subprocess.run`, in seconds -/
  timeout : Nat
  /-- `list_tools` -/
  catalog : List ToolSpec
  /-- the branches of `call_tool`, in order -/
  commands : List Command
  /-- the start of `cmd`, before the subcommand -/
  launcher : Host → List String

/-- `name[len(PREFIX):] if name.startswith(PREFIX) else name` -/
def stripPrefix (pre name : String) : String :=
  if pre.data.isPrefixOf name.data then ⟨name.data.drop pre.length⟩ else name

@[simp] theorem stripPrefix_append (pre tool : String) : stripPrefix pre (pre ++ tool) = tool := by
  have prefixed : pre.data.isPrefixOf (pre ++ tool).data = true :=
    List.isPrefixOf_iff_prefix.mpr (List.prefix_append _ _)
  rw [stripPrefix, if_pos prefixed]
  show String.mk ((pre.data ++ tool.data).drop pre.data.length) = tool
  rw [List.drop_left]

/-- `os.fsencode`, which `subprocess` applies to every argument. -/
def fsencode : Value → Except String String
  | .str s => if noNul s then .ok s else .error "embedded null byte"
  | v => .error ("expected str, bytes or os.PathLike object, not " ++ v.typeName)

/-- The separator `call_tool` puts between stdout and stderr. -/
def stderrSeparator : String := "\n\nSTDERR:\n"

namespace Server

/-- The branch of the `if`/`elif` chain that `cmd_name` selects. -/
def lookup (srv : Server) (cmdName : String) : Option Command :=
  srv.commands.find? (·.tool == cmdName)

/-- The branch `call_tool` takes for the tool name `name`. -/
def commandFor (srv : Server) (name : String) : Option Command :=
  srv.lookup (stripPrefix srv.namePrefix name)

/-- Steps 1 to 3: the `cmd` handed to `subprocess.run`, or the text returned before it. -/
def prepare (srv : Server) (host : Host) (name : String) (args : ArgMap) :
    Except Outcome (List Value) :=
  match srv.commandFor name with
  | none => .error (.unknownTool name)
  | some c =>
      match runSteps host.interp args c.build with
      | .error message => .error (.raised message)
      | .ok tokens => .ok ((srv.launcher host ++ c.subcommand).map .str ++ tokens)

/-- The argument vector of the process `call_tool` starts, or the outcome without a process. -/
def launch (srv : Server) (host : Host) (name : String) (args : ArgMap) :
    Except Outcome (List String) :=
  match srv.prepare host name args with
  | .error outcome => .error outcome
  | .ok cmd =>
      match cmd.mapM fsencode with
      | .error message => .error (.raised message)
      | .ok argv => .ok argv

/-- Steps 1 to 4, with `run` standing for the child process. -/
def callTool (srv : Server) (host : Host) (run : List String → Completion) (name : String)
    (args : ArgMap) : Outcome :=
  match srv.launch host name args with
  | .error outcome => outcome
  | .ok argv =>
      match run argv with
      | .exited code out err => .completed code out err
      | .timedOut => .timedOut
      | .failed message => .raised message

/-- Step 5: the text of the `TextContent` returned. -/
def render (srv : Server) : Outcome → String
  | .unknownTool name => "ERROR: Unknown tool '" ++ name ++ "'"
  | .completed _ out err => if err.isEmpty then out else out ++ stderrSeparator ++ err
  | .timedOut => "ERROR: Command timed out after " ++ toString srv.timeout ++ " seconds"
  | .raised message => "ERROR: " ++ message

/-- The text `call_tool` returns. -/
def callToolText (srv : Server) (host : Host) (run : List String → Completion) (name : String)
    (args : ArgMap) : String :=
  srv.render (srv.callTool host run name args)

end Server

/-! ## Starting the process -/

/-- Every tool `list_tools` names selects a branch of `call_tool` whose statements read the tool's
parameters with their declared kinds, and whose literal tokens hold no NUL character. -/
def Server.conformant (srv : Server) : Bool :=
  srv.catalog.all fun spec =>
    match srv.commandFor spec.name with
    | some c => c.build.all (·.conforms spec) && (c.subcommand ++ c.build.flatMap Step.names).all noNul
    | none => false

theorem Server.prepare_eq_ok {srv : Server} {host : Host} {name : String} {args : ArgMap}
    {cmd : List Value} :
    srv.prepare host name args = .ok cmd ↔ ∃ c tokens, srv.commandFor name = some c ∧
      runSteps host.interp args c.build = .ok tokens ∧
        cmd = (srv.launcher host ++ c.subcommand).map .str ++ tokens := by
  unfold prepare
  constructor
  · intro prepared
    split at prepared
    · cases prepared
    rename_i c found
    split at prepared
    · cases prepared
    rename_i tokens built
    cases prepared
    exact ⟨c, tokens, found, built, rfl⟩
  · rintro ⟨c, tokens, found, built, rfl⟩
    simp only [found, built]

theorem Server.launch_eq_ok {srv : Server} {host : Host} {name : String} {args : ArgMap}
    {argv : List String} :
    srv.launch host name args = .ok argv ↔
      ∃ cmd, srv.prepare host name args = .ok cmd ∧ cmd.mapM fsencode = .ok argv := by
  unfold launch
  constructor
  · intro launched
    split at launched
    · cases launched
    rename_i cmd prepared
    split at launched
    · cases launched
    rename_i strs encoded
    cases launched
    exact ⟨cmd, prepared, encoded⟩
  · rintro ⟨cmd, prepared, encoded⟩
    simp only [prepared, encoded]

/-- Two calls whose names select the same branch, on maps that agree on the keys its builder
reads, hand `subprocess.run` the same arguments. -/
theorem Server.launch_congr {srv : Server} {host : Host} {name name' : String} {c : Command}
    (found : srv.commandFor name = some c) (found' : srv.commandFor name' = some c)
    {args args' : ArgMap} (same : ∀ k ∈ c.build.flatMap Step.reads, args.get? k = args'.get? k) :
    srv.launch host name args = srv.launch host name' args' := by
  simp only [launch, prepare, found, found', runSteps_congr same]

/-- Strings pass `os.fsencode` unchanged when none holds a NUL character. -/
theorem mapM_fsencode_strs : ∀ (strs : List String),
    (strs.map .str).mapM fsencode =
      if strs.all noNul then .ok strs else .error "embedded null byte"
  | [] => rfl
  | s :: rest => by
      rw [List.map_cons, List.mapM_cons, mapM_fsencode_strs rest]
      by_cases clean : noNul s <;> by_cases cleanRest : rest.all noNul <;>
        simp [fsencode, clean, cleanRest] <;> rfl

theorem bind_eq_ok {ε α β : Type} {x : Except ε α} {f : α → Except ε β} {b : β}
    (bound : x >>= f = .ok b) : ∃ a, x = .ok a ∧ f a = .ok b := by
  cases x with
  | error e => cases bound
  | ok a => exact ⟨a, rfl, bound⟩

theorem fsencode_ok {v : Value} {s : String} (encoded : fsencode v = .ok s) : v = .str s := by
  cases v with
  | str x =>
      simp only [fsencode] at encoded
      split at encoded
      · cases encoded
        rfl
      · cases encoded
  | _ => cases encoded

/-- Only strings pass `os.fsencode`. -/
theorem mapM_fsencode_ok : ∀ {cmd : List Value} {argv : List String},
    cmd.mapM fsencode = .ok argv → cmd = argv.map .str
  | [], argv, encoded => by
      cases encoded
      rfl
  | v :: rest, argv, encoded => by
      rw [List.mapM_cons] at encoded
      obtain ⟨s, head, encoded⟩ := bind_eq_ok encoded
      obtain ⟨strs, tail, encoded⟩ := bind_eq_ok encoded
      cases encoded
      rw [fsencode_ok head, mapM_fsencode_ok tail]
      rfl

/-- The process starts with the branch's strings exactly when none of them holds a NUL
character. -/
theorem Server.launch_of_built {srv : Server} {host : Host} {name : String} {args : ArgMap}
    {c : Command} (branch : srv.commandFor name = some c) {strs : List String}
    (built : runSteps host.interp args c.build = .ok (strs.map .str)) :
    srv.launch host name args =
      let argv := srv.launcher host ++ c.subcommand ++ strs
      if argv.all noNul then .ok argv else .error (.raised "embedded null byte") := by
  simp only [launch, prepare, branch, built, ← List.map_append, mapM_fsencode_strs]
  by_cases clean : (srv.launcher host ++ c.subcommand ++ strs).all noNul <;>
    simp only [clean, ↓reduceIte, Bool.false_eq_true]

end LlmMcp
