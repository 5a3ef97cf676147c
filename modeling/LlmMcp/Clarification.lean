import LlmMcp.Server

/-!
# `llm-clarification-mcp.py`

The catalog of `LLMClarificationMCPServer.list_tools`, the `_build_*_args` methods and the
branches of `call_tool`. Every command runs `llm-clarification.py` under `sys.executable` and
times out after 120 seconds.
-/

namespace LlmMcp

/-- `PREFIX` of `llm-clarification-mcp.py`. -/
def clarifyPrefix : String := "llm_clarify_"

open Kind Param in
/-- The 8 tools of `LLMClarificationMCPServer.list_tools`. -/
def clarifyCatalog : List ToolSpec :=
  [ ⟨clarifyPrefix ++ "match",
      [req "question" string, opt "entries_file" string, opt "entries_json" string,
        opt "timeout" integer]⟩,
    ⟨clarifyPrefix ++ "cluster",
      [opt "questions_file" string, opt "questions_json" string, opt "timeout" integer]⟩,
    ⟨clarifyPrefix ++ "detect_conflicts", [req "tracking_file" string, opt "timeout" integer]⟩,
    ⟨clarifyPrefix ++ "validate",
      [req "tracking_file" string, opt "context" string, opt "timeout" integer]⟩,
    ⟨clarifyPrefix ++ "init", [req "output" string, opt "force" boolean]⟩,
    ⟨clarifyPrefix ++ "add",
      [req "tracking_file" string, req "question" string, opt "answer" string, opt "id" string,
        opt "sprint_id" string, opt "context_tags" string, opt "check_match" boolean]⟩,
    ⟨clarifyPrefix ++ "promote",
      [req "tracking_file" string, req "id" string, req "target" string, opt "force" boolean]⟩,
    ⟨clarifyPrefix ++ "list",
      [req "tracking_file" string, opt "status" string, opt "min_occurrences" integer,
        opt "json_output" boolean]⟩ ]

/-! ## Argument builders -/

/-- `_build_match_args` -/
def buildMatchArgs : List Step :=
  [.option "question" "--question", .option "entries_file" "--entries-file",
    .option "entries_json" "--entries-json", .intOption "timeout" "--timeout"]

/-- `_build_cluster_args` -/
def buildClusterArgs : List Step :=
  [.option "questions_file" "--questions-file", .option "questions_json" "--questions-json",
    .intOption "timeout" "--timeout"]

/-- `_build_detect_conflicts_args` -/
def buildDetectConflictsArgs : List Step :=
  [.positional "tracking_file", .intOption "timeout" "--timeout"]

/-- `_build_validate_args` -/
def buildValidateArgs : List Step :=
  [.positional "tracking_file", .option "context" "--context", .intOption "timeout" "--timeout"]

/-- `_build_init_args` -/
def buildInitArgs : List Step :=
  [.option "output" "--output", .flag "force" "--force"]

/-- `_build_add_args` -/
def buildAddArgs : List Step :=
  [.option "tracking_file" "--tracking-file", .option "question" "--question",
    .option "answer" "--answer", .option "id" "--id", .option "sprint_id" "--sprint-id",
    .option "context_tags" "--context-tags", .flag "check_match" "--check-match"]

/-- `_build_promote_args` -/
def buildPromoteArgs : List Step :=
  [.option "tracking_file" "--tracking-file", .option "id" "--id", .option "target" "--target",
    .flag "force" "--force"]

/-- `_build_list_args` -/
def buildListArgs : List Step :=
  [.positional "tracking_file", .option "status" "--status",
    .intOption "min_occurrences" "--min-occurrences", .flag "json_output" "--json"]

/-! ## `call_tool` -/

/-- The `if`/`elif` chain of `LLMClarificationMCPServer.call_tool`. -/
def clarifyCommands : List Command :=
  [ ⟨"match", ["match-clarification"], buildMatchArgs⟩,
    ⟨"cluster", ["cluster-clarifications"], buildClusterArgs⟩,
    ⟨"detect_conflicts", ["detect-conflicts"], buildDetectConflictsArgs⟩,
    ⟨"validate", ["validate-clarifications"], buildValidateArgs⟩,
    ⟨"init", ["init-tracking"], buildInitArgs⟩,
    ⟨"add", ["add-clarification"], buildAddArgs⟩,
    ⟨"promote", ["promote-clarification"], buildPromoteArgs⟩,
    ⟨"list", ["list-entries"], buildListArgs⟩ ]

/-- `LLMClarificationMCPServer`: `cmd = [sys.executable, str(SCRIPT_PATH)]`; `timeout=120`. -/
def clarifyServer : Server where
  namePrefix := clarifyPrefix
  timeout := 120
  catalog := clarifyCatalog
  commands := clarifyCommands
  launcher host := [host.python, host.clarifyScript]

end LlmMcp
