import LlmMcp.Server

/-!
# `llm-support-mcp.py`

The catalog of `LLMSupportMCPServer.list_tools`, the `_build_*_args` methods, the branches of
`call_tool` and its launcher: the Go binary at `BINARY_PATH` when it exists at the time of the
call, the Python script otherwise. Commands time out after 60 seconds.
-/

namespace LlmMcp

/-- `PREFIX` of `llm-support-mcp.py`. -/
def supportPrefix : String := "llm_support_"

open Kind Param in
/-- The 17 tools of `LLMSupportMCPServer.list_tools`. -/
def supportCatalog : List ToolSpec :=
  [ ⟨supportPrefix ++ "tree",
      [opt "path" string, opt "depth" integer, opt "sizes" boolean, opt "no_gitignore" boolean]⟩,
    ⟨supportPrefix ++ "grep",
      [req "pattern" string, req "paths" array, opt "ignore_case" boolean,
        opt "line_numbers" boolean, opt "files_only" boolean]⟩,
    ⟨supportPrefix ++ "multiexists", [req "paths" array, opt "verbose" boolean]⟩,
    ⟨supportPrefix ++ "json_query", [req "file" string, req "query" string]⟩,
    ⟨supportPrefix ++ "markdown_headers",
      [req "file" string, opt "level" string, opt "plain" boolean]⟩,
    ⟨supportPrefix ++ "template", [req "file" string, opt "vars" object, opt "syntax" string]⟩,
    ⟨supportPrefix ++ "discover_tests", [opt "path" string, opt "json" boolean]⟩,
    ⟨supportPrefix ++ "multigrep",
      [req "keywords" string, opt "path" string, opt "extensions" string,
        opt "max_per_keyword" integer, opt "ignore_case" boolean, opt "definitions_only" boolean,
        opt "json" boolean, opt "output_dir" string]⟩,
    ⟨supportPrefix ++ "analyze_deps", [req "file" string, opt "json" boolean]⟩,
    ⟨supportPrefix ++ "detect", [opt "path" string, opt "json" boolean]⟩,
    ⟨supportPrefix ++ "count",
      [req "mode" string, req "target" string, opt "recursive" boolean, opt "pattern" string]⟩,
    ⟨supportPrefix ++ "summarize_dir",
      [req "path" string, opt "format" string, opt "recursive" boolean, opt "glob" string,
        opt "max_tokens" integer]⟩,
    ⟨supportPrefix ++ "deps", [req "manifest" string, opt "type" string, opt "json" boolean]⟩,
    ⟨supportPrefix ++ "git_context",
      [opt "path" string, opt "include_diff" boolean, opt "since" string,
        opt "max_commits" integer, opt "json" boolean]⟩,
    ⟨supportPrefix ++ "validate_plan", [req "path" string, opt "json" boolean]⟩,
    ⟨supportPrefix ++ "partition_work",
      [opt "stories" string, opt "tasks" string, opt "verbose" boolean, opt "json" boolean]⟩,
    ⟨supportPrefix ++ "repo_root", [opt "path" string, opt "validate" boolean]⟩ ]

/-! ## Argument builders -/

/-- `_build_tree_args` -/
def buildTreeArgs : List Step :=
  [.option "path" "--path", .intOption "depth" "--depth", .flag "sizes" "--sizes",
    .flag "no_gitignore" "--no-gitignore"]

/-- `_build_grep_args` -/
def buildGrepArgs : List Step :=
  [.positional "pattern", .positionals "paths", .flag "ignore_case" "-i",
    .flag "line_numbers" "-n", .flag "files_only" "-l"]

/-- `_build_multiexists_args` -/
def buildMultiexistsArgs : List Step :=
  [.positionals "paths", .flag "verbose" "--verbose", .always "--no-fail"]

/-- `_build_json_query_args` -/
def buildJsonQueryArgs : List Step :=
  [.positional "file", .positional "query"]

/-- `_build_markdown_headers_args` -/
def buildMarkdownHeadersArgs : List Step :=
  [.positional "file", .option "level" "--level", .flag "plain" "--plain"]

/-- `_build_template_args` -/
def buildTemplateArgs : List Step :=
  [.positional "file", .vars "vars" "--var", .option "syntax" "--syntax"]

/-- `_build_discover_tests_args` -/
def buildDiscoverTestsArgs : List Step :=
  [.option "path" "--path", .flag "json" "--json"]

/-- `_build_multigrep_args` -/
def buildMultigrepArgs : List Step :=
  [.option "keywords" "--keywords", .option "path" "--path", .option "extensions" "--extensions",
    .intOption "max_per_keyword" "--max-per-keyword", .flag "ignore_case" "--ignore-case",
    .flag "definitions_only" "--definitions-only", .flag "json" "--json",
    .option "output_dir" "--output-dir"]

/-- `_build_analyze_deps_args` -/
def buildAnalyzeDepsArgs : List Step :=
  [.positional "file", .flag "json" "--json"]

/-- `_build_detect_args` -/
def buildDetectArgs : List Step :=
  [.option "path" "--path", .flag "json" "--json"]

/-- `_build_count_args` -/
def buildCountArgs : List Step :=
  [.option "mode" "--mode", .positional "target", .flag "recursive" "--recursive",
    .option "pattern" "--pattern"]

/-- `_build_summarize_dir_args` -/
def buildSummarizeDirArgs : List Step :=
  [.option "path" "--path", .option "format" "--format", .flag "recursive" "--recursive",
    .option "glob" "--glob", .intOption "max_tokens" "--max-tokens"]

/-- `_build_deps_args` -/
def buildDepsArgs : List Step :=
  [.positional "manifest", .option "type" "--type", .flag "json" "--json"]

/-- `_build_git_context_args` -/
def buildGitContextArgs : List Step :=
  [.option "path" "--path", .flag "include_diff" "--include-diff", .option "since" "--since",
    .intOption "max_commits" "--max-commits", .flag "json" "--json"]

/-- `_build_validate_plan_args`, which also reads the legacy key `plan_path`. -/
def buildValidatePlanArgs : List Step :=
  [.eitherOption "path" "plan_path" "--path", .flag "json" "--json"]

/-- `_build_partition_work_args` -/
def buildPartitionWorkArgs : List Step :=
  [.option "stories" "--stories", .option "tasks" "--tasks", .flag "verbose" "--verbose",
    .flag "json" "--json"]

/-- `_build_repo_root_args` -/
def buildRepoRootArgs : List Step :=
  [.option "path" "--path", .flag "validate" "--validate"]

/-! ## `call_tool` -/

/-- `BINARY_PATH` -/
def binaryPath : String := "/usr/local/bin/llm-support"

/-- The `if`/`elif` chain of `LLMSupportMCPServer.call_tool`. -/
def supportCommands : List Command :=
  [ ⟨"tree", ["tree"], buildTreeArgs⟩,
    ⟨"grep", ["grep"], buildGrepArgs⟩,
    ⟨"multiexists", ["multiexists"], buildMultiexistsArgs⟩,
    ⟨"json_query", ["json", "query"], buildJsonQueryArgs⟩,
    ⟨"markdown_headers", ["markdown", "headers"], buildMarkdownHeadersArgs⟩,
    ⟨"template", ["template"], buildTemplateArgs⟩,
    ⟨"discover_tests", ["discover-tests"], buildDiscoverTestsArgs⟩,
    ⟨"multigrep", ["multigrep"], buildMultigrepArgs⟩,
    ⟨"analyze_deps", ["analyze-deps"], buildAnalyzeDepsArgs⟩,
    ⟨"detect", ["detect"], buildDetectArgs⟩,
    ⟨"count", ["count"], buildCountArgs⟩,
    ⟨"summarize_dir", ["summarize-dir"], buildSummarizeDirArgs⟩,
    ⟨"deps", ["deps"], buildDepsArgs⟩,
    ⟨"git_context", ["git-context"], buildGitContextArgs⟩,
    ⟨"validate_plan", ["validate-plan"], buildValidatePlanArgs⟩,
    ⟨"partition_work", ["partition-work"], buildPartitionWorkArgs⟩,
    ⟨"repo_root", ["repo-root"], buildRepoRootArgs⟩ ]

/-- `LLMSupportMCPServer`: `cmd = [BINARY_PATH]` if the binary exists, else
`[sys.executable, str(SCRIPT_PATH)]`; `timeout=60`. The docstring of `call_tool` says it calls
`llm-support.py`, but when the binary exists the script is not run. -/
def supportServer : Server where
  namePrefix := supportPrefix
  timeout := 60
  catalog := supportCatalog
  commands := supportCommands
  launcher host := if host.binaryInstalled then [binaryPath] else [host.python, host.supportScript]

end LlmMcp
