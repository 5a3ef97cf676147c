import LlmMcp.Decode

/-!
# The backends' command lines

The backends, the `llm-support` binary or script and `llm-clarification.py`, are not part of
these sources. What the servers rely on is stated here, subcommand by subcommand, as the
GNU-style convention of `decodeArgs` reads it: each option's token, the parameter it sets and
how it reads its value, and the positional parameters in order (grep: the pattern, then the
paths). `--no-fail` of `multiexists` is a switch that sets no parameter of the tool.

`Server.readsBack` checks every branch of `call_tool` against this table: a builder that wrote
its positional tokens in another order, or an option under another name, would fail it.
-/

namespace LlmMcp

open OptionKind in
/-- The subcommands of `llm-support` and their command lines. -/
def supportSurfaces : List (List String × Surface) :=
  [ (["tree"], ⟨[("--path", "path", text), ("--depth", "depth", integer),
      ("--sizes", "sizes", switch), ("--no-gitignore", "no_gitignore", switch)], []⟩),
    (["grep"], ⟨[("-i", "ignore_case", switch), ("-n", "line_numbers", switch),
      ("-l", "files_only", switch)], [("pattern", false), ("paths", true)]⟩),
    (["multiexists"], ⟨[("--verbose", "verbose", switch), ("--no-fail", "", ignored)],
      [("paths", true)]⟩),
    (["json", "query"], ⟨[], [("file", false), ("query", false)]⟩),
    (["markdown", "headers"], ⟨[("--level", "level", text), ("--plain", "plain", switch)],
      [("file", false)]⟩),
    (["template"], ⟨[("--var", "vars", pair), ("--syntax", "syntax", text)], [("file", false)]⟩),
    (["discover-tests"], ⟨[("--path", "path", text), ("--json", "json", switch)], []⟩),
    (["multigrep"], ⟨[("--keywords", "keywords", text), ("--path", "path", text),
      ("--extensions", "extensions", text), ("--max-per-keyword", "max_per_keyword", integer),
      ("--ignore-case", "ignore_case", switch), ("--definitions-only", "definitions_only", switch),
      ("--json", "json", switch), ("--output-dir", "output_dir", text)], []⟩),
    (["analyze-deps"], ⟨[("--json", "json", switch)], [("file", false)]⟩),
    (["detect"], ⟨[("--path", "path", text), ("--json", "json", switch)], []⟩),
    (["count"], ⟨[("--mode", "mode", text), ("--recursive", "recursive", switch),
      ("--pattern", "pattern", text)], [("target", false)]⟩),
    (["summarize-dir"], ⟨[("--path", "path", text), ("--format", "format", text),
      ("--recursive", "recursive", switch), ("--glob", "glob", text),
      ("--max-tokens", "max_tokens", integer)], []⟩),
    (["deps"], ⟨[("--type", "type", text), ("--json", "json", switch)], [("manifest", false)]⟩),
    (["git-context"], ⟨[("--path", "path", text), ("--include-diff", "include_diff", switch),
      ("--since", "since", text), ("--max-commits", "max_commits", integer),
      ("--json", "json", switch)], []⟩),
    (["validate-plan"], ⟨[("--path", "path", text), ("--json", "json", switch)], []⟩),
    (["partition-work"], ⟨[("--stories", "stories", text), ("--tasks", "tasks", text),
      ("--verbose", "verbose", switch), ("--json", "json", switch)], []⟩),
    (["repo-root"], ⟨[("--path", "path", text), ("--validate", "validate", switch)], []⟩) ]

open OptionKind in
/-- The subcommands of `llm-clarification.py` and their command lines. -/
def clarifySurfaces : List (List String × Surface) :=
  [ (["match-clarification"], ⟨[("--question", "question", text),
      ("--entries-file", "entries_file", text), ("--entries-json", "entries_json", text),
      ("--timeout", "timeout", integer)], []⟩),
    (["cluster-clarifications"], ⟨[("--questions-file", "questions_file", text),
      ("--questions-json", "questions_json", text), ("--timeout", "timeout", integer)], []⟩),
    (["detect-conflicts"], ⟨[("--timeout", "timeout", integer)], [("tracking_file", false)]⟩),
    (["validate-clarifications"], ⟨[("--context", "context", text),
      ("--timeout", "timeout", integer)], [("tracking_file", false)]⟩),
    (["init-tracking"], ⟨[("--output", "output", text), ("--force", "force", switch)], []⟩),
    (["add-clarification"], ⟨[("--tracking-file", "tracking_file", text),
      ("--question", "question", text), ("--answer", "answer", text), ("--id", "id", text),
      ("--sprint-id", "sprint_id", text), ("--context-tags", "context_tags", text),
      ("--check-match", "check_match", switch)], []⟩),
    (["promote-clarification"], ⟨[("--tracking-file", "tracking_file", text), ("--id", "id", text),
      ("--target", "target", text), ("--force", "force", switch)], []⟩),
    (["list-entries"], ⟨[("--status", "status", text),
      ("--min-occurrences", "min_occurrences", integer), ("--json", "json_output", switch)],
      [("tracking_file", false)]⟩) ]

/-- The command line of a subcommand; a subcommand neither backend has accepts nothing. -/
def backendSurface (subcommand : List String) : Surface :=
  ((supportSurfaces ++ clarifySurfaces).lookup subcommand).getD ⟨[], []⟩

end LlmMcp
