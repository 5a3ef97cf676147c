import LlmMcp.Support
import LlmMcp.Clarification

/-!
# `list_tools` and `call_tool` agree

Both servers write `list_tools` and the `if`/`elif` chain of `call_tool` separately. They agree:
`call_tool` takes a branch for exactly the names `list_tools` returns and for the same names
without the prefix; every other name gets `ERROR: Unknown tool '<name>'`, whatever the backend
would do (`dispatches_listed_names`).
-/

namespace LlmMcp

/-- The names `list_tools` returns. -/
def Server.toolNames (srv : Server) : List String := srv.catalog.map (·.name)

/-- `list_tools` names the branches of `call_tool` in order, with the prefix, and no branch name
starts with the prefix. -/
def Server.namesAligned (srv : Server) : Bool :=
  srv.toolNames == srv.commands.map (srv.namePrefix ++ ·.tool) &&
    srv.commands.all fun c => !srv.namePrefix.data.isPrefixOf c.tool.data

theorem namesAligned_of_known {srv : Server} (known : srv = supportServer ∨ srv = clarifyServer) :
    srv.namesAligned = true := by
  rcases known with rfl | rfl <;> decide

theorem append_cancel_prefix {pre a b : String} (same : pre ++ a = pre ++ b) : a = b :=
  String.ext (by simpa using congrArg String.data same)

theorem Server.lookup_isSome {srv : Server} {t : String} :
    (srv.lookup t).isSome = true ↔ t ∈ srv.commands.map (·.tool) := by
  simp [lookup, List.find?_isSome]

/-- On an aligned server, `call_tool` takes a branch for the listed names, with or without the
prefix, and for no other name. -/
theorem Server.commandFor_isSome_iff {srv : Server} (aligned : srv.namesAligned = true)
    (name : String) :
    (srv.commandFor name).isSome = true ↔
      name ∈ srv.toolNames ∨ srv.namePrefix ++ name ∈ srv.toolNames := by
  simp only [namesAligned, Bool.and_eq_true, beq_iff_eq, List.all_eq_true, Bool.not_eq_eq_eq_not,
    Bool.not_true] at aligned
  obtain ⟨names, unprefixed⟩ := aligned
  have listed : ∀ x, srv.namePrefix ++ x ∈ srv.toolNames ↔ x ∈ srv.commands.map (·.tool) := by
    intro x
    rw [names]
    simp only [List.mem_map]
    exact ⟨fun ⟨c, mem, same⟩ => ⟨c, mem, append_cancel_prefix same⟩,
      fun ⟨c, mem, same⟩ => ⟨c, mem, by rw [same]⟩⟩
  have startsWith : ∀ x, srv.namePrefix.data.isPrefixOf (srv.namePrefix ++ x).data = true :=
    fun x => List.isPrefixOf_iff_prefix.mpr (by simp)
  by_cases prefixed : srv.namePrefix.data.isPrefixOf name.data
  · obtain ⟨rest, split⟩ := List.isPrefixOf_iff_prefix.mp prefixed
    obtain rfl : name = srv.namePrefix ++ ⟨rest⟩ := String.ext (by simp [split])
    rw [commandFor, stripPrefix_append, lookup_isSome, listed]
    refine ⟨.inl, fun named => named.elim id fun doubled => ?_⟩
    obtain ⟨c, mem, same⟩ := List.mem_map.mp ((listed _).mp doubled)
    have := unprefixed c mem
    rw [same, startsWith] at this
    cases this
  · have unchanged : stripPrefix srv.namePrefix name = name := by simp [stripPrefix, prefixed]
    rw [commandFor, unchanged, lookup_isSome, ← listed]
    refine ⟨.inr, fun named => named.elim (fun mem => ?_) id⟩
    rw [names] at mem
    obtain ⟨c, -, rfl⟩ := List.mem_map.mp mem
    exact absurd (startsWith c.tool) prefixed

/-- Either server takes a branch for exactly the names `list_tools` returns, with or without the
prefix; any other name gets the unknown-tool text, whatever the backend would do. -/
theorem dispatches_listed_names {srv : Server} (known : srv = supportServer ∨ srv = clarifyServer)
    (name : String) :
    ((srv.commandFor name).isSome = true ↔
        name ∈ srv.toolNames ∨ srv.namePrefix ++ name ∈ srv.toolNames) ∧
      (name ∉ srv.toolNames → srv.namePrefix ++ name ∉ srv.toolNames →
        ∀ host run args, srv.callToolText host run name args = "ERROR: Unknown tool '" ++ name ++ "'") := by
  have aligned := namesAligned_of_known known
  refine ⟨srv.commandFor_isSome_iff aligned name, fun absent absentBare host run args => ?_⟩
  have unknown : srv.commandFor name = none := Option.not_isSome_iff_eq_none.mp fun found =>
    ((srv.commandFor_isSome_iff aligned name).mp found).elim absent absentBare
  simp [Server.callToolText, Server.callTool, Server.launch, Server.prepare, unknown, Server.render]

theorem grep_alias_dispatched :
    ((supportServer.commandFor "grep").isSome = true ↔
        "grep" ∈ supportServer.toolNames ∨ supportServer.namePrefix ++ "grep" ∈ supportServer.toolNames) ∧
      ("grep" ∉ supportServer.toolNames → supportServer.namePrefix ++ "grep" ∉ supportServer.toolNames →
        ∀ host run args, supportServer.callToolText host run "grep" args =
          "ERROR: Unknown tool '" ++ "grep" ++ "'") :=
  dispatches_listed_names (.inl rfl) "grep"

end LlmMcp
