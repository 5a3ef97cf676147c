import LlmMcp.Catalog

/-!
# Undeclared arguments

A builder reads `arguments` only by key, `if "key" in args` and `args.get("key")`, so two maps
that agree on the keys the branch's builder reads start the same process (`Server.launch_congr`).
On both servers every key a builder reads is a parameter of its tool's schema, or the legacy
`plan_path` of `validate_plan` (`Server.readsDeclared`). So a key the schema does not declare
changes nothing: it is neither rejected nor passed on (`undeclared_arguments_ignored`).
-/

namespace LlmMcp

/-- Every key a branch reads is a parameter of its tool's schema, or the legacy `plan_path`. -/
def Server.readsDeclared (srv : Server) : Bool :=
  srv.catalog.all fun spec => (srv.commandFor spec.name).any fun c =>
    (c.build.flatMap Step.reads).all fun k =>
      (spec.params.map (·.name)).contains k || k == "plan_path"

theorem readsDeclared_of_known {srv : Server} (known : srv = supportServer ∨ srv = clarifyServer) :
    srv.readsDeclared = true := by
  rcases known with rfl | rfl <;> decide

theorem Server.branch_of_readsDeclared {srv : Server} (declared : srv.readsDeclared = true)
    {spec : ToolSpec} (listed : spec ∈ srv.catalog) :
    ∃ c, srv.commandFor spec.name = some c ∧
      ∀ k ∈ c.build.flatMap Step.reads, k ∈ spec.params.map (·.name) ∨ k = "plan_path" := by
  have branch := List.all_eq_true.mp declared spec listed
  cases found : srv.commandFor spec.name with
  | none => simp [found] at branch
  | some c =>
      refine ⟨c, rfl, fun k read => ?_⟩
      have reads := List.all_eq_true.mp (by simpa only [found, Option.any_some] using branch) k read
      simpa using reads

/-- On either server, arguments the tool's schema does not declare, but the legacy `plan_path`,
are ignored: the call does the same with or without them, whatever they hold. -/
theorem undeclared_arguments_ignored {srv : Server}
    (known : srv = supportServer ∨ srv = clarifyServer) {spec : ToolSpec} (listed : spec ∈ srv.catalog)
    (host : Host) (run : List String → Completion) {args args' : ArgMap}
    (same : ∀ k, k ∈ spec.params.map (·.name) ∨ k = "plan_path" → args.get? k = args'.get? k) :
    srv.callTool host run spec.name args = srv.callTool host run spec.name args' := by
  obtain ⟨c, found, declared⟩ :=
    Server.branch_of_readsDeclared (readsDeclared_of_known known) listed
  rw [Server.callTool, Server.callTool,
    Server.launch_congr found found fun k read => same k (declared k read)]

theorem grep_undeclared_key_ignored :
    let spec : ToolSpec := supportCatalog.get ⟨1, by decide⟩
    let args : ArgMap := ⟨[("pattern", .str "TODO"), ("paths", .list [.str "src"])], by decide⟩
    let args' : ArgMap :=
      ⟨[("depth", .int 3), ("pattern", .str "TODO"), ("paths", .list [.str "src"])], by decide⟩
    spec ∈ supportServer.catalog ∧
      (∀ k, k ∈ spec.params.map (·.name) ∨ k = "plan_path" → args.get? k = args'.get? k) ∧
      ∀ host run, supportServer.callTool host run spec.name args =
        supportServer.callTool host run spec.name args' := by
  intro spec args args'
  have same :
      ∀ k, k ∈ spec.params.map (·.name) ∨ k = "plan_path" → args.get? k = args'.get? k := by
    intro k declared
    have fresh : k ≠ "depth" := by
      rintro rfl
      revert declared
      decide
    simp [args, args', ArgMap.get?, lookup_cons_ite, fresh]
  exact ⟨List.get_mem _ _ _, same, fun host run =>
    undeclared_arguments_ignored (.inl rfl) (List.get_mem _ _ _) host run same⟩

end LlmMcp
