import LlmMcp.Support

/-!
# What the text of a call tells

`call_tool` turns every outcome into one text (`Server.render`), and the text does not
determine the outcome (`render_collisions`):

* the exit status is never written, so a run that exits 1 reads as one that exits 0;
* a backend may print exactly an `ERROR: ` text, or the `\n\nSTDERR:\n` separator itself.

What the text does determine is the outcome without its exit status, a `Report`, for the
outcomes `Server.Legible` names: a stdout that neither starts with `ERROR: ` nor holds the
separator, and, when stderr is not empty, does not end in a start of the separator that the
one `call_tool` adds would complete; and an exception message that neither starts as the
unknown-tool text nor is the timeout text. `Server.readReport` reads the report back from
the text (`readReport_render`); two legible outcomes with one text therefore have one report
(`render_determines_report`).
-/

namespace LlmMcp

/-- An outcome without the exit status. -/
inductive Report where
  | unknownTool (name : String)
  | output (stdout stderr : String)
  | timedOut
  | raised (message : String)
deriving DecidableEq, Repr

def Outcome.report : Outcome → Report
  | .unknownTool name => .unknownTool name
  | .completed _ out err => .output out err
  | .timedOut => .timedOut
  | .raised message => .raised message

def errorPrefix : String := "ERROR: "

def unknownToolPrefix : String := "Unknown tool '"

/-- The message of the `TimeoutExpired` branch, after `ERROR: `. -/
def Server.timeoutMessage (srv : Server) : String :=
  "Command timed out after " ++ toString srv.timeout ++ " seconds"

/-- The text before and after the first occurrence of `sep`. -/
def splitFirst (sep : List Char) : List Char → Option (List Char × List Char)
  | [] => none
  | c :: cs =>
      if sep <+: c :: cs then some ([], (c :: cs).drop sep.length)
      else (splitFirst sep cs).map fun parts => (c :: parts.1, parts.2)

/-- Reads the report back from the text of `call_tool`. -/
def Server.readReport (srv : Server) (text : String) : Report :=
  if errorPrefix.data <+: text.data then
    let message : String := ⟨text.data.drop errorPrefix.data.length⟩
    if unknownToolPrefix.data <+: message.data then
      .unknownTool ⟨(message.data.drop unknownToolPrefix.data.length).dropLast⟩
    else if message = srv.timeoutMessage then .timedOut
    else .raised message
  else
    match splitFirst stderrSeparator.data text.data with
    | some (out, err) => .output ⟨out⟩ ⟨err⟩
    | none => .output text ""

/-- The outcomes whose text can be read back. -/
def Server.Legible (srv : Server) : Outcome → Prop
  | .completed _ out err =>
      ¬ errorPrefix.data <+: out.data ∧
        ¬ stderrSeparator.data <:+:
          out.data ++ if err.isEmpty then [] else stderrSeparator.data.dropLast
  | .raised message => ¬ unknownToolPrefix.data <+: message.data ∧ message ≠ srv.timeoutMessage
  | _ => True

instance (srv : Server) : (o : Outcome) → Decidable (srv.Legible o)
  | .unknownTool _ | .timedOut => isTrue trivial
  | .completed _ out _ => inferInstanceAs (Decidable (¬ _ <+: out.data ∧ ¬ _))
  | .raised message => inferInstanceAs (Decidable (¬ _ <+: message.data ∧ _))

/-! ## Splitting at the separator -/

section Split

variable {sep : List Char}

theorem splitFirst_none : ∀ {l : List Char}, ¬ sep <:+: l → splitFirst sep l = none
  | [], _ => rfl
  | c :: cs, absent => by
      have notHere : ¬ sep <+: c :: cs := fun here => absent here.isInfix
      simp only [splitFirst, if_neg notHere,
        splitFirst_none fun inside => absent (List.infix_cons inside), Option.map_none']

/-- The first occurrence of the separator is the one after `out`, when none starts inside
`out`. -/
theorem splitFirst_append (nonempty : sep ≠ []) :
    ∀ {out : List Char}, ¬ sep <:+: out ++ sep.dropLast → ∀ rest,
      splitFirst sep (out ++ sep ++ rest) = some (out, rest)
  | [], _, rest => by
      obtain ⟨s, ss, rfl⟩ := List.exists_cons_of_ne_nil nonempty
      simp [splitFirst, List.prefix_append]
  | c :: out, first, rest => by
      have later : (c :: out) ++ sep.dropLast <+: c :: (out ++ sep ++ rest) := by
        rw [List.cons_append, List.cons_prefix_cons, List.append_assoc,
          List.prefix_append_right_inj]
        exact ⟨rfl, (List.dropLast_prefix sep).trans (List.prefix_append sep rest)⟩
      have notHere : ¬ sep <+: c :: (out ++ sep ++ rest) := fun here =>
        first (List.prefix_of_prefix_length_le here later (by
          have := List.length_pos.mpr nonempty
          simp only [List.length_append, List.length_cons, List.length_dropLast]
          omega)).isInfix
      have tail := splitFirst_append nonempty (fun inside => first (List.infix_cons inside)) rest
      show splitFirst sep (c :: (out ++ sep ++ rest)) = _
      rw [splitFirst, if_neg notHere, tail]
      rfl

end Split

/-- A text that goes on with a line break is not `ERROR: ` unless its start already is. -/
theorem not_errorPrefix_append {out rest : List Char} (notPrefix : ¬ errorPrefix.data <+: out)
    (newline : rest.head? = some '\n') : ¬ errorPrefix.data <+: out ++ rest := by
  intro prefixed
  rcases List.prefix_or_prefix_of_prefix prefixed (List.prefix_append out rest) with longer | ⟨r, hr⟩
  · exact notPrefix longer
  · rw [← hr, List.prefix_append_right_inj] at prefixed
    cases r with
    | nil =>
        rw [List.append_nil] at hr
        subst hr
        exact notPrefix (List.prefix_refl _)
    | cons c r =>
        obtain ⟨t, rfl⟩ := prefixed
        simp only [List.cons_append, List.head?_cons, Option.some.injEq] at newline
        subst newline
        have broken : '\n' ∈ errorPrefix.data := hr ▸ List.mem_append_right _ (List.mem_cons_self _ _)
        exact absurd broken (by decide)

theorem eq_empty_of_isEmpty {s : String} (empty : s.isEmpty = true) : s = "" := by
  obtain ⟨_ | ⟨c, cs⟩⟩ := s
  · rfl
  · simp only [String.isEmpty, beq_iff_eq] at empty
    have size : String.utf8ByteSize.go cs + c.utf8Size = 0 := congrArg String.Pos.byteIdx empty
    have positive := c.utf8Size_pos
    omega

/-! ## Reading the text back -/

theorem Server.readReport_render (srv : Server) {o : Outcome} (legible : srv.Legible o) :
    srv.readReport (srv.render o) = o.report := by
  cases o with
  | unknownTool name =>
      have text : (srv.render (.unknownTool name)).data =
          errorPrefix.data ++ (unknownToolPrefix.data ++ (name.data ++ ['\''])) := rfl
      simp [readReport, text, List.prefix_append, List.drop_left, Outcome.report]
  | timedOut =>
      have text : (srv.render .timedOut).data = errorPrefix.data ++ srv.timeoutMessage.data := rfl
      have notUnknown : ¬ unknownToolPrefix.data <+: srv.timeoutMessage.data := by
        rintro ⟨t, ht⟩
        cases congrArg List.head? ht
      simp [readReport, text, List.prefix_append, List.drop_left, notUnknown, Outcome.report]
  | raised message =>
      obtain ⟨notUnknown, notTimeout⟩ := legible
      have text : (srv.render (.raised message)).data = errorPrefix.data ++ message.data := rfl
      simp [readReport, text, List.prefix_append, List.drop_left, notUnknown, notTimeout,
        Outcome.report]
  | completed code out err =>
      obtain ⟨notError, noSep⟩ := legible
      by_cases empty : err.isEmpty
      · simp only [empty, if_true, List.append_nil] at noSep
        obtain rfl := eq_empty_of_isEmpty empty
        simp [readReport, render, empty, notError, splitFirst_none noSep, Outcome.report]
      · have text : (srv.render (.completed code out err)).data =
            out.data ++ stderrSeparator.data ++ err.data := by
          simp [render, empty]
        have notError' := not_errorPrefix_append notError
          (show (stderrSeparator.data ++ err.data).head? = some '\n' from rfl)
        rw [← List.append_assoc] at notError'
        simp only [empty, Bool.false_eq_true, if_false] at noSep
        simp only [readReport, text, if_neg notError',
          splitFirst_append (by decide) noSep err.data, Outcome.report]

/-- Two legible outcomes with one text have one report. -/
theorem render_determines_report {srv : Server} {o₁ o₂ : Outcome} (legible₁ : srv.Legible o₁)
    (legible₂ : srv.Legible o₂) (same : srv.render o₁ = srv.render o₂) : o₁.report = o₂.report := by
  rw [← srv.readReport_render legible₁, ← srv.readReport_render legible₂, same]

theorem exit_status_lost :
    supportServer.Legible (.completed 0 "ok" "warning") ∧
      supportServer.Legible (.completed 1 "ok" "warning") ∧
      supportServer.render (.completed 0 "ok" "warning") =
        supportServer.render (.completed 1 "ok" "warning") ∧
      (Outcome.completed 0 "ok" "warning").report = (Outcome.completed 1 "ok" "warning").report :=
  ⟨by decide, by decide, rfl, @render_determines_report supportServer _ _ (by decide) (by decide) rfl⟩

/-- Distinct outcomes that `call_tool` writes as one text. -/
theorem render_collisions :
    let exited := Outcome.completed 1 "ok" ""
    let printsError := Outcome.completed 0 "ERROR: Command timed out after 60 seconds" ""
    let printsSeparator := Outcome.completed 0 "a\n\nSTDERR:\nb" ""
    exited ≠ .completed 0 "ok" "" ∧
      supportServer.render exited = supportServer.render (.completed 0 "ok" "") ∧
      printsError ≠ .timedOut ∧ supportServer.render printsError = supportServer.render .timedOut ∧
      printsSeparator ≠ .completed 0 "a" "b" ∧
      supportServer.render printsSeparator = supportServer.render (.completed 0 "a" "b") := by
  decide

end LlmMcp
