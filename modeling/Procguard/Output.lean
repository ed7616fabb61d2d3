import Procguard.MainRules

/- What a run of `run_main` writes. With `--json` it reports once, on stdout, if the
   command line can be acted on; the early errors do not report. -/
namespace Procguard
open Interact

/-! ## The error report -/

def errorReport (e : TimeoutError) (elapsedMs : Nat) : Json :=
  .obj [("schema_version", .num schemaVersion), ("status", .str "error"),
    ("error", .str e.display), ("exit_code", .num e.exitCode.toNat), ("elapsed_ms", .num elapsedMs)]

theorem escapeJsonChar_eq (c : Char) : escapeJsonChar c = Json.escapeChar c := by
  unfold escapeJsonChar Json.escapeChar
  split
  · rfl
  · rfl
  · rfl
  · rfl
  · rfl
  · rename_i h₁ h₂ h₃ h₄ h₅
    rw [if_neg h₁, if_neg h₂, if_neg h₃, if_neg h₄, if_neg h₅]
    rfl

theorem quoted_escape (s : String) :
    '"' :: ((escapeJsonString s).toList ++ ['"']) = Json.render (.str s) := by
  have hchars : escapeJsonChar = Json.escapeChar := funext escapeJsonChar_eq
  rw [escapeJsonString, String.toList_ofList, hchars]
  rfl

/-- The line is the text of the report, whatever the message holds. -/
theorem printJsonError_text (e : TimeoutError) (ms : Nat) :
    (printJsonError e ms).toList = Json.render (errorReport e ms) := by
  have hobj := Json.render_obj ("schema_version", .num schemaVersion)
    [("status", .str "error"), ("error", .str e.display), ("exit_code", .num e.exitCode.toNat),
      ("elapsed_ms", .num ms)]
  refine Eq.trans ?_ hobj.symm
  unfold printJsonError
  simp only [String.toList_append, toList_toString_nat, toList_toString_uint8, List.flatMap_cons,
    List.flatMap_nil, Json.memberText, ← quoted_escape e.display, List.append_assoc,
    List.cons_append, List.append_nil]
  rfl

theorem printJsonError_parse (e : TimeoutError) (ms : Nat) :
    Json.parse (printJsonError e ms).toList = some (errorReport e ms) := by
  rw [printJsonError_text, Json.parse_render]

/-- **Error text survives JSON**: between quotes an escaped text is a string literal that reads as
    the text, and the line of an error is one line that reads as one object, whose "error" is
    the message. -/
theorem error_text_survives :
    (∀ s : String, Json.StringBody (escapeJsonString s).toList ∧
      Json.parse ('"' :: ((escapeJsonString s).toList ++ ['"'])) = some (.str s)) ∧
    ∀ (e : TimeoutError) (ms : Nat), '\n' ∉ (printJsonError e ms).toList ∧
      Json.parse (printJsonError e ms).toList = some (errorReport e ms) ∧
      (errorReport e ms).field "error" = some (.str e.display) := by
  refine ⟨fun s => ⟨?_, ?_⟩, fun e ms => ⟨?_, printJsonError_parse e ms, rfl⟩⟩
  · have hchars : escapeJsonChar = Json.escapeChar := funext escapeJsonChar_eq
    rw [escapeJsonString, String.toList_ofList, hchars]
    exact Json.flatMap_escapeChar_body s.toList
  · rw [quoted_escape, Json.parse_render]
  · rw [printJsonError_text]
    exact Json.render_line _

/-! ## One report -/

/-- One line on stdout that reads as an object, which tells the exit status of an error. -/
def OneReport (status : UInt8) (l : MainLog) : Prop :=
  ∃ line members, stdoutOf l = [.line line] ∧ Json.parse line.toList = some (.obj members) ∧
    ((Json.obj members).field "status" = some (.str "error") →
      (Json.obj members).intField "exit_code" = some status.toNat)

/-- The command line names a duration and a command, and its option values are readable. -/
def ready (args : Args) (timeoutEnv : Option String) : Bool :=
  match operandsOf args timeoutEnv with
  | .ok (d, _, _) => (configOf args d).isOk && waitReadable args
  | .error _ => false

theorem ready_of_operands {args : Args} {timeoutEnv : Option String} {d c : String}
    {as : List String} (h : operandsOf args timeoutEnv = .ok (d, c, as)) :
    ready args timeoutEnv = ((configOf args d).isOk && waitReadable args) := by
  rw [ready, h]

theorem ready_of_none {args : Args} {timeoutEnv : Option String} {code : UInt8}
    (h : operandsOf args timeoutEnv = .error code) : ready args timeoutEnv = false := by
  rw [ready, h]

/-- The status of a result is never "error". -/
theorem report_not_error (result : RunResult) (a : ReportArgs) :
    (report result a).field "status" ≠ some (.str "error") := by
  have hstatus : ∃ s, (report result a).field "status" = some (.str s) ∧ s ≠ "error" := by
    cases result
    · exact ⟨"completed", rfl, by decide⟩
    · exact ⟨"timeout", rfl, by decide⟩
    · exact ⟨"memory_limit", rfl, by decide⟩
    · exact ⟨"signal_forwarded", rfl, by decide⟩
  obtain ⟨s, hs, hne⟩ := hstatus
  rw [hs]
  intro h
  cases h
  exact hne rfl

theorem oneReport_error {l : MainLog} {e : TimeoutError} {ms : Nat}
    (h : stdoutOf l = [.line (printJsonError e ms)]) : OneReport e.exitCode l :=
  ⟨_, _, h, printJsonError_parse e ms, fun _ => rfl⟩

theorem oneReport_result {l : MainLog} {result : RunResult} {a : ReportArgs} {status : UInt8}
    (h : stdoutOf l = [.line (printJsonOutput result a)]) : OneReport status l :=
  ⟨_, _, h, printJsonOutput_parse result a, fun herr => absurd herr (report_not_error result a)⟩

theorem OneReport.nonempty {l : MainLog} {status : UInt8} (h : OneReport status l) :
    stdoutOf l ≠ [] := by
  obtain ⟨line, members, hout, -⟩ := h
  rw [hout]
  exact List.cons_ne_nil _ _

section reports
variable {args : Args} {timeoutEnv : Option String} {r : Except UInt8 UInt8} {out : List Output}
  {err : List String} {runs : List (String × List String × RunConfig)} {l : MainLog}

/-- A ready command line reports once, however the wait and the run end. -/
theorem Concluded.reports (h : Concluded args timeoutEnv r out err runs l) (hj : args.json = true)
    (hready : ready args timeoutEnv = true) (hout : stdoutOf l = out) :
    OneReport (exitStatus r) l := by
  cases h with
  | noOperands ho =>
    rw [ready_of_none ho] at hready
    cases hready
  | badOption ho hc =>
    rw [ready_of_operands ho, hc] at hready
    cases hready
  | notFound ho hc hw =>
    cases hw with
    | unreadable hw =>
      rw [ready_of_operands ho, hw, Bool.and_false] at hready
      cases hready
    | failed e hw =>
      rw [reported, hj] at hout
      exact oneReport_error hout
  | ran ho hc hw he =>
    cases he with
    | result result attempts ms =>
      rw [reported, hj] at hout
      exact oneReport_result hout
    | failed e ms =>
      rw [reported, hj] at hout
      exact oneReport_error hout

/-- Nothing is reported when the command line is not ready. -/
theorem Concluded.early (h : Concluded args timeoutEnv r out err runs l)
    (hready : ready args timeoutEnv = false) : out = [] := by
  cases h with
  | noOperands ho => rfl
  | badOption ho hc => rfl
  | notFound ho hc hw =>
    cases hw with
    | unreadable hw => rfl
    | failed e hw =>
      rw [ready_of_operands ho, hc, hw] at hready
      cases hready
  | ran ho hc hw he =>
    rw [ready_of_operands ho, hc, hw] at hready
    cases hready

end reports

/-- Some answers: the file is there, and the command cannot be started. -/
def refusingWorld : Env MainCall.Ans := fun _ q => match q with
  | .printHelp | .printVersion | .println _ | .eprintln _ => ()
  | .waitForFile _ _ _ => .ok ()
  | .setupSignalForwarding => none
  | .preciseNow => none
  | .runWithRetry command _ _ => .error (.commandNotFound command)

/-- **One report per run**, in every run of an accepted command line with `--json`, if and only
    if the command line is ready: the errors found before the wait and the run do not report. -/
theorem one_report_iff {env : Environment} {argv0 : String} {argv : List String} {args : Args}
    (h : parseArgs env argv = .ok args) (hj : args.json = true) :
    (∀ W, ∃ r l, mainRun W env argv0 argv = (some (r, ()), l) ∧ OneReport (exitStatus r) l) ↔
      ready (applyAlias argv0 args) (env "TIMEOUT") = true := by
  have hj' : (applyAlias argv0 args).json = true := by
    unfold applyAlias
    split <;> exact hj
  constructor
  · intro hall
    obtain ⟨r, l, hrun, hone⟩ := hall refusingWorld
    obtain ⟨r', l', out, err, runs, hrun', hconcl, hout, -⟩ :=
      @mainRun_concluded refusingWorld env argv0 argv args h
    rw [hrun] at hrun'
    cases hrun'
    cases hready : ready (applyAlias argv0 args) (env "TIMEOUT") with
    | true => rfl
    | false => exact absurd (hout.trans (hconcl.early hready)) hone.nonempty
  · intro hready W
    obtain ⟨r, l, out, err, runs, hrun, hconcl, hout, -⟩ := @mainRun_concluded W env argv0 argv args h
    exact ⟨r, l, hrun, hconcl.reports hj' hready hout⟩

/-- `procguard --json 5s true`. -/
theorem one_report_true :
    (∀ W, ∃ r l, mainRun W (fun _ => none) "procguard" ["--json", "5s", "true"] =
      (some (r, ()), l) ∧ OneReport (exitStatus r) l) ↔
        ready (applyAlias "procguard"
          { json := true, signal := "TERM", duration := some "5s", command := some "true" })
          none = true :=
  one_report_iff (by decide +kernel) rfl

/-- `procguard --json 5x true`: the duration is unreadable, and stdout stays empty. -/
theorem bad_duration_unreported : ¬ ∀ (W : Env MainCall.Ans) (env : Environment) (argv0 : String)
    (argv : List String) (args : Args), parseArgs env argv = .ok args → args.json = true →
    ∃ r l, mainRun W env argv0 argv = (some (r, ()), l) ∧ OneReport (exitStatus r) l := by
  intro hall
  have hparse : parseArgs (fun _ => none) ["--json", "5x", "true"] =
      .ok { json := true, signal := "TERM", duration := some "5x", command := some "true" } := by
    decide +kernel
  have hiff := (@one_report_iff (fun _ => none) "procguard" _ _ hparse rfl).mp
    fun W => hall W _ _ _ _ hparse rfl
  exact absurd hiff (by decide +kernel)

end Procguard
