import Procguard.Report

/- What a report says. `report` is the object the appends of `print_json_output` are
   meant to write; each helper writes its members of it, comma first, and the line is
   the object's text (`printJsonOutput_text`). Reading the line gives the object back. -/
namespace Procguard

/-! ## The object -/

def rusageMembers : Option ResourceUsage → List (String × Json)
  | some r => [("user_time_ms", .num r.userTimeMs), ("system_time_ms", .num r.systemTimeMs),
      ("max_rss_kb", .num r.maxRssKb)]
  | none => []

/-- The number, or null. -/
def numOrNull : Option Int → Json
  | some c => .num c
  | none => .null

def attemptJson (a : AttemptResult) : Json :=
  .obj [("status", .str a.status.text), ("exit_code", numOrNull a.exitCode),
    ("elapsed_ms", .num a.elapsedMs)]

def attemptMembers (attempts : List AttemptResult) (retryCount : Nat) : List (String × Json) :=
  if retryCount = 0 then []
  else [("attempts", .num attempts.length), ("attempt_results", .arr (attempts.map attemptJson))]

def memMembers : Option Nat → List (String × Json)
  | some bytes => [("mem_bytes", .num bytes)]
  | none => []

def cpuTimeMembers : Option Duration → List (String × Json)
  | some cpu => [("cpu_time_ms", .num cpu.asMillis)]
  | none => []

def throttleMembers : Option CpuThrottleConfig → List (String × Json)
  | some cfg => [("cpu_percent", .num cfg.percent),
      ("cpu_interval_ms", .num (cfg.intervalNs / 1000000 : Nat)),
      ("cpu_sleep_ms", .num (cfg.sleepNs / 1000000 : Nat))]
  | none => []

def limitMembers (limits : ResourceLimits) (cpuThrottle : Option CpuThrottleConfig) :
    List (String × Json) :=
  memMembers limits.memBytes ++ cpuTimeMembers limits.cpuTime ++ throttleMembers cpuThrottle

/-- The limits, when there are any. -/
def limitsMember (limits : ResourceLimits) (cpuThrottle : Option CpuThrottleConfig) :
    List (String × Json) :=
  match limitMembers limits cpuThrottle with
  | [] => []
  | members => [("limits", .obj members)]

def hookMembers : Option HookResult → List (String × Json)
  | some h => [("hook_ran", .bool h.ran), ("hook_exit_code", numOrNull h.exitCode),
      ("hook_timed_out", .bool h.timedOut), ("hook_elapsed_ms", .num h.elapsedMs)]
  | none => []

/-- The fields of a result that come before those all results share. -/
def resultMembers (result : RunResult) (a : ReportArgs) : List (String × Json) :=
  match result with
  | .completed status rusage =>
    [("status", .str "completed"), ("clock", .str (clockStr a.confine)),
      ("exit_code", .num (status.code.getD (-1))), ("elapsed_ms", .num a.elapsedMs)] ++
      rusageMembers (some rusage)
  | .timedOut signal killed status rusage hook reason =>
    [("status", .str "timeout"), ("clock", .str (clockStr a.confine)),
      ("timeout_reason", .str (reasonStr reason)), ("signal", .str signal.name),
      ("signal_num", .num signal.asRaw), ("killed", .bool killed),
      ("command_exit_code", .num (commandCode status)), ("exit_code", .num a.exitCode.toNat),
      ("elapsed_ms", .num a.elapsedMs)] ++ rusageMembers rusage ++ hookMembers hook
  | .memoryLimitExceeded signal killed status rusage limitBytes actualBytes =>
    [("status", .str "memory_limit"), ("clock", .str (clockStr a.confine)),
      ("signal", .str signal.name), ("signal_num", .num signal.asRaw), ("killed", .bool killed),
      ("command_exit_code", .num (commandCode status)), ("exit_code", .num a.exitCode.toNat),
      ("elapsed_ms", .num a.elapsedMs), ("limit_bytes", .num limitBytes),
      ("actual_bytes", .num actualBytes)] ++ rusageMembers rusage
  | .signalForwarded signal status rusage =>
    [("status", .str "signal_forwarded"), ("clock", .str (clockStr a.confine)),
      ("signal", .str signal.name), ("signal_num", .num signal.asRaw),
      ("command_exit_code", .num (commandCode status)), ("exit_code", .num a.exitCode.toNat),
      ("elapsed_ms", .num a.elapsedMs)] ++ rusageMembers rusage

/-- The members after the schema version. -/
def reportMembers (result : RunResult) (a : ReportArgs) : List (String × Json) :=
  resultMembers result a ++ attemptMembers a.attempts a.retryCount ++
    limitsMember a.limits a.cpuThrottle

/-- The report on a result. -/
def report (result : RunResult) (a : ReportArgs) : Json :=
  .obj (("schema_version", .num schemaVersion) :: reportMembers result a)

/-! ## The text of the parts -/

theorem toList_toString_nat (n : Nat) : (toString n).toList = Json.render (.num n) := by
  rw [Nat.toString_eq_repr, Nat.toList_repr]
  rfl

theorem toList_toString_int (n : Int) : (toString n).toList = Json.render (.num n) := by
  cases n with
  | ofNat n => exact toList_toString_nat n
  | negSucc n =>
    show ("-" ++ toString (n + 1)).toList = _
    rw [String.toList_append, toList_toString_nat]
    rfl

theorem toList_toString_uint8 (n : UInt8) : (toString n).toList = Json.render (.num n.toNat) :=
  toList_toString_nat n.toNat

theorem toList_toString_bool (b : Bool) : (toString b).toList = Json.render (.bool b) := by
  cases b <;> rfl

theorem toList_orNull (c : Option Int) : (orNull c).toList = Json.render (numOrNull c) := by
  cases c with
  | none => rfl
  | some c => exact toList_toString_int c

theorem render_quoted {s : String} (h : s.toList.flatMap Json.escapeChar = s.toList) :
    Json.render (.str s) = '"' :: (s.toList ++ ['"']) := by
  rw [Json.render, Json.renderStr, h]

/-- The names that are written between quotes hold nothing to escape. -/
theorem render_clock (c : Confine) :
    Json.render (.str (clockStr c)) = '"' :: ((clockStr c).toList ++ ['"']) :=
  render_quoted (by cases c <;> decide)

theorem render_reason (r : TimeoutReason) :
    Json.render (.str (reasonStr r)) = '"' :: ((reasonStr r).toList ++ ['"']) :=
  render_quoted (by cases r <;> decide)

theorem render_signal (s : Signal) :
    Json.render (.str s.name) = '"' :: (s.name.toList ++ ['"']) :=
  render_quoted (by cases s <;> decide)

theorem render_status (s : AttemptStatus) :
    Json.render (.str s.text) = '"' :: (s.text.toList ++ ['"']) :=
  render_quoted (by cases s <;> decide)

theorem appendRusage_text (r : Option ResourceUsage) :
    (appendRusage r).toList = (rusageMembers r).flatMap Json.memberText := by
  cases r with
  | none => rfl
  | some r =>
    unfold appendRusage
    simp only [String.toList_append, toList_toString_nat, List.append_assoc, rusageMembers,
      List.flatMap_cons, List.flatMap_nil, Json.memberText, List.cons_append, List.append_nil]
    rfl

theorem appendHook_text (h : Option HookResult) :
    (appendHook h).toList = (hookMembers h).flatMap Json.memberText := by
  cases h with
  | none => rfl
  | some h =>
    unfold appendHook
    simp only [String.toList_append, toList_toString_nat, toList_toString_bool, hookMembers,
      List.append_assoc, List.flatMap_cons, List.flatMap_nil, Json.memberText, List.cons_append,
      List.append_nil]
    show _ ++ (_ ++ (_ ++ ((orNull h.exitCode).toList ++ _))) = _
    rw [toList_orNull]
    rfl

theorem attemptText_text (a : AttemptResult) :
    (attemptText a).toList = Json.render (attemptJson a) := by
  unfold attemptText attemptJson
  rw [Json.render_obj]
  simp only [String.toList_append, toList_toString_nat, render_status, List.append_assoc,
    List.flatMap_cons, List.flatMap_nil, Json.memberText, List.cons_append, List.append_nil]
  show _ ++ (_ ++ (_ ++ ((orNull a.exitCode).toList ++ _))) = _
  rw [toList_orNull]
  rfl

theorem attemptsText_more (i : Nat) (as : List AttemptResult) :
    (attemptsText (i + 1) as).toList ++ [']'] = Json.renderMoreElems (as.map attemptJson) := by
  induction as generalizing i with
  | nil => rfl
  | cons a as ih =>
    unfold attemptsText
    rw [if_pos (Nat.succ_pos i)]
    simp only [String.toList_append, attemptText_text, List.append_assoc, ih, List.map_cons,
      Json.renderMoreElems]
    rfl

theorem attemptsText_text (as : List AttemptResult) :
    '[' :: ((attemptsText 0 as).toList ++ [']']) = Json.render (.arr (as.map attemptJson)) := by
  cases as with
  | nil => rfl
  | cons a as =>
    unfold attemptsText
    rw [if_neg (Nat.lt_irrefl 0)]
    simp only [String.toList_append, attemptText_text, List.append_assoc, attemptsText_more,
      List.map_cons, Json.render, Json.renderElems]
    rfl

theorem appendAttempts_text (as : List AttemptResult) (retryCount : Nat) :
    (appendAttempts as retryCount).toList =
      (attemptMembers as retryCount).flatMap Json.memberText := by
  unfold appendAttempts attemptMembers
  split
  · rfl
  · simp only [String.toList_append, toList_toString_nat, List.append_assoc, List.flatMap_cons,
      List.flatMap_nil, Json.memberText, List.cons_append, List.append_nil, ← attemptsText_text]
    rfl

/-- The fields of a group, without the comma before the first. -/
def groupText (ms : List (String × Json)) : List Char := (ms.flatMap Json.memberText).drop 1

theorem memText_text (bytes : Nat) :
    (memText bytes).toList = groupText (memMembers (some bytes)) := by
  unfold memText
  simp only [String.toList_append, toList_toString_nat, groupText, memMembers, List.flatMap_cons,
    List.flatMap_nil, Json.memberText, List.append_nil, List.drop_succ_cons, List.drop_zero]
  rfl

theorem cpuTimeText_text (cpu : Duration) :
    (cpuTimeText cpu).toList = groupText (cpuTimeMembers (some cpu)) := by
  unfold cpuTimeText
  simp only [String.toList_append, toList_toString_nat, groupText, cpuTimeMembers,
    List.flatMap_cons, List.flatMap_nil, Json.memberText, List.append_nil, List.drop_succ_cons,
    List.drop_zero]
  rfl

theorem throttleText_text (cfg : CpuThrottleConfig) :
    (throttleText cfg).toList = groupText (throttleMembers (some cfg)) := by
  unfold throttleText
  simp only [String.toList_append, toList_toString_nat, groupText, throttleMembers,
    List.flatMap_cons, List.flatMap_nil, Json.memberText, List.append_assoc, List.cons_append,
    List.append_nil, List.drop_succ_cons, List.drop_zero]
  rfl

theorem render_obj_group {ms : List (String × Json)} (h : ms ≠ []) :
    Json.render (.obj ms) = '{' :: (groupText ms ++ ['}']) := by
  cases ms with
  | nil => exact absurd rfl h
  | cons m ms =>
    rw [Json.render_obj, groupText, List.flatMap_cons]
    simp only [Json.memberText, List.cons_append, List.drop_succ_cons, List.drop_zero,
      List.append_assoc]

/-- Two groups one after the other: a comma between them when both are there. -/
theorem groupText_append (ms ms' : List (String × Json)) :
    groupText (ms ++ ms') = groupText ms ++
      (if ms.isEmpty || ms'.isEmpty then [] else [',']) ++ groupText ms' := by
  unfold groupText
  cases ms with
  | nil => rfl
  | cons m ms =>
    cases ms' with
    | nil => simp
    | cons m' ms' => simp [Json.memberText]

theorem afterComma_text (wrote : Bool) (text : String) :
    (afterComma wrote text).toList = (if wrote then [','] else []) ++ text.toList := by
  unfold afterComma
  rw [String.toList_append]
  cases wrote <;> rfl

/-- The fields inside the limits, each group with its comma. -/
theorem limitsGroup_text (limits : ResourceLimits) (cpuThrottle : Option CpuThrottleConfig) :
    (limits.memBytes.elim "" memText ++
      limits.cpuTime.elim "" (fun cpu => afterComma limits.memBytes.isSome (cpuTimeText cpu)) ++
      cpuThrottle.elim "" (fun cfg =>
        afterComma (limits.memBytes.isSome || limits.cpuTime.isSome) (throttleText cfg))).toList =
      groupText (limitMembers limits cpuThrottle) := by
  obtain ⟨mem, cpu⟩ := limits
  have hmem : (mem.elim "" memText).toList = groupText (memMembers mem) := by
    cases mem with
    | none => rfl
    | some bytes => exact memText_text bytes
  have hcpu : (cpu.elim "" fun c => afterComma mem.isSome (cpuTimeText c)).toList =
      (if (memMembers mem).isEmpty || (cpuTimeMembers cpu).isEmpty then [] else [',']) ++
        groupText (cpuTimeMembers cpu) := by
    cases cpu with
    | none => cases mem <;> rfl
    | some c =>
      show (afterComma mem.isSome (cpuTimeText c)).toList = _
      rw [afterComma_text, cpuTimeText_text]
      cases mem <;> rfl
  have hthrottle : (cpuThrottle.elim "" fun cfg =>
        afterComma (mem.isSome || cpu.isSome) (throttleText cfg)).toList =
      (if (memMembers mem ++ cpuTimeMembers cpu).isEmpty || (throttleMembers cpuThrottle).isEmpty
        then [] else [',']) ++ groupText (throttleMembers cpuThrottle) := by
    cases cpuThrottle with
    | none => cases mem <;> cases cpu <;> rfl
    | some cfg =>
      show (afterComma (mem.isSome || cpu.isSome) (throttleText cfg)).toList = _
      rw [afterComma_text, throttleText_text]
      cases mem <;> cases cpu <;> rfl
  unfold limitMembers
  dsimp only
  rw [String.toList_append, String.toList_append, hmem, hcpu, hthrottle, groupText_append,
    groupText_append]
  simp only [List.append_assoc]

theorem appendLimits_text (limits : ResourceLimits) (cpuThrottle : Option CpuThrottleConfig) :
    (appendLimits limits cpuThrottle).toList =
      (limitsMember limits cpuThrottle).flatMap Json.memberText := by
  have hnone : (limits.memBytes.isNone && limits.cpuTime.isNone && cpuThrottle.isNone) =
      (limitMembers limits cpuThrottle).isEmpty := by
    obtain ⟨mem, cpu⟩ := limits
    cases mem <;> cases cpu <;> cases cpuThrottle <;> rfl
  unfold appendLimits limitsMember
  rw [hnone]
  cases hms : limitMembers limits cpuThrottle with
  | nil => rfl
  | cons m ms =>
    have hobj : Json.render (.obj (m :: ms)) = '{' :: (groupText (m :: ms) ++ ['}']) :=
      render_obj_group (List.cons_ne_nil m ms)
    have hgroup := limitsGroup_text limits cpuThrottle
    rw [hms] at hgroup
    rw [if_neg (by simp)]
    simp only [String.append_assoc] at hgroup ⊢
    rw [String.toList_append, ← String.append_assoc, ← String.append_assoc, String.toList_append,
      String.append_assoc, hgroup]
    simp only [List.flatMap_cons, List.flatMap_nil, Json.memberText, hobj, List.append_nil]
    rfl

/-! ## The line -/

set_option maxRecDepth 2000 in
/-- **The line is the text of the report.** -/
theorem printJsonOutput_text (result : RunResult) (a : ReportArgs) :
    (printJsonOutput result a).toList = Json.render (report result a) := by
  -- the text that is put together is compared with the rendered members, one result at a time
  have hobj := Json.render_obj ("schema_version", .num schemaVersion) (reportMembers result a)
  refine Eq.trans ?_ hobj.symm
  cases result with
  | completed status rusage =>
    unfold printJsonOutput reportMembers resultMembers
    simp only [List.flatMap_append, ← appendAttempts_text, ← appendLimits_text,
      ← appendRusage_text]
    simp only [String.toList_append, toList_toString_nat, toList_toString_int, render_clock,
      List.flatMap_cons, List.flatMap_nil, Json.memberText, List.append_assoc, List.cons_append,
      List.append_nil]
    rfl
  | timedOut signal killed status rusage hook reason =>
    unfold printJsonOutput reportMembers resultMembers
    simp only [List.flatMap_append, ← appendAttempts_text, ← appendLimits_text,
      ← appendRusage_text, ← appendHook_text]
    simp only [String.toList_append, toList_toString_nat, toList_toString_int, toList_toString_bool,
      toList_toString_uint8, render_clock, render_signal, render_reason, List.flatMap_cons,
      List.flatMap_nil, Json.memberText, List.append_assoc, List.cons_append, List.append_nil]
    rfl
  | memoryLimitExceeded signal killed status rusage limitBytes actualBytes =>
    unfold printJsonOutput reportMembers resultMembers
    simp only [List.flatMap_append, ← appendAttempts_text, ← appendLimits_text,
      ← appendRusage_text]
    simp only [String.toList_append, toList_toString_nat, toList_toString_int, toList_toString_bool,
      toList_toString_uint8, render_clock, render_signal, List.flatMap_cons, List.flatMap_nil,
      Json.memberText, List.append_assoc, List.cons_append, List.append_nil]
    rfl
  | signalForwarded signal status rusage =>
    unfold printJsonOutput reportMembers resultMembers
    simp only [List.flatMap_append, ← appendAttempts_text, ← appendLimits_text,
      ← appendRusage_text]
    simp only [String.toList_append, toList_toString_nat, toList_toString_int,
      toList_toString_uint8, render_clock, render_signal, List.flatMap_cons, List.flatMap_nil,
      Json.memberText, List.append_assoc, List.cons_append, List.append_nil]
    rfl

/-- **Reading the line gives the report back.** -/
theorem printJsonOutput_parse (result : RunResult) (a : ReportArgs) :
    Json.parse (printJsonOutput result a).toList = some (report result a) := by
  rw [printJsonOutput_text, Json.parse_render]

/-! ## Keys -/

theorem rusage_keys (r : Option ResourceUsage) : ((rusageMembers r).map Prod.fst).Sublist
    ["user_time_ms", "system_time_ms", "max_rss_kb"] := by
  cases r with
  | none => exact List.nil_sublist _
  | some r => exact List.Sublist.refl _

theorem hook_keys (h : Option HookResult) : ((hookMembers h).map Prod.fst).Sublist
    ["hook_ran", "hook_exit_code", "hook_timed_out", "hook_elapsed_ms"] := by
  cases h with
  | none => exact List.nil_sublist _
  | some h => exact List.Sublist.refl _

theorem attempt_keys (as : List AttemptResult) (retryCount : Nat) :
    ((attemptMembers as retryCount).map Prod.fst).Sublist ["attempts", "attempt_results"] := by
  unfold attemptMembers
  split
  · exact List.nil_sublist _
  · exact List.Sublist.refl _

theorem limits_keys (limits : ResourceLimits) (cpuThrottle : Option CpuThrottleConfig) :
    ((limitsMember limits cpuThrottle).map Prod.fst).Sublist ["limits"] := by
  unfold limitsMember
  split
  · exact List.nil_sublist _
  · exact List.Sublist.refl _

/-- The keys a result's own fields can have, in the order in which they are written. -/
def resultKeys : RunResult → List String
  | .completed .. => ["status", "clock", "exit_code", "elapsed_ms"] ++
      ["user_time_ms", "system_time_ms", "max_rss_kb"]
  | .timedOut .. => ["status", "clock", "timeout_reason", "signal", "signal_num", "killed",
      "command_exit_code", "exit_code", "elapsed_ms"] ++
      ["user_time_ms", "system_time_ms", "max_rss_kb"] ++
      ["hook_ran", "hook_exit_code", "hook_timed_out", "hook_elapsed_ms"]
  | .memoryLimitExceeded .. => ["status", "clock", "signal", "signal_num", "killed",
      "command_exit_code", "exit_code", "elapsed_ms", "limit_bytes", "actual_bytes"] ++
      ["user_time_ms", "system_time_ms", "max_rss_kb"]
  | .signalForwarded .. => ["status", "clock", "signal", "signal_num", "command_exit_code",
      "exit_code", "elapsed_ms"] ++ ["user_time_ms", "system_time_ms", "max_rss_kb"]

theorem result_keys (result : RunResult) (a : ReportArgs) :
    ((resultMembers result a).map Prod.fst).Sublist (resultKeys result) := by
  cases result with
  | completed status rusage =>
    unfold resultMembers
    rw [List.map_append]
    exact (List.Sublist.refl _).append (rusage_keys _)
  | timedOut signal killed status rusage hook reason =>
    unfold resultMembers
    rw [List.map_append, List.map_append]
    exact ((List.Sublist.refl _).append (rusage_keys _)).append (hook_keys _)
  | memoryLimitExceeded signal killed status rusage limitBytes actualBytes =>
    unfold resultMembers
    rw [List.map_append]
    exact (List.Sublist.refl _).append (rusage_keys _)
  | signalForwarded signal status rusage =>
    unfold resultMembers
    rw [List.map_append]
    exact (List.Sublist.refl _).append (rusage_keys _)

theorem report_keys (result : RunResult) (a : ReportArgs) :
    (("schema_version" :: (reportMembers result a).map Prod.fst)).Nodup := by
  have hsub : ("schema_version" :: (reportMembers result a).map Prod.fst).Sublist
      ("schema_version" :: (resultKeys result ++ ["attempts", "attempt_results"] ++ ["limits"])) := by
    unfold reportMembers
    rw [List.map_append, List.map_append]
    exact (((result_keys result a).append (attempt_keys _ _)).append (limits_keys _ _)).cons_cons _
  refine hsub.nodup ?_
  cases result <;> simp [resultKeys]

theorem numOrNull_keys (c : Option Int) : (numOrNull c).KeysDistinct := by
  cases c <;> trivial

theorem attemptJson_keys (a : AttemptResult) : (attemptJson a).KeysDistinct :=
  ⟨by simp, trivial, numOrNull_keys _, trivial, trivial⟩

theorem rusageMembers_keys (r : Option ResourceUsage) :
    Json.KeysDistinctMembers (rusageMembers r) := by
  cases r with
  | none => trivial
  | some r => exact ⟨trivial, trivial, trivial, trivial⟩

theorem hookMembers_keys (h : Option HookResult) : Json.KeysDistinctMembers (hookMembers h) := by
  cases h with
  | none => trivial
  | some h => exact ⟨trivial, numOrNull_keys _, trivial, trivial, trivial⟩

theorem attemptMembers_keys (as : List AttemptResult) (retryCount : Nat) :
    Json.KeysDistinctMembers (attemptMembers as retryCount) := by
  unfold attemptMembers
  split
  · trivial
  · have hall : Json.KeysDistinctElems (as.map attemptJson) := by
      apply Json.keysDistinctElems_of
      intro e he
      obtain ⟨a, -, rfl⟩ := List.mem_map.mp he
      exact attemptJson_keys a
    exact ⟨trivial, hall, trivial⟩

theorem limitMembers_keys (limits : ResourceLimits) (cpuThrottle : Option CpuThrottleConfig) :
    (Json.obj (limitMembers limits cpuThrottle)).KeysDistinct := by
  obtain ⟨mem, cpu⟩ := limits
  unfold limitMembers
  cases mem <;> cases cpu <;> cases cpuThrottle <;>
    simp [memMembers, cpuTimeMembers, throttleMembers]

theorem limitsMember_keys (limits : ResourceLimits) (cpuThrottle : Option CpuThrottleConfig) :
    Json.KeysDistinctMembers (limitsMember limits cpuThrottle) := by
  have h := limitMembers_keys limits cpuThrottle
  unfold limitsMember
  split
  · trivial
  · exact ⟨h, trivial⟩

theorem resultMembers_keys (result : RunResult) (a : ReportArgs) :
    Json.KeysDistinctMembers (resultMembers result a) := by
  cases result with
  | completed status rusage =>
    exact Json.keysDistinctMembers_append (by simp)
      (rusageMembers_keys _)
  | timedOut signal killed status rusage hook reason =>
    exact Json.keysDistinctMembers_append
      (Json.keysDistinctMembers_append (by simp)
        (rusageMembers_keys _)) (hookMembers_keys _)
  | memoryLimitExceeded signal killed status rusage limitBytes actualBytes =>
    exact Json.keysDistinctMembers_append (by simp)
      (rusageMembers_keys _)
  | signalForwarded signal status rusage =>
    exact Json.keysDistinctMembers_append (by simp)
      (rusageMembers_keys _)

theorem report_keysDistinct (result : RunResult) (a : ReportArgs) :
    (report result a).KeysDistinct :=
  ⟨report_keys result a, trivial, Json.keysDistinctMembers_append
    (Json.keysDistinctMembers_append (resultMembers_keys result a) (attemptMembers_keys _ _))
    (limitsMember_keys _ _)⟩

/-! ## The report and the run -/

/-- **The report is well formed**: one line that reads as one object, whose keys (and those of
    the objects in it) are pairwise distinct and whose fields hold the values they were
    printed from; with retries configured it lists every attempt in order. -/
theorem report_well_formed (result : RunResult) (a : ReportArgs) :
    '\n' ∉ (printJsonOutput result a).toList ∧
      Json.parse (printJsonOutput result a).toList = some (report result a) ∧
      (report result a).KeysDistinct ∧
      (0 < a.retryCount →
        (report result a).field "attempts" = some (.num a.attempts.length) ∧
        (report result a).field "attempt_results" = some (.arr (a.attempts.map attemptJson))) := by
  refine ⟨?_, printJsonOutput_parse result a, report_keysDistinct result a, fun hretry => ?_⟩
  · rw [printJsonOutput_text]
    exact Json.render_line _
  · have hmem : ∀ m ∈ attemptMembers a.attempts a.retryCount,
        m ∈ ("schema_version", Json.num schemaVersion) :: reportMembers result a :=
      fun m hm => List.mem_cons_of_mem _
        (List.mem_append_left _ (List.mem_append_right _ hm))
    unfold attemptMembers at hmem
    rw [if_neg (Nat.pos_iff_ne_zero.mp hretry)] at hmem
    exact ⟨Json.field_of_mem (report_keys result a) (hmem _ (List.mem_cons_self ..)),
      Json.field_of_mem (report_keys result a)
        (hmem _ (List.mem_cons_of_mem _ (List.mem_cons_self ..)))⟩

/-- The exit code that a line reports. -/
def writtenExitCode (line : String) : Option Int :=
  (Json.parse line.toList).bind (Json.intField "exit_code")

theorem writtenExitCode_report (result : RunResult) (a : ReportArgs) :
    writtenExitCode (printJsonOutput result a) = some (match result with
      | .completed status _ => status.code.getD (-1)
      | _ => a.exitCode.toNat) := by
  unfold writtenExitCode
  rw [printJsonOutput_parse]
  cases result <;> rfl

/-- A command that exited normally: its code is a byte, and no signal ended it. -/
theorem RawExitStatus.code_normal {s : RawExitStatus} (h : s.exitedNormally = true) :
    ∃ c : Nat, c ≤ 255 ∧ s.code = some (c : Int) ∧ s.signal = none := by
  have hmask : s.status &&& 0x7F#32 = 0#32 := by
    unfold RawExitStatus.exitedNormally at h
    exact beq_iff_eq.mp h
  have hle : (s.status.sshiftRight 8 &&& 0xFF#32).toNat ≤ 255 := by
    rw [BitVec.toNat_and]
    exact Nat.and_le_right
  refine ⟨(s.status.sshiftRight 8 &&& 0xFF#32).toNat, hle, ?_, ?_⟩
  · unfold RawExitStatus.code
    rw [if_pos h, BitVec.toInt_eq_toNat_of_lt (by omega)]
  · have hsig : s.signaled = false := by
      unfold RawExitStatus.signaled
      rw [hmask]
      decide
    unfold RawExitStatus.signal
    rw [hsig, if_neg Bool.false_ne_true]

theorem RawExitStatus.code_none {s : RawExitStatus} (h : s.exitedNormally = false) :
    s.code = none := by
  unfold RawExitStatus.code
  rw [h, if_neg Bool.false_ne_true]

theorem low8_toNat {c : Nat} (h : c ≤ 255) : (low8 c).toNat = c := by
  unfold low8
  have hmod : ((c : Int) % 256).toNat = c := by omega
  rw [hmod, UInt8.toNat_ofNat']
  omega

/-- **The report and the exit status agree** exactly when the result is not that of a command
    that ended by itself from a signal. -/
theorem report_agrees_iff (result : RunResult) (preserveStatus : Bool) (timeoutExitCode : UInt8)
    (a : ReportArgs) :
    (∃ n : Int, writtenExitCode (printJsonOutput result
        { a with exitCode := result.exitCode preserveStatus timeoutExitCode }) = some n ∧
      n = (result.exitCode preserveStatus timeoutExitCode).toNat ∧ 0 ≤ n ∧ n ≤ 255) ↔
      ∀ status rusage, result = .completed status rusage → status.exitedNormally = true := by
  have hbyte : ∀ b : UInt8, (b.toNat : Int) ≤ 255 := by
    intro b
    have := b.toNat_lt
    omega
  rw [writtenExitCode_report]
  cases result with
  | completed status rusage =>
    constructor
    · rintro ⟨n, hn, -, hpos, -⟩ status' rusage' heq
      cases heq
      cases hnormal : status.exitedNormally with
      | true => rfl
      | false =>
        -- a status without a code is written as -1, which no exit status is
        change some (status.code.getD (-1)) = some n at hn
        rw [RawExitStatus.code_none hnormal] at hn
        cases hn
        exact absurd hpos (by decide)
    · intro h
      obtain ⟨c, hc, hcode, hsignal⟩ := RawExitStatus.code_normal (h status rusage rfl)
      have hexit : ((RunResult.completed status rusage).exitCode preserveStatus
          timeoutExitCode).toNat = c := by
        show (statusToExitCode status).toNat = c
        unfold statusToExitCode
        rw [hsignal, hcode]
        exact low8_toNat hc
      refine ⟨c, ?_, ?_, by omega, by omega⟩
      · show some (status.code.getD (-1)) = some (c : Int)
        rw [hcode]
        rfl
      · rw [hexit]
  | timedOut | memoryLimitExceeded | signalForwarded =>
    constructor
    · intro _ _ _ heq
      cases heq
    · intro _
      exact ⟨_, rfl, rfl, Int.natCast_nonneg _, hbyte _⟩

/-- `procguard --json 10 sh -c 'kill -TERM $$'`: the report says -1, the exit status is 143. -/
theorem report_disagrees : ¬ ∀ (result : RunResult) (preserveStatus : Bool)
    (timeoutExitCode : UInt8) (a : ReportArgs),
    ∃ n : Int, writtenExitCode (printJsonOutput result
        { a with exitCode := result.exitCode preserveStatus timeoutExitCode }) = some n ∧
      n = (result.exitCode preserveStatus timeoutExitCode).toNat ∧ 0 ≤ n ∧ n ≤ 255 := by
  intro h
  obtain ⟨n, hn, -, hpos, -⟩ := h (.completed ⟨15⟩ ⟨0, 0, 0⟩) false 124
    { elapsedMs := 0, exitCode := 0, attempts := [], retryCount := 0, limits := {},
      cpuThrottle := none, confine := .wall }
  rw [writtenExitCode_report] at hn
  have hneg : (-1 : Int) = n := Option.some.inj hn
  omega

end Procguard
