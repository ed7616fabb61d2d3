import Procguard.Duties
import Procguard.HookRules

/- The on-timeout hook within a run of `run_command`. `HookGuar` says when it is its turn:
   the hook is spawned once at most, when time is up, for the command that is still to be
   reaped, and before any signal; and no signal goes out before the hook is over. From
   the ledger comes what holds when the first wait ends (`HookReady`); the hook's own run
   is followed up to its spawn, and `HookRules` says what becomes of it then. What the
   log tells of hooks is what their spawns were answered (`hookAnswers`), and the result
   of the monitor tells the same (`HookTold`). -/
namespace Procguard
open Interact

/-! ## Spawns of the hook -/

/-- A call with which the hook starts a process. -/
def Req.spawnsHook (q : Req) : Bool := q.caller == .hook && q.call.spawns

/-- What the spawn of a hook was answered. -/
def hookAnswer : Event → Option (Except Int Int)
  | ⟨⟨.hook, .posixSpawnp _ _ _⟩, r⟩ => some r
  | _ => none

def hookAnswers (l : Trace) : List (Except Int Int) := l.filterMap hookAnswer

/-- Every hook that was started is reaped or killed, unless its supervision failed. -/
def HooksOver (l : Trace) : Prop :=
  ∀ later c as g p before, l = later ++ ⟨⟨.hook, .posixSpawnp c as g⟩, .ok p⟩ :: before →
    HookKept p later

/-- The time is up: the deadline has passed, stdin was idle, or a wake-up came that counts
    as a timeout. -/
def TimeUp (config : RunConfig) (w₀ : Watch) (l : Trace) : Prop :=
  (watch w₀ l).deadline config.timeout ≤ (watch w₀ l).clock ∨
    (∃ d ∈ config.stdinTimeout, (watch w₀ l).IdleReached (durationToNs d)) ∨ Ever (Unexpected w₀) l

/-- It is the hook's turn: the command runs as `pid`, and nothing has been done to it. -/
structure HookReady (config : RunConfig) (pid : Int) (w₀ : Watch) (l : Trace) : Prop where
  born : oldest bornPid l = some pid
  timeUp : TimeUp config w₀ l
  unsent : sends config.foreground l = []
  unreaped : reaps pid l = []
  first : hookAnswers l = []

/-- What is owed at each event. -/
structure HookGuar (config : RunConfig) (w₀ : Watch) (e : Event) (l : Trace) : Prop where
  /-- The hook is spawned in its turn, through the shell, with the pid filled in. -/
  turn : e.req.spawnsHook = true → ∃ cmd pid, config.onTimeout = some cmd ∧
    e.req = ⟨.hook, .posixSpawnp "sh" ["-c", expandHookCmd cmd pid] true⟩ ∧
    HookReady config pid w₀ l
  /-- The monitor's signals come after the hook. -/
  after : ∀ sig, monitorSend config.foreground e = some sig → HooksOver l

def hooked (config : RunConfig) (w₀ : Watch) : Contract Ans where
  guar := HookGuar config w₀

section events
variable {config : RunConfig} {pid : Int} {w₀ : Watch} {l : Trace} {q : Req} {a : Ans q}

theorem spawnsHook_of_spawns (h : q.call.spawns = false) : q.spawnsHook = false := by
  unfold Req.spawnsHook
  rw [h, Bool.and_false]

theorem hookAnswers_off (hq : q.spawnsHook = false) : hookAnswers (⟨q, a⟩ :: l) = hookAnswers l := by
  apply List.filterMap_cons_none
  obtain ⟨caller, call⟩ := q
  cases caller <;> cases call <;> first | rfl | cases hq

theorem HooksOver.event (h : HooksOver l) (hq : q.spawnsHook = false) :
    HooksOver (⟨q, a⟩ :: l) := by
  intro later c as g p before heq
  cases later with
  | nil =>
    obtain ⟨he, -⟩ := List.cons.inj heq
    cases he
    cases hq
  | cons e later =>
    obtain ⟨-, hl⟩ := List.cons.inj heq
    exact (h later c as g p before hl).append [e]

/-- Where no hook was spawned there is none to wait for. -/
theorem HooksOver.of_none (h : hookAnswers l = []) : HooksOver l := by
  intro later c as g p before hl
  have hmem : Except.ok p ∈ hookAnswers l :=
    List.mem_filterMap.mpr ⟨⟨⟨.hook, .posixSpawnp c as g⟩, .ok p⟩, by rw [hl]; simp, rfl⟩
  rw [h] at hmem
  cases hmem

theorem HookGuar.off (hq : q.spawnsHook = false) (hover : HooksOver l) :
    HookGuar config w₀ ⟨q, a⟩ l where
  turn hspawn := by
    rw [hq] at hspawn
    cases hspawn
  after _ _ := hover

/-- A call that is neither in the books nor followed by the automaton. -/
theorem HookReady.event (R : HookReady config pid w₀ l) (hq : q.Passive) (hspawn : q.spawnsHook = false) :
    HookReady config pid w₀ (⟨q, a⟩ :: l) where
  born := oldest_cons R.born
  timeUp := by
    have hm : Unmoved w₀ l (⟨q, a⟩ :: l) := .event hq.unwatched
    unfold TimeUp
    rw [hm.watch_eq]
    exact R.timeUp.imp_right fun h => h.imp_right fun h => h.later hm.suffix
  unsent := by
    rw [sends_cons, (Blank.of_idle a hq.idle).send, R.unsent]
    rfl
  unreaped := by
    rw [reaps_cons, (Blank.of_idle a hq.idle).reap, R.unreaped]
    rfl
  first := (hookAnswers_off hspawn).trans R.first

end events

/-! ## The hook's own run -/

/-- A call of the hook that starts nothing. -/
def Req.ofHookOnly (q : Req) : Prop := q.caller = .hook ∧ q.call.spawns = false

theorem Req.ofHookOnly.passive {q : Req} (hq : q.ofHookOnly) : q.Passive := .of_hook hq.1

/-- What a hook reports of itself, against what its spawn was answered. -/
def HookRan (x : HookResult) (answers : List (Except Int Int)) : Prop :=
  answers.length ≤ 1 ∧ (x.ran = true ↔ ∃ p, answers = [.ok p])

section own
variable {config : RunConfig} {pid : Int} {w₀ : Watch} {l : Trace} {fuel : Nat}

theorem ofHookOnly_nowOr {σ ε : Type} (confine : Confine) (d : Nat) :
    Act.Asking Req.ofHookOnly (nowOr .hook confine d : Act Ans σ ε Nat) :=
  asking_nowOr ⟨rfl, rfl⟩ ⟨rfl, rfl⟩ confine d

theorem ofHookOnly_reap : Act.Asking Req.ofHookOnly (hookReap fuel) :=
  asking_hookReap (fun _ => ⟨rfl, rfl⟩) fuel

theorem ofHookOnly_close (kq : Int) : Act.Asking Req.ofHookOnly (hookClose kq) :=
  .bind (.call ⟨rfl, rfl⟩) fun _ => .pure

theorem ofHookOnly_round (p kq : Int) (confine : Confine) (deadlineNs : Nat) :
    Act.Asking Req.ofHookOnly (hookRound fuel p kq confine deadlineNs ()) := by
  refine .bind (ofHookOnly_nowOr _ _) fun t => .ite (.bind (ofHookOnly_close _) fun _ => .pure)
    (.bind (.call ⟨rfl, rfl⟩) fun r => ?_)
  cases r with
  | ok ev => exact .pure
  | error err =>
    refine .ite .pure (.ite (.bind (ofHookOnly_close _) fun _ => .bind ?_ fun r => ?_)
      (.bind (ofHookOnly_close _) fun _ => .pure))
    · exact asking_hookChildTryWait fun _ => ⟨rfl, rfl⟩
    · rcases r with _ | _ | _
      · exact .pure
      · exact .bind ofHookOnly_reap fun _ => .pure
      · exact .pure

theorem ofHookOnly_wait (timeout : Duration) (confine : Confine) :
    Act.Asking Req.ofHookOnly (waitForHookWithKqueue fuel timeout confine) := by
  refine .bind .get fun c => .bind (ofHookOnly_nowOr _ _) fun t => .bind (.call ⟨rfl, rfl⟩) fun r => ?_
  cases r with
  | error _ => exact .pure
  | ok kq =>
    refine .bind (.iterate (fun _ => ofHookOnly_round _ _ _ _) fuel ()) fun r => ?_
    cases r with
    | inl r => exact .pure
    | inr ev =>
      exact .bind (ofHookOnly_close _) fun _ =>
        .ite (.ite ofHookOnly_reap .pure) (.ite ofHookOnly_reap .pure)

theorem ofHookOnly_line (line : String) : Act.Asking Req.ofHookOnly (hookLine config line) :=
  .ite (.bind (.call ⟨rfl, rfl⟩) fun _ => .pure) .pure

theorem ofHookOnly_elapsed {σ ε : Type} (startNs : Nat) :
    Act.Asking Req.ofHookOnly (hookElapsedMs config startNs : Act Ans σ ε Nat) :=
  .bind (ofHookOnly_nowOr _ _) fun _ => .pure

theorem ofHookOnly_supervise (startNs : Nat) :
    Act.Asking Req.ofHookOnly (superviseHook fuel config startNs) := by
  refine .bind (ofHookOnly_wait _ _) fun r => .bind (ofHookOnly_elapsed _) fun ms => ?_
  cases r with
  | exited status =>
    dsimp only
    cases status.code with
    | none => exact .pure
    | some code => exact .ite (.bind (ofHookOnly_line _) fun _ => .pure) .pure
  | timedOut =>
    exact .bind (ofHookOnly_line _) fun _ => .bind .get fun c => .bind (.call ⟨rfl, rfl⟩) fun _ =>
      .bind (asking_hookChildWait (fun _ => ⟨rfl, rfl⟩) fuel) fun _ => .pure
  | error e => exact .bind (ofHookOnly_line _) fun _ => .pure

/-- Such calls keep what the hook's own calls cannot change. -/
theorem ofHookOnly_stays {σ ε α : Type} {J : Trace → Prop}
    (hJ : ∀ (q : Req) (a : Ans q) (l : Trace), q.ofHookOnly → J l → J (⟨q, a⟩ :: l))
    {m : Act Ans σ ε α} (hm : m.Asking Req.ofHookOnly) :
    Act.Stays (hooked config w₀) (fun _ l => J l) m := by
  intro s l hl
  refine hm.ensures J ?_ (fun _ _ => trivial) hl
  intro q l' hq hl' a _
  refine ⟨⟨fun hspawn => ?_, fun sig hsig => ?_⟩, hJ q a l' hq hl'⟩
  · change q.spawnsHook = true at hspawn
    rw [spawnsHook_of_spawns hq.2] at hspawn
    cases hspawn
  · rw [(Blank.of_idle a hq.passive.idle).send] at hsig
    cases hsig

theorem answers_stay {σ ε α : Type} {answers : List (Except Int Int)} {m : Act Ans σ ε α}
    (hm : m.Asking Req.ofHookOnly) :
    Act.Stays (hooked config w₀) (fun _ l => hookAnswers l = answers) m :=
  ofHookOnly_stays (fun _ _ _ hq hl => (hookAnswers_off (spawnsHook_of_spawns hq.2)).trans hl) hm

theorem ready_stays {σ ε α : Type} {m : Act Ans σ ε α} (hm : m.Asking Req.ofHookOnly) :
    Act.Stays (hooked config w₀) (fun _ l => HookReady config pid w₀ l) m :=
  ofHookOnly_stays (fun _ _ _ hq R => R.event hq.passive (spawnsHook_of_spawns hq.2)) hm

/-- A hook that is supervised did run. -/
theorem superviseHook_ran (startNs : Nat) :
    Act.Returns (fun x => x.ran = true) (superviseHook fuel config startNs) := by
  refine .last fun r => .last fun ms => ?_
  cases r with
  | exited status =>
    dsimp only
    cases status.code with
    | none => exact .pure rfl
    | some code => exact .ite (.last fun _ => .pure rfl) (.pure rfl)
  | timedOut => exact .last fun _ => .last fun _ => .last fun _ => .last fun _ => .pure rfl
  | error e => exact .last fun _ => .pure rfl

theorem hookScript_turn {cmd : String} (hcmd : config.onTimeout = some cmd)
    (R : HookReady config pid w₀ l) :
    (hookScript fuel cmd pid config).Ensures (hooked config w₀) { pid := 0 } l
      fun r _ l' => ∀ x, r = .ok x → HookRan x (hookAnswers l') := by
  -- one that does not start reports that it did not
  have hrefused : ∀ (line : String) (startNs : Nat) (answers : List (Except Int Int)) (c : RawChild)
      (l : Trace), answers.length ≤ 1 → (∀ p, answers ≠ [.ok p]) → hookAnswers l = answers →
      (do
        hookLine config line
        let elapsedMs ← hookElapsedMs config startNs
        pure ({ elapsedMs } : HookResult) : HookAct HookResult).Ensures (hooked config w₀) c l
        fun r _ l' => ∀ x, r = .ok x → HookRan x (hookAnswers l') := by
    intro line startNs answers c l hlen hnot hl
    have hstays : Act.Stays (hooked config w₀) (fun _ l => hookAnswers l = answers) (do
        hookLine config line
        let elapsedMs ← hookElapsedMs config startNs
        pure ({ elapsedMs } : HookResult) : HookAct HookResult) :=
      answers_stay (.bind (ofHookOnly_line line) fun _ => .bind (ofHookOnly_elapsed startNs) fun _ => .pure)
    have hreturns : Act.Returns (fun x => x.ran = false) (do
        hookLine config line
        let elapsedMs ← hookElapsedMs config startNs
        pure ({ elapsedMs } : HookResult) : HookAct HookResult) :=
      .last fun _ => .last fun _ => .pure rfl
    refine ((hstays _ l hl).with (hreturns _ l)).mono fun r _ l' hr x hx => ?_
    obtain ⟨hanswers, hran⟩ := hr
    refine ⟨by rw [hanswers]; exact hlen, ?_⟩
    rw [hanswers, hran x hx]
    exact iff_of_false Bool.false_ne_true fun h => h.elim hnot
  -- the command line is only spawned, and must not be computed
  rw [hookScript]
  generalize hline : expandHookCmd cmd pid = expandedCmd
  have hturn : ∀ l, HookReady config pid w₀ l → ∀ a : Except Int Int, HookGuar config w₀
      ⟨⟨.hook, .posixSpawnp "sh" ["-c", expandedCmd] true⟩, a⟩ l := by
    intro l R a
    refine ⟨fun _ => ⟨cmd, pid, hcmd, ?_, R⟩, fun sig hsig => ?_⟩
    · rw [hline]
    · cases hsig
  rw [Act.ensures_bind]
  refine (ready_stays (ofHookOnly_nowOr _ _) _ l R).mono fun r c l R => ?_
  cases r with
  | error e => cases e
  | ok startNs =>
  dsimp only
  rw [Act.ensures_bind]
  refine (ready_stays (ofHookOnly_line _) _ l R).mono fun r c l R => ?_
  cases r with
  | error e => cases e
  | ok _ =>
  dsimp only
  rw [Act.ensures_bind, Act.ensures_exec]
  unfold spawnCommand
  split
  · exact hrefused _ startNs [] c l (Nat.zero_le 1) (fun _ => List.cons_ne_nil _ _ ∘ Eq.symm) R.first
  · intro a _
    have hanswers : hookAnswers (⟨⟨.hook, .posixSpawnp "sh" ["-c", expandedCmd] true⟩, a⟩ :: l) =
        [a] := by
      show a :: hookAnswers l = [a]
      rw [R.first]
    refine ⟨hturn l R a, ?_⟩
    cases a with
    | error errno =>
      refine hrefused _ startNs [.error errno] c _ (Nat.le_refl 1) (fun p h => ?_) hanswers
      cases (List.cons.inj h).1
    | ok p =>
      simp only [Act.ensures_bind, Act.ensures_modify, Prog.Ensures]
      refine ((answers_stay (ofHookOnly_supervise startNs) _ _ hanswers).with
        (superviseHook_ran startNs _ _)).mono fun r _ l' hr x hx => ?_
      obtain ⟨hone, hran⟩ := hr
      refine ⟨by rw [hone]; exact Nat.le_refl 1, ?_⟩
      rw [hone, hran x hx]
      exact iff_of_true rfl ⟨p, rfl⟩

/-- A part of a log that holds no such event lies before it. -/
theorem suffix_before {e : Event} {later before l' : Trace} (hl : l <:+ l')
    (heq : l' = later ++ e :: before) (he : e ∉ l) : l <:+ before := by
  have hsuffix : e :: before <:+ l' := by
    rw [heq]
    exact List.suffix_append _ _
  rcases List.suffix_or_suffix_of_suffix hl hsuffix with h | h
  · rcases List.suffix_cons_iff.mp h with rfl | h
    · exact absurd (List.mem_cons_self ..) he
    · exact h
  · exact absurd (h.subset (List.mem_cons_self ..)) he

/-- **In its turn the hook is spawned once at most, and it is over when it returns.** -/
theorem runOnTimeoutHook_turn {cmd : String} (hcmd : config.onTimeout = some cmd)
    (R : HookReady config pid w₀ l) :
    (runOnTimeoutHook fuel cmd pid config).Ensures (hooked config w₀) l
      fun x l' => HookRan x (hookAnswers l') ∧ HooksOver l' ∧ l <:+ l' := by
  have hturn : (hookScript fuel cmd pid config).Ensures (hooked config w₀) { pid := 0 } l _ :=
    hookScript_turn hcmd R
  have hscript := hturn.with (hookScript_keeps config fuel cmd pid l)
  have hgrown := Prog.ensures_extends (hookScript fuel cmd pid config { pid := 0 }) l
  refine Prog.ensures_bind.mpr (Prog.Ensures.mono ?_ (Prog.Ensures.with hscript hgrown))
  intro r l' hr
  obtain ⟨r, c⟩ := r
  obtain ⟨⟨hran, x, hx, hspawned⟩, hgrown⟩ := hr
  cases hx
  refine ⟨hran x rfl, ?_, hgrown⟩
  intro later c as g p before heq
  have hnot : (⟨⟨.hook, .posixSpawnp c as g⟩, .ok p⟩ : Event) ∉ l := by
    intro hmem
    have hanswer : Except.ok p ∈ hookAnswers l := List.mem_filterMap.mpr ⟨_, hmem, rfl⟩
    rw [R.first] at hanswer
    cases hanswer
  exact (hspawned later c as g p before heq (suffix_before hgrown heq hnot)).1

end own

/-! ## The rest of the monitor -/

/-- A hook's report: there is one if a hook is configured, and it tells whether it ran. -/
structure HookReport (config : RunConfig) (hook : Option HookResult)
    (answers : List (Except Int Int)) : Prop where
  configured : hook.isSome = config.onTimeout.isSome
  unasked : hook = none → answers = []
  ran : ∀ x, hook = some x → HookRan x answers

/-- What the result tells of the hook, against what the spawns of hooks were answered. -/
def HookTold (config : RunConfig) :
    Except TimeoutError RunResult → List (Except Int Int) → Prop
  | .ok (.timedOut _ _ _ _ hook _), answers => HookReport config hook answers
  | .ok (.completed _ _), answers | .ok (.memoryLimitExceeded _ _ _ _ _ _), answers => answers = []
  | .ok (.signalForwarded _ _ _), answers | .error _, answers => answers.length ≤ 1

/-- The hook is done with, or was not called for. -/
structure HookDone (pid : Int) (answers : List (Except Int Int)) (h : Handles) (l : Trace) :
    Prop where
  child : h.child.pid = pid
  answered : hookAnswers l = answers
  settled : HooksOver l

section rest
variable {config : RunConfig} {pid : Int} {w₀ : Watch} {h : Handles} {l : Trace} {fuel : Nat}
  {answers : List (Except Int Int)}

theorem HookDone.asks (H : HookDone pid answers h l) {q : Req} (hq : q.spawnsHook = false) :
    Asks (hooked config w₀) q l fun _ l' => HookDone pid answers h l' :=
  fun _ _ => ⟨.off hq H.settled, H.child, (hookAnswers_off hq).trans H.answered, H.settled.event hq⟩

/-- The throttle starts nothing. -/
theorem HookDone.throttle {ε α : Type} (H : HookDone pid answers h l) {st : CpuThrottleState}
    {m : Act Ans CpuThrottleState ε α} (hm : m.Asking fun q => q.spawnsHook = false) :
    m.Ensures (hooked config w₀) st l fun _ _ l' => HookDone pid answers h l' :=
  hm.ensures (HookDone pid answers h) (fun _ _ hq H a hr => H.asks hq a hr) (fun _ _ => trivial) H

theorem hooked_upkeep (pid : Int) (answers : List (Except Int Int)) :
    MonitorUpkeep (hooked config w₀) pid (HookDone pid answers) where
  cut _ _ _ := trivial
  aside _ _ _ hq H := H.asks (spawnsHook_of_spawns (aside_target hq).2)
  wait _ _ H _ := (H.asks rfl).mono fun r H => by
    cases r <;> exact ⟨H.child, H.answered, H.settled⟩
  poll _ _ H _ := (H.asks rfl).mono fun r H => by
    rcases r with _ | _ | _ <;> exact ⟨H.child, H.answered, H.settled⟩
  update _ _ ctx nowNs H _ := by
    have hask : Act.Asking (fun q => q.spawnsHook = false) (CpuThrottleState.update ctx.cfg nowNs) :=
      CpuThrottleState.asking_update (fun _ _ => rfl) (fun _ => rfl) _ _
    exact (H.throttle hask).mono fun _ _ _ H => ⟨H.child, H.answered, H.settled⟩
  child _ _ H := H.child
  signal _ _ _ _ hq H := by
    rcases hq with rfl | rfl <;> exact H.asks rfl
  attach _ _ _ _ H _ := ⟨H.child, H.answered, H.settled⟩
  resume _ _ _ H _ := by
    have hask : Act.Asking (fun q => q.spawnsHook = false) CpuThrottleState.resume :=
      .bind .get fun _ => .ite (.bind (.call rfl) fun _ => .modify) .pure
    exact (H.throttle hask).mono fun _ _ _ H => ⟨H.child, H.answered, H.settled⟩
  mark _ _ H := ⟨H.child, H.answered, H.settled⟩

/-- A wait before the hook's turn. -/
theorem ready_line (R : HookReady config pid w₀ l) (hchild : h.child.pid = pid) (line : String) :
    (monitorLine config line).Ensures (hooked config w₀) h l fun _ h' l' =>
      HookReady config pid w₀ l' ∧ h'.child.pid = pid := by
  refine Act.ensures_ite (fun _ => ?_) fun _ => ⟨R, hchild⟩
  simp only [Act.ensures_bind, Act.ensures_call, Act.ensures_pure]
  intro a _
  exact ⟨.off rfl (.of_none R.first), R.event ⟨rfl, .inr rfl⟩ rfl, hchild⟩

theorem runHook_turn (R : HookReady config pid w₀ l) (hchild : h.child.pid = pid) :
    (runHook fuel config pid).Ensures (hooked config w₀) h l fun r h' l' =>
      ∃ hook answers, r = .ok hook ∧ HookDone pid answers h' l' ∧ HookReport config hook answers := by
  unfold runHook
  cases hcmd : config.onTimeout with
  | none =>
    refine ⟨none, [], rfl, ⟨hchild, R.first, .of_none R.first⟩, ?_, fun _ => rfl, fun x hx => ?_⟩
    · rw [hcmd]
      rfl
    · cases hx
  | some cmd =>
    simp only [Act.ensures_bind, Act.ensures_exec, Act.ensures_pure]
    refine (runOnTimeoutHook_turn hcmd R).mono fun x l' hx => ?_
    obtain ⟨hran, hover, -⟩ := hx
    refine ⟨some x, _, rfl, ⟨hchild, rfl, hover⟩, ?_, fun hnone => ?_, fun x' hx' => ?_⟩
    · rw [hcmd]
      rfl
    · cases hnone
    · cases hx'
      exact hran

/-- A result that tells of no hook, where none was spawned or the hook's report is lost. -/
theorem HookDone.told (H : HookDone pid answers h l) (hlen : answers.length ≤ 1)
    {r : Except TimeoutError RunResult} (hr : ∀ x, r = .ok x → HookTold config (.ok x) answers) :
    HookTold config r (hookAnswers l) := by
  rw [H.answered]
  cases r with
  | ok x => exact hr x rfl
  | error e => exact hlen

theorem HookReport.length_le {hook : Option HookResult} (h : HookReport config hook answers) :
    answers.length ≤ 1 := by
  cases hook with
  | none =>
    rw [h.unasked rfl]
    exact Nat.zero_le 1
  | some x => exact (h.ran x rfl).1

/-- Time is up: the hook, and then the signals. -/
theorem onTimeout_turn {reason : TimeoutReason} (R : HookReady config pid w₀ l)
    (hchild : h.child.pid = pid) :
    (onTimeout fuel config pid reason).Ensures (hooked config w₀) h l fun r _ l' =>
      HookTold config r (hookAnswers l') := by
  rw [onTimeout_eq, Act.ensures_bind]
  refine (ready_line R hchild _).mono fun r h₁ l₁ hr => ?_
  obtain ⟨R₁, hchild₁⟩ := hr
  cases r with
  | error e =>
    show (hookAnswers l₁).length ≤ 1
    rw [R₁.first]
    exact Nat.zero_le 1
  | ok _ =>
  dsimp only
  rw [Act.ensures_bind]
  refine (runHook_turn R₁ hchild₁).mono fun r h₂ l₂ hr => ?_
  obtain ⟨hook, answers, rfl, H, hfits⟩ := hr
  have hreturns : Act.Returns (fun x => HookTold config (.ok x) answers)
      (afterHook fuel config pid reason hook) :=
    afterHook_gives (fun _ _ _ => hfits) fun _ _ _ => hfits.length_le
  refine (((hooked_upkeep pid answers).afterHook fuel reason hook h₂ l₂ H).with
    (hreturns h₂ l₂)).mono fun r h₃ l₃ hr => ?_
  exact hr.1.told hfits.length_le hr.2

/-- What a wait that ended without a signal leaves. -/
theorem HookDone.ready {startNs : Nat} {reason : TimeoutReason} (H : HookDone pid [] h l)
    (hborn : oldest bornPid l = some pid) (hs : Supervised config pid [] h l)
    (hverdict : Verdict w₀ (waitArgsOf config pid startNs) l (.timedOut reason)) :
    HookReady config pid w₀ l := by
  refine ⟨hborn, ?_, hs.sent_eq, hs.unreaped, H.answered⟩
  cases reason with
  | wallClock => exact hverdict.elim .inl fun h => .inr (.inr h)
  | stdinIdle =>
    obtain ⟨cfg, hcfg, hidle⟩ := hverdict
    obtain ⟨d, hd, rfl⟩ := Option.map_eq_some_iff.mp hcfg
    exact .inr (.inl ⟨d, hd, hidle⟩)

theorem handleResult_turn {startNs : Nat} {r : WaitResult} (H : HookDone pid [] h l)
    (hborn : oldest bornPid l = some pid)
    (hr : Waited config pid w₀ (waitArgsOf config pid startNs) [] (Supervised config pid [])
      (.ok r) h l) :
    (handleResult fuel config pid r).Ensures (hooked config w₀) h l fun r _ l' =>
      HookTold config r (hookAnswers l') := by
  have U : MonitorUpkeep (hooked config w₀) pid (HookDone pid []) := hooked_upkeep pid []
  have hnone : ∀ {m : SuperAct RunResult}, Act.Stays (hooked config w₀) (HookDone pid []) m →
      Act.Returns (fun x => HookTold config (.ok x) []) m →
      m.Ensures (hooked config w₀) h l fun r _ l' => HookTold config r (hookAnswers l') :=
    fun hm hreturns => ((hm h l H).with (hreturns h l)).mono fun _ _ _ hr =>
      hr.1.told (Nat.zero_le 1) hr.2
  cases r with
  | exited status rusage =>
    exact hnone (.bind U.markProcessExited fun _ => .pure) (.last fun _ => .pure rfl)
  | receivedSignal sig =>
    exact hnone (U.forwardSignal fuel sig) (forwardSignal_gives fun _ _ _ => Nat.zero_le 1)
  | memoryLimitExceeded limitBytes actualBytes =>
    exact hnone (U.onMemoryLimit fuel _ _) (onMemoryLimit_gives fun _ _ _ => rfl)
  | timedOut reason =>
    obtain ⟨hs, hverdict, -⟩ := hr
    exact onTimeout_turn (H.ready hborn hs hverdict) H.child

/-- The attempt from the first clock reading on: the ledger says what the wait leaves. -/
theorem supervise_turn {startNs : Nat} (H : HookDone pid [] h l)
    (hborn : oldest bornPid l = some pid) (hs : Supervised config pid [] h l)
    (hnone : h.throttle = none) (hready : (watch w₀ l).Ready (waitArgsOf config pid startNs)) :
    (supervise fuel config pid startNs).Ensures (hooked config w₀) h l fun r _ l' =>
      HookTold config r (hookAnswers l') := by
  have U : MonitorUpkeep (hooked config w₀) pid (HookDone pid []) := hooked_upkeep pid []
  rw [supervise, Act.ensures_bind]
  have hattach : (attachThrottle config pid startNs).Ensures (ledger config pid w₀) h l _ :=
    attachThrottle_ensures hs hnone
  have hattached := Prog.Ensures.beside hattach (U.attachThrottle startNs h l H) fun _ _ _ => trivial
  refine Prog.Ensures.mono ?_ (hattached.with (Prog.ensures_extends _ l))
  intro p l₁ hp
  obtain ⟨r, h₁⟩ := p
  obtain ⟨⟨⟨hr, hs₁, hm₁⟩, H₁⟩, hgrown₁⟩ := hp
  cases hr
  dsimp only
  rw [Act.ensures_bind]
  have hready₁ : (watch w₀ l₁).Ready (waitArgsOf config pid startNs) := by
    rw [hm₁.watch_eq]
    exact hready
  have hwait : (waitWithKqueue fuel (waitArgsOf config pid startNs)).Ensures (ledger config pid w₀)
      h₁ l₁ _ := firstWait_ensures hs₁ hready₁
  have hwaited := Prog.Ensures.beside hwait (U.waitWithKqueue fuel _ h₁ l₁ H₁) fun _ _ _ => trivial
  refine Prog.Ensures.mono ?_ (hwaited.with (Prog.ensures_extends _ l₁))
  intro p l₂ hp
  obtain ⟨r, h₂⟩ := p
  obtain ⟨⟨hwaited, H₂⟩, hgrown₂⟩ := hp
  cases r with
  | ok r => exact handleResult_turn H₂ (oldest_suffix (hgrown₁.trans hgrown₂) hborn) hwaited
  | error e =>
    show (hookAnswers l₂).length ≤ 1
    rw [H₂.answered]
    exact Nat.zero_le 1

/-- The throttle's last signal is none of the monitor's. -/
theorem dropThrottle_turn {r : Except TimeoutError RunResult} (h : Handles)
    (hl : HookTold config r (hookAnswers l)) :
    (dropThrottle h).Ensures (hooked config w₀) l fun _ l' => HookTold config r (hookAnswers l') := by
  have hask : Act.Asking (fun q => q.caller = .throttle) CpuThrottleState.resume :=
    .bind .get fun _ => .ite (.bind (.call rfl) fun _ => .modify) .pure
  unfold dropThrottle
  cases h.throttle with
  | none => exact hl
  | some ctx =>
    dsimp only
    rw [Prog.ensures_bind, CpuThrottleState.drop, Prog.ensures_bind]
    refine hask.ensures (fun l' => HookTold config r (hookAnswers l')) ?_ (fun _ _ => trivial) hl
    intro q l' hq hl' a _
    obtain ⟨caller, call⟩ := q
    cases hq
    refine ⟨⟨fun hspawn => ?_, fun sig hsig => ?_⟩, ?_⟩
    · cases hspawn
    · rw [monitorSend_throttle] at hsig
      cases hsig
    · have hsame : hookAnswers (⟨⟨.throttle, call⟩, a⟩ :: l') = hookAnswers l' := hookAnswers_off rfl
      show HookTold config r (hookAnswers (⟨⟨.throttle, call⟩, a⟩ :: l'))
      rw [hsame]
      exact hl'

theorem monitorWithTimeout_turn (hfresh : Fresh config pid l) (hborn : oldest bornPid l = some pid)
    (hfirst : hookAnswers l = []) :
    (monitorWithTimeout fuel config).Ensures (hooked config (Watch.ofConfig config))
      { child := { pid } } l fun r _ l' => HookTold config r (hookAnswers l') := by
  -- a child that was just spawned has been sent nothing and is not held
  have hs : Supervised config pid [] { child := { pid } } l := by
    refine ⟨rfl, rfl, hfresh.unreaped, hfresh.sent_eq, fun _ h => ?_, fun _ h => ?_, fun hst => ?_,
      fun hne => absurd rfl hne⟩
    · cases h
    · cases h
    · rw [hfresh.held] at hst
      cases hst
  have H : HookDone pid [] { child := { pid } } l := ⟨rfl, hfirst, .of_none hfirst⟩
  simp only [monitorWithTimeout, Act.ensures_bind, Act.ensures_get, ensures_now]
  refine asksClock_intro (Watch.ofConfig config) fun e t hreq _ _ hw _ => ?_
  obtain ⟨q, a⟩ := e
  change q = _ at hreq
  have hidle : q.idle = true := by
    rw [hreq]
    cases config.confine <;> rfl
  have hspawn : q.spawnsHook = false := by
    rw [hreq]
    rfl
  have hasks : Asks (hooked config (Watch.ofConfig config)) q l _ := H.asks hspawn
  obtain ⟨hguar, H₁⟩ := hasks a trivial
  refine ⟨hguar, ?_⟩
  cases t with
  | none =>
    show (hookAnswers _).length ≤ 1
    rw [H₁.answered]
    exact Nat.zero_le 1
  | some startNs =>
    refine Act.ensures_onExit.mpr ((supervise_turn H₁ (oldest_cons hborn) (hs.blank (.of_idle a hidle)) rfl
      ?_).mono fun r h' l' hr => dropThrottle_turn h' hr)
    rw [hw, hfresh.watch_eq]
    exact waitArgsOf_ready config pid startNs

/-- Without a timeout there is no hook. -/
theorem runForever_turn (H : HookDone pid [] h l) :
    (runForever fuel).Ensures (hooked config w₀) h l fun r _ l' =>
      HookTold config r (hookAnswers l') := by
  have U : MonitorUpkeep (hooked config w₀) pid (HookDone pid []) := hooked_upkeep pid []
  have hstays : Act.Stays (hooked config w₀) (HookDone pid []) (runForever fuel) :=
    .bind (U.childWaitOrFail fuel) fun _ => .pure
  have hreturns : Act.Returns (fun x => HookTold config (.ok x) []) (runForever fuel) :=
    .last fun _ => .pure rfl
  exact ((hstays h l H).with (hreturns h l)).mono fun _ _ _ hr => hr.1.told (Nat.zero_le 1) hr.2

/-- The log when the command has just been spawned. -/
theorem runChild_turn {e : Event} (hspawn : hookAnswer e = none) (hborn : bornPid e = some pid)
    (hfresh : Fresh config pid [e]) :
    (runChild fuel config { child := { pid } }).Ensures (hooked config (Watch.ofConfig config)) [e]
      fun r l' => HookTold config r.1 (hookAnswers l') := by
  have hnone : hookAnswers [e] = [] := List.filterMap_cons_none hspawn
  have H : HookDone pid [] { child := { pid } } [e] := ⟨rfl, hnone, .of_none hnone⟩
  have hrun : (if isNoTimeout config.timeout then runForever fuel
      else monitorWithTimeout fuel config).Ensures (hooked config (Watch.ofConfig config))
        { child := { pid } } [e] fun r _ l' => HookTold config r (hookAnswers l') :=
    Act.ensures_ite (fun _ => runForever_turn H) fun _ =>
      monitorWithTimeout_turn hfresh (oldest_first rfl hborn) hnone
  exact hrun

theorem runCommand_turn (config : RunConfig) (fuel : Nat) (command : String) (args : List String) :
    (runCommand fuel command args config).Ensures (hooked config (Watch.ofConfig config)) []
      fun r l => HookTold config r (hookAnswers l) := by
  have hchild : ∀ (e : Event) (pid : Int), hookAnswer e = none → bornPid e = some pid →
      Fresh config pid [e] →
      ((runChild fuel config { child := { pid } }).bind fun r => .done r.1).Ensures
        (hooked config (Watch.ofConfig config)) [e] fun r l => HookTold config r (hookAnswers l) := by
    intro e pid hspawn hborn hfresh
    rw [Prog.ensures_bind]
    exact runChild_turn hspawn hborn hfresh
  -- without a child there is no hook
  have hfail : ([] : List (Except Int Int)).length ≤ 1 := Nat.zero_le 1
  rw [runCommand, Prog.ensures_bind, spawnFor]
  split
  · rw [spawnCommand]
    split
    · exact hfail
    · intro r _
      refine ⟨.off rfl (.of_none rfl), ?_⟩
      cases r with
      | ok pid => exact hchild _ pid rfl rfl ⟨rfl, rfl, rfl, rfl⟩
      | error errno => exact hfail
  · rw [spawnCommandWithLimits]
    split
    · exact hfail
    · intro r _
      refine ⟨.off rfl (.of_none rfl), ?_⟩
      cases r with
      | ok pid => exact hchild _ pid rfl rfl ⟨rfl, rfl, rfl, rfl⟩
      | error errno => exact hfail

end rest

/-- **The hook in its turn.** In every run of `run_command` the hook is spawned once at most:
    if it is configured, when the time of the command that runs is up, through the shell with
    the command's pid filled in, before the monitor has signalled or reaped the command. The
    monitor's signals come after the hook has been reaped or killed, unless its supervision
    failed. A result that tells of a timeout tells whether the hook was started, one that tells
    of an exit or of the memory limit comes without any. -/
theorem hook_in_turn (W : World) (fuel : Nat) (command : String) (args : List String)
    (config : RunConfig) :
    let run := (runCommand fuel command args config).run W []
    Always (HookGuar config (Watch.ofConfig config)) run.2 ∧
      ∀ r, run.1 = some r → HookTold config r (hookAnswers run.2) := by
  intro run
  have hturn := runCommand_turn config fuel command args
  have hrely := Always.of_forall (P := (hooked config (Watch.ofConfig config)).rely)
    (fun _ _ => trivial) run.2
  exact ⟨(hturn.sound W trivial hrely).1, fun r hr => hturn.returns W hrely hr⟩

end Procguard
