import Procguard.Household
import Procguard.Timing

/- A run of `run_with_retry`, and whose processes it touches. One attempt is put together
   from the invariant of the handles and the ledger, which is about a run from the empty log
   and is read here above the log the attempt starts from. Between two attempts nothing is
   held and no command is left, and the last status in the log is the one the last result
   tells. -/
namespace Procguard
open Interact

/-- The call that starts the command. -/
def spawnCall (command : String) (args : List String) (config : RunConfig) : Call :=
  if config.limits.isEmpty then .posixSpawnp command args (!config.foreground)
  else .fork command args (!config.foreground) config.limits.memBytes
    (config.limits.cpuTime.map Duration.asSecs)

/-- What every event of a run owes: it signals and waits for processes that procguard
    started and has not reaped, and what it starts is the command, when none is left. -/
structure HouseholdGuar (spawn : Call) (e : Event) (l : Trace) : Prop where
  own : ∀ p, e.req.call.target = some p → processes.Living p l
  apart : isSpawn e = true → ∀ p, ¬ commands.Living p l
  command : isSpawn e = true → e.req.call = spawn

def household (spawn : Call) : Contract Ans where
  guar := HouseholdGuar spawn

/-- Between two attempts: nothing is held, and no command is left. -/
structure Alone (l : Trace) : Prop where
  backed : processes.Backed [] l
  held : commands.Held [] l

theorem Alone.nil : Alone [] := ⟨Tenure.Backed.nil, Tenure.Held.nil⟩

theorem isSpawn_aside {e : Event} (h : e.req.call.spawns = false) : isSpawn e = false := by
  obtain ⟨⟨caller, call⟩, a⟩ := e
  cases call <;> first | (cases caller <;> rfl) | cases h

theorem isSpawn_caller {e : Event} (h : isSpawn e = true) :
    e.req.call.spawns = true ∧ e.req.caller = .monitor := by
  obtain ⟨⟨caller, call⟩, a⟩ := e
  cases caller <;> cases call <;> first | exact ⟨rfl, rfl⟩ | cases h

/-- A call about no process owes nothing. -/
theorem HouseholdGuar.of_aside {spawn : Call} {q : Req} {a : Ans q} {l : Trace}
    (hq : q.call.aside = true) : HouseholdGuar spawn ⟨q, a⟩ l := by
  obtain ⟨htarget, hspawns⟩ := aside_target hq
  have hno : isSpawn ⟨q, a⟩ = true → False := by
    rw [isSpawn_aside hspawns]
    exact Bool.false_ne_true
  refine ⟨fun p hp => ?_, fun hs => (hno hs).elim, fun hs => (hno hs).elim⟩
  rw [htarget] at hp
  cases hp

theorem Alone.event {l : Trace} (h : Alone l) {q : Req} {a : Ans q} (hq : q.call.aside = true) :
    Alone (⟨q, a⟩ :: l) := by
  obtain ⟨htarget, hspawns⟩ := aside_target hq
  have hb : bornPid ⟨q, a⟩ = none := bornPid_aside hspawns
  exact ⟨h.backed.aside hb (reapedPid_of_target htarget),
    h.held.later (List.suffix_cons _ l) fun p => commands_births hb⟩

/-! ## One attempt -/

section attempt
variable {base : Trace} {pid : Int} {config : RunConfig} {fuel : Nat}

/-- Signals go to the command, and none after it was reaped. -/
def guarded (base : Trace) (pid : Int) : Contract Ans where
  guar e l := ∀ p, signalTo e = some p → p = pid ∧ ∃ t, l = t ++ base ∧ reaps pid t = []

/-- What an attempt leaves behind. -/
structure AttemptLeft (base : Trace) (pid : Int) (r : Except TimeoutError RunResult)
    (l : Trace) : Prop where
  later : base <:+ l
  backed : processes.Backed [] l
  started : ∀ p, commands.births p l = commands.births p base
  reaped : ∀ x, r = .ok x → retriable x = true → commands.deaths pid base < commands.deaths pid l
  told : ∀ x st, r = .ok x → x.report.1 = some st → (statuses l).head? = some st

theorem deaths_above (pid : Int) (t base : Trace) :
    commands.deaths pid (t ++ base) = (reaps pid t).length + commands.deaths pid base := by
  rw [reaps_length, Tenure.deaths, Tenure.deaths, Tenure.deaths, List.countP_append]

/-- A result tells the one status the command was reaped with, if any; one that may be
    retried has one to tell. -/
structure Attested (pid : Int) (x : RunResult) (t : Trace) : Prop where
  status : retriable x = true → x.report.1.isSome = true
  reap : ∀ st, x.report.1 = some st → ∃ rusage, reaps pid t = [(st, rusage)]

theorem Housed.left {extra : List Int} {h : Handles} {l : Trace} {r : Except TimeoutError RunResult}
    (H : Housed base pid extra h l)
    (hattested : ∀ x t, r = .ok x → l = t ++ base → Attested pid x t) :
    AttemptLeft base pid r l := by
  obtain ⟨t, rfl, hlog⟩ := H.added
  refine ⟨List.suffix_append t base, H.backed.forget (List.nil_sublist _), H.started, ?_, ?_⟩
  · intro x hx hretry
    have hx := hattested x t hx rfl
    obtain ⟨st, hst⟩ := Option.isSome_iff_exists.mp (hx.status hretry)
    obtain ⟨rusage, hreap⟩ := hx.reap st hst
    rw [deaths_above, hreap, List.length_singleton]
    omega
  · intro x st hx hst
    obtain ⟨rusage, hreap⟩ := (hattested x t hx rfl).reap st hst
    have hstatuses : statuses (t ++ base) = statuses t ++ statuses base := List.filterMap_append ..
    rw [hstatuses, hlog.statuses_eq, hreap]
    rfl

/-- The monitor's run: the ledger says when it signals and what it has reaped. -/
theorem monitorWithTimeout_guarded :
    (monitorWithTimeout fuel config).Ensures (guarded base pid) { child := { pid } } base
      fun r _ l => ∀ x t, r = .ok x → l = t ++ base → Attested pid x t := by
  have hledger : (monitorWithTimeout fuel config).Ensures
      (ledger config pid (Watch.ofConfig config)) { child := { pid } } [] fun r _ l =>
        Closed config pid (Watch.ofConfig config) r l ∧ ∀ x, r = .ok x → Tells x :=
    (monitorWithTimeout_ensures (Fresh.nil config pid)).with (monitorWithTimeout_tells _ _)
  have habove := Prog.Ensures.above hledger base
  refine Prog.Ensures.mono ?_ (habove.weaken (fun _ _ _ _ _ => trivial) ?_ fun _ _ => trivial)
  · rintro ⟨r, h⟩ l ⟨t, rfl, hclosed, htells⟩ x t' hx hl
    cases hx
    obtain rfl := List.append_cancel_right hl
    refine ⟨htells x rfl, fun st hst => ?_⟩
    rcases hclosed.told.2 with ⟨st', hreap, hreport⟩ | ⟨-, hnone, -⟩
    · rw [hreport] at hst
      cases hst
      exact ⟨st'.2, hreap⟩
    · rw [hnone] at hst
      cases hst
  · rintro e l - ⟨t, rfl, hguar⟩ p hp
    obtain ⟨hpid, hreap⟩ := hguar.target p hp
    exact ⟨hpid, t, rfl, hreap⟩

/-- A run without a timeout signals nobody; it ends with the command. -/
theorem runForever_guarded :
    (runForever fuel).Ensures (guarded base pid) { child := { pid } } base
      fun r _ l => ∀ x t, r = .ok x → l = t ++ base → Attested pid x t := by
  have hwait : (childWaitOrFail fuel).Ensures (guarded base pid) { child := { pid } } base
      fun r _ l => ∀ st t, r = .ok st → l = t ++ base → ∃ rusage, reaps pid t = [(st.1, rusage)] := by
    refine childWaitOrFail_ensures (fun _ l => ∃ t, l = t ++ base ∧ reaps pid t = []) rfl ?_
      (fun _ _ => trivial) ⟨[], rfl, rfl⟩
    rintro n l ⟨t, rfl, hnone⟩ r -
    refine ⟨by rintro _ ⟨⟩, ?_⟩
    cases r with
    | ok st =>
      rintro _ t' ⟨⟩ hl
      have ht' : t' = ⟨⟨.monitor, .wait4 pid⟩, .ok st⟩ :: t := (List.append_cancel_right hl).symm
      refine ⟨st.2, ?_⟩
      rw [ht', reaps_cons, hnone]
      simp [reapOf]
    | error err =>
      dsimp only
      split
      · exact ⟨⟨⟨.monitor, .wait4 pid⟩, .error err⟩ :: t, rfl, by rw [reaps_cons, hnone]; rfl⟩
      · rintro _ _ ⟨⟩
  rw [runForever, Act.ensures_bind]
  refine hwait.mono fun r h l hr => ?_
  cases r with
  | error e => rintro _ _ ⟨⟩
  | ok st =>
    rintro _ t ⟨⟩ hl
    refine ⟨by rintro ⟨⟩, fun st' hst' => ?_⟩
    cases hst'
    exact hr st t rfl hl

/-- Nobody but the hook starts a process in an attempt. -/
theorem HouseGuar.no_spawn {e : Event} {l : Trace} (h : HouseGuar base pid e l) :
    isSpawn e = true → False := by
  intro hs
  obtain ⟨hspawns, hcaller⟩ := isSpawn_caller hs
  rw [h.starts hspawns] at hcaller
  cases hcaller

/-- The two together: every signal goes to a process of ours. -/
theorem HouseholdGuar.of_house {spawn : Call} {e : Event} {l : Trace}
    (h : HouseGuar base pid e l) (hsig : (guarded base pid).guar e l) :
    HouseholdGuar spawn e l where
  own p hp := by
    cases hs : signalTo e with
    | none => exact h.own hs p hp
    | some p' =>
      have htarget := signalTo_target hs
      rw [hp] at htarget
      cases htarget
      obtain ⟨rfl, t, hl, hreap⟩ := hsig p hs
      exact h.signal t hl hreap
  apart hs := (h.no_spawn hs).elim
  command hs := (h.no_spawn hs).elim

/-- One attempt, from the log the spawn left. -/
theorem runChild_household (spawn : Call) (hbacked : processes.Backed [pid] base) :
    (runChild fuel config).Ensures (household spawn) { child := { pid } } base fun r _ l =>
      AttemptLeft base pid r l := by
  have H : Housed base pid [] { child := { pid } } base :=
    ⟨rfl, hbacked, ⟨[], rfl, by rintro ⟨⟩, rfl⟩, fun _ => rfl⟩
  have hhouse := (housed_upkeep base pid config).runChild fuel _ _ H
  have hguarded : (runChild fuel config).Ensures (guarded base pid) { child := { pid } } base
      fun r _ l => ∀ x t, r = .ok x → l = t ++ base → Attested pid x t :=
    Act.ensures_ite (fun _ => runForever_guarded) fun _ => monitorWithTimeout_guarded
  refine Prog.Ensures.mono ?_ ((Prog.Ensures.both hhouse hguarded).weaken
    (fun _ _ _ => ⟨trivial, trivial⟩) (fun e l _ h => .of_house h.1 h.2) fun _ _ => trivial)
  rintro ⟨r, h⟩ l ⟨H', hattested⟩
  exact H'.left hattested

end attempt

/-! ## The spawn -/

section run
variable {command : String} {args : List String} {config : RunConfig} {fuel : Nat} {l : Trace}

/-- The log a spawn leaves. -/
def SpawnLeft : Except SpawnError RawChild → Trace → Prop
  | .ok child, l => child.exited = false ∧ processes.Backed [child.pid] l ∧
      commands.Held [child.pid] l
  | .error _, l => Alone l

/-- A spawn of the command: it is all there is. -/
theorem Alone.asks_spawn (h : Alone l) {call : Call} {P : Ans ⟨.monitor, call⟩ → Trace → Prop}
    (hspawn : call.spawns = true)
    (hleft : ∀ a : Ans ⟨.monitor, call⟩, (∃ pid, bornPid ⟨⟨.monitor, call⟩, a⟩ = some pid ∧
        (processes.Backed [pid] (⟨⟨.monitor, call⟩, a⟩ :: l) →
          commands.Held [pid] (⟨⟨.monitor, call⟩, a⟩ :: l) → P a (⟨⟨.monitor, call⟩, a⟩ :: l))) ∨
      (bornPid ⟨⟨.monitor, call⟩, a⟩ = none ∧
        (Alone (⟨⟨.monitor, call⟩, a⟩ :: l) → P a (⟨⟨.monitor, call⟩, a⟩ :: l)))) :
    Asks (household call) ⟨.monitor, call⟩ l P := by
  have htarget : call.target = none := by cases call <;> first | rfl | cases hspawn
  intro a _
  have hreaped : reapedPid ⟨⟨.monitor, call⟩, a⟩ = none := reapedPid_of_target htarget
  refine ⟨⟨fun p hp => ?_, fun _ => h.held.none_living, fun _ => rfl⟩, ?_⟩
  · exact absurd (htarget.symm.trans hp) (Option.some_ne_none p).symm
  rcases hleft a with ⟨pid, hborn, hP⟩ | ⟨hborn, hP⟩
  · exact hP (h.backed.birth hborn hreaped) (h.held.birth hborn)
  · exact hP ⟨h.backed.aside hborn hreaped,
      h.held.later (List.suffix_cons _ l) fun p => commands_births hborn⟩

theorem spawnFor_household (h : Alone l) :
    (spawnFor command args config).Ensures (household (spawnCall command args config)) l
      SpawnLeft := by
  unfold spawnFor spawnCall
  split
  · unfold spawnCommand
    split
    · exact h
    · refine h.asks_spawn rfl fun r => ?_
      cases r with
      | ok pid => exact .inl ⟨pid, rfl, fun hb hh => ⟨rfl, hb, hh⟩⟩
      | error errno => exact .inr ⟨rfl, id⟩
  · unfold spawnCommandWithLimits
    split
    · exact h
    · refine h.asks_spawn rfl fun r => ?_
      cases r with
      | ok pid => exact .inl ⟨pid, rfl, fun hb hh => ⟨rfl, hb, hh⟩⟩
      | error errno => exact .inr ⟨rfl, id⟩

/-- What a call of `run_command` leaves: nothing is left of an attempt that may be retried,
    and the last status is the one the result tells. -/
structure CommandLeft (r : Except TimeoutError RunResult) (l : Trace) : Prop where
  alone : ∀ x, r = .ok x → retriable x = true → Alone l
  told : ∀ x st, r = .ok x → x.report.1 = some st → (statuses l).head? = some st

theorem runCommand_household (h : Alone l) :
    (runCommand fuel command args config).Ensures (household (spawnCall command args config)) l
      CommandLeft := by
  rw [runCommand, Prog.ensures_bind]
  refine (spawnFor_household h).mono fun r l₁ hleft => ?_
  cases r with
  | error e => exact ⟨by rintro _ ⟨⟩, by rintro _ _ ⟨⟩⟩
  | ok child =>
    obtain ⟨pid, exited⟩ := child
    obtain ⟨rfl, hbacked, hheld⟩ := hleft
    have hchild : (runChild fuel config).Ensures (household (spawnCall command args config))
        { child := { pid } } l₁ fun r _ l => AttemptLeft l₁ pid r l :=
      runChild_household _ hbacked
    rw [Prog.ensures_bind]
    refine Prog.Ensures.mono ?_ hchild
    rintro ⟨r, h⟩ l' left
    refine ⟨fun x hx hretry => ?_, left.told⟩
    exact ⟨left.backed, hheld.release left.later left.started (left.reaped x hx hretry)⟩

/-! ## Between two attempts -/

def Req.apart (q : Req) : Prop := q.call.aside = true

theorem statuses_apart {q : Req} {a : Ans q} (hq : q.apart) :
    statuses (⟨q, a⟩ :: l) = statuses l := by
  have huntold : Untold 0 ⟨q, a⟩ := .of_none 0 (reapedPid_of_target (aside_target hq).1)
  rw [statuses_cons, huntold.status]
  rfl

theorem CommandLeft.event {r : Except TimeoutError RunResult} {q : Req} {a : Ans q}
    (h : CommandLeft r l) (hq : q.apart) : CommandLeft r (⟨q, a⟩ :: l) := by
  refine ⟨fun x hx hretry => (h.alone x hx hretry).event hq, fun x st hx hst => ?_⟩
  rw [statuses_apart hq]
  exact h.told x st hx hst

/-- Calls about no process owe nothing, and keep what every one of them keeps. -/
theorem apart_stays {spawn : Call} {J : Trace → Prop} {ε α : Type} {m : Act Ans Unit ε α}
    (hm : m.Asking Req.apart) (hJ : ∀ q a l, q.apart → J l → J (⟨q, a⟩ :: l)) (h : J l) :
    m.Ensures (household spawn) () l fun _ _ l' => J l' :=
  hm.ensures J (fun q l hq h a _ => ⟨.of_aside hq, hJ q a l hq h⟩) (fun _ _ => trivial) h

theorem asking_apart_nowOr (confine : Confine) (d : Nat) :
    Act.Asking Req.apart (nowOr .retry confine d : RetryAct Nat) := by
  refine .exec ?_
  cases confine with
  | wall => exact ⟨rfl, fun r => by cases r <;> exact trivial⟩
  | active => exact ⟨rfl, fun _ => trivial⟩

theorem asking_apart_line (config : RunConfig) (line : String) :
    Act.Asking Req.apart (retryLine config line) := .ite (.bind (.call rfl) fun _ => .pure) .pure

theorem asking_apart_sleepMs (fuel ms : Nat) : Act.Asking Req.apart (sleepMs fuel ms) :=
  (sleepMs_unfailing (fun _ => rfl) fuel ms).asking

theorem asking_apart_kqueueDelay (fuel : Nat) (d : Duration) (signalFd : Option Int) :
    Act.Asking Req.apart (kqueueDelay fuel d signalFd) := by
  have hclock : Act.Asking Req.apart activeNowNs := .bind (.call rfl) fun _ => .pure
  refine .ite .pure (.bind hclock fun startNs => .bind (.call rfl) fun r => ?_)
  cases r with
  | error err => exact .bind (asking_apart_sleepMs fuel _) fun _ => .pure
  | ok kq =>
    refine .iterate (fun _ => .bind hclock fun currentNs => ?_) _ _
    refine .ite (.bind (.call rfl) fun _ => .pure) (.bind (.call rfl) fun r => ?_)
    cases r with
    | ok ev => exact .bind (.call rfl) fun _ => .pure
    | error err =>
      exact .ite .pure (.bind (.call rfl) fun _ => .bind hclock fun t =>
        .ite (.bind (asking_apart_sleepMs fuel _) fun _ => .pure) .pure)

theorem asking_apart_retryDelay (fuel : Nat) (config : RunConfig) (attempt : Nat)
    (signalFd : Option Int) : Act.Asking Req.apart (retryDelay fuel config attempt signalFd) := by
  refine .bind (asking_apart_line config _) fun _ =>
    .ite .pure (.bind (asking_apart_kqueueDelay fuel _ signalFd) fun completed => .ite .pure ?_)
  cases signalFd with
  | none => exact .pure
  | some fd => exact .bind (.call rfl) fun _ => .pure

theorem runAttempt_household (h : Alone l) :
    (runAttempt fuel command args config).Ensures (household (spawnCall command args config)) () l
      fun r _ l' => ∀ x ms, r = .ok (x, ms) → CommandLeft (.ok x) l' := by
  rw [runAttempt, Act.ensures_bind]
  refine (apart_stays (asking_apart_nowOr _ _) (fun _ _ _ hq h => h.event hq) h).mono
    fun r _ l₁ h₁ => ?_
  cases r with
  | error e => rintro _ _ ⟨⟩
  | ok start =>
    dsimp only
    rw [Act.ensures_bind, Act.ensures_lift]
    refine (runCommand_household h₁).mono fun r l₂ h₂ => ?_
    cases r with
    | error e => rintro _ _ ⟨⟩
    | ok result =>
      dsimp only
      rw [Act.ensures_bind]
      refine (apart_stays (asking_apart_nowOr _ _) (fun _ _ _ hq h => h.event hq) h₂).mono
        fun r _ l₃ h₃ => ?_
      cases r with
      | error e => rintro _ _ ⟨⟩
      | ok t =>
        rintro _ _ ⟨⟩
        exact h₃

/-- What a run tells of the command is the last status. -/
def TellsLast (r : Except TimeoutError (RunResult × Attempts)) (l : Trace) : Prop :=
  ∀ x attempts st, r = .ok (x, attempts) → x.report.1 = some st → (statuses l).head? = some st

theorem TellsLast.event {r : Except TimeoutError (RunResult × Attempts)} {q : Req} {a : Ans q}
    (h : TellsLast r l) (hq : q.apart) : TellsLast r (⟨q, a⟩ :: l) := by
  intro x attempts st hx hst
  rw [statuses_apart hq]
  exact h x attempts st hx hst

/-- The loop, by induction on the numbers that are left. -/
theorem retryLoop_household (signalFd : Option Int) (maxAttempts left : Nat) :
    ∀ (attempt safetyCounter : Nat) (attempts : Attempts) (l : Trace), Alone l →
      (retryLoop fuel command args config signalFd maxAttempts left attempt safetyCounter
        attempts).Ensures (household (spawnCall command args config)) () l fun r _ l' =>
          TellsLast r l' := by
  induction left with
  | zero =>
    intro _ _ _ _ _
    rintro _ _ _ ⟨⟩
  | succ left ih =>
    intro attempt safetyCounter attempts l h
    rw [retryLoop]
    refine Act.ensures_ite (fun _ => ?_) fun _ => ?_
    · rintro _ _ _ ⟨⟩
    rw [Act.ensures_bind]
    refine (runAttempt_household h).mono fun r _ l₁ hr => ?_
    cases r with
    | error e => rintro _ _ _ ⟨⟩
    | ok x =>
      obtain ⟨result, ms⟩ := x
      have hleft := hr result ms rfl
      -- a result that is returned comes from the attempt that ran last
      have hreturned : ∀ attempts : Attempts,
          (pure (result, attempts) : RetryAct _).Ensures
            (household (spawnCall command args config)) () l₁ fun r _ l' => TellsLast r l' := by
        intro attempts x _ st hx hst
        cases hx
        exact hleft.told _ st rfl hst
      cases hretry : retriable result with
      | false => simp only [hretry, Bool.not_false, if_true]; exact hreturned _
      | true =>
        simp only [hretry, Bool.not_true, Bool.false_eq_true, if_false]
        refine Act.ensures_ite (fun _ => hreturned _) fun _ => ?_
        rw [Act.ensures_bind]
        -- an attempt that is retried has left no process behind
        have h₁ : Alone l₁ := hleft.alone result rfl hretry
        refine (apart_stays (asking_apart_retryDelay fuel config attempt signalFd)
          (fun _ _ _ hq h => h.event hq) h₁).mono ?_
        intro r _ l₂ h₂
        rcases r with e | _ | sig
        · rintro _ _ _ ⟨⟩
        · exact ih _ _ _ l₂ h₂
        · rintro _ _ _ ⟨⟩ ⟨⟩

theorem runWithRetry_household (h : Alone l) :
    (runWithRetry fuel command args config).Ensures (household (spawnCall command args config)) ()
      l fun r _ l' => TellsLast r l' := by
  have hloop : ∀ l, Alone l → (do
      let fd ← sys .retry .loadSignalPipe
      let maxAttempts := cappedRetry config + 1
      retryLoop fuel command args config (if 0 ≤ fd then some fd else none) maxAttempts
        maxAttempts 0 0 {} : RetryAct _).Ensures (household (spawnCall command args config)) () l
        fun r _ l' => TellsLast r l' := by
    intro l h fd _
    exact ⟨.of_aside rfl, retryLoop_household _ _ _ _ _ _ _ (h.event rfl)⟩
  rw [runWithRetry]
  refine Act.ensures_ite (fun _ => ?_) fun _ => hloop l h
  rw [Act.ensures_bind]
  refine (apart_stays (asking_apart_line config _) (fun _ _ _ hq h => h.event hq) h).mono
    fun r _ l₁ h₁ => ?_
  cases r with
  | error e => rintro _ _ _ ⟨⟩
  | ok _ => exact hloop l₁ h₁

end run
end Procguard
