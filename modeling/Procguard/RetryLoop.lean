import Procguard.Completion

/- What a run of the retry loop is: calls of `run_command`, one after the other, with
   nothing but the loop's own calls between them. `Accounts` says which calls are made,
   what the log of attempts holds and how the loop ends; `retryLoop_accounts` proves it of
   every run by induction on the numbers that are left. The second half is about a signal
   that waits in the pipe when an attempt ends. -/
namespace Procguard
open Interact

/-! ## The log between two calls -/

def Req.ofRetry (q : Req) : Prop := q.caller = .retry

/-- A call of the retry loop that does not read the signal pipe. -/
def Req.delays (q : Req) : Prop := q.caller = .retry ∧ ∀ fd, q.call ≠ .readSignalPipe fd

theorem Req.delays.ofRetry (q : Req) (hq : q.delays) : q.ofRetry := hq.1

/-- A call of the delay itself, which prints nothing either. -/
def Req.sleeps (q : Req) : Prop := q.delays ∧ q.prints = false

theorem nowOr_run (env : World) (confine : Confine) (d : Nat) (l : Trace) :
    ∃ t l', ((nowOr .retry confine d : RetryAct Nat) ()).run env l = (some (.ok t, ()), l') ∧
      Grown Req.delays l l' := by
  cases confine with
  | wall => exact ⟨_, _, rfl, .event _ l ⟨rfl, nofun⟩⟩
  | active => exact ⟨_, _, rfl, .event _ l ⟨rfl, nofun⟩⟩

/-! ## The delay -/

theorem sleepMs_unfailing {P : Req → Prop} (hP : ∀ ts, P ⟨.retry, .nanosleep ts⟩) (fuel ms : Nat) :
    Act.Unfailing P (sleepMs fuel ms) := by
  refine .iterate (fun ts => .bind (.call (hP ts)) fun r => ?_) _ _
  match r with
  | .ok () => exact .pure
  | .error (err, remaining) => exact .ite .pure (.ite .pure .pure)

theorem sleeps_sleepMs (fuel ms : Nat) : Act.Unfailing Req.sleeps (sleepMs fuel ms) :=
  sleepMs_unfailing (fun _ => ⟨⟨rfl, nofun⟩, rfl⟩) fuel ms

theorem activeNowNs_unfailing : Act.Unfailing Req.sleeps activeNowNs :=
  .bind (.call ⟨⟨rfl, nofun⟩, rfl⟩) fun _ => .pure

theorem delayRound_unfailing (fuel : Nat) (kq : Int) (deadlineNs : Nat) (signalFd : Option Int) :
    Act.Unfailing Req.sleeps (delayRound fuel kq deadlineNs signalFd ()) := by
  refine .bind activeNowNs_unfailing fun currentNs =>
    .ite (.bind (.call ⟨⟨rfl, nofun⟩, rfl⟩) fun _ => .pure) (.bind (.call ⟨⟨rfl, nofun⟩, rfl⟩) fun r => ?_)
  cases r with
  | ok ev => exact .bind (.call ⟨⟨rfl, nofun⟩, rfl⟩) fun _ => .pure
  | error err =>
    refine .ite .pure (.bind (.call ⟨⟨rfl, nofun⟩, rfl⟩) fun _ =>
      .bind activeNowNs_unfailing fun t => ?_)
    exact .ite (.bind (sleeps_sleepMs fuel _) fun _ => .pure) .pure

theorem kqueueDelay_unfailing (fuel : Nat) (d : Duration) (signalFd : Option Int) :
    Act.Unfailing Req.sleeps (kqueueDelay fuel d signalFd) := by
  refine .ite .pure (.bind activeNowNs_unfailing fun startNs =>
    .bind (.call ⟨⟨rfl, nofun⟩, rfl⟩) fun r => ?_)
  cases r with
  | error err => exact .bind (sleeps_sleepMs fuel _) fun _ => .pure
  | ok kq => exact .iterate (fun _ => delayRound_unfailing fuel kq _ signalFd) _ _

theorem retryLine_unfailing (config : RunConfig) (line : String) :
    Act.Unfailing Req.delays (retryLine config line) :=
  .ite (.bind (.call ⟨rfl, nofun⟩) fun _ => .pure) .pure

theorem retryLine_run (env : World) (config : RunConfig) (line : String) (l : Trace) :
    ∃ l', ((retryLine config line) ()).run env l = (some (.ok (), ()), l') ∧
      Grown Req.delays l l' := by
  rw [retryLine]
  split
  · exact ⟨_, rfl, .event _ l ⟨rfl, nofun⟩⟩
  · exact ⟨l, rfl, .refl l⟩

theorem retryDelay_unfailing (fuel : Nat) (config : RunConfig) (attempt : Nat)
    (signalFd : Option Int) :
    Act.Unfailing Req.ofRetry (retryDelay fuel config attempt signalFd) := by
  have hdelay : Act.Unfailing Req.ofRetry
      (kqueueDelay fuel (retryDelayOf config attempt) signalFd) :=
    (kqueueDelay_unfailing fuel _ signalFd).mono fun q hq => hq.1.ofRetry
  refine .bind ((retryLine_unfailing config _).mono Req.delays.ofRetry) fun _ =>
    .ite .pure (.bind hdelay fun completed => .ite .pure ?_)
  cases signalFd with
  | none => exact .pure
  | some fd => exact .bind (.call rfl) fun _ => .pure

theorem retryDelay_run (env : World) (fuel : Nat) (config : RunConfig) (attempt : Nat)
    (signalFd : Option Int) (l : Trace) :
    ∃ (o : Option (Option Signal)) (l' : Trace),
      ((retryDelay fuel config attempt signalFd) ()).run env l = (o.map fun o => (.ok o, ()), l') ∧
      Grown Req.ofRetry l l' := by
  have hun := retryDelay_unfailing fuel config attempt signalFd
  have hadds := (hun.asking ()).grown env l
  have hok := fun r s => @Act.Unfailing.run_ok _ _ _ _ _ _ _ hun env () l r s
  rcases hrun : ((retryDelay fuel config attempt signalFd) ()).run env l with ⟨_ | ⟨r, ⟨⟩⟩, l'⟩
  · rw [hrun] at hadds
    exact ⟨none, l', rfl, hadds⟩
  · rw [hrun] at hadds hok
    obtain ⟨o, rfl⟩ := hok r () rfl
    exact ⟨some o, l', rfl, hadds⟩

/-! ## The calls of a run -/

/-- A call of `run_command`: the log before it, what it returned (`none` when it was cut
    off) and the log it left. -/
structure CommandCall where
  before : Trace
  outcome : Option (Except TimeoutError RunResult)
  after : Trace

section calls
variable (env : World) (fuel : Nat) (command : String) (args : List String) (config : RunConfig)
  (signalFd : Option Int)

/-- The log from `l` to `l'` is these calls of `run_command`, in order, with nothing but the
    loop's own calls between them. -/
inductive Calls : Trace → List CommandCall → Trace → Prop
  | done {l l' : Trace} (h : Grown Req.ofRetry l l') : Calls l [] l'
  | call {l l' : Trace} {c : CommandCall} {cs : List CommandCall} (h : Grown Req.ofRetry l c.before)
      (hrun : (runCommand fuel command args config).run env c.before = (c.outcome, c.after))
      (hrest : Calls c.after cs l') : Calls l (c :: cs) l'

/-- The delay after attempt number `k`, which left the log `l`, ended with `o` (`none` when
    it was cut off). -/
def DelayEnds (k : Nat) (l : Trace) (o : Option (Option Signal)) (l' : Trace) : Prop :=
  ∃ l₁, Grown Req.delays l l₁ ∧
    (retryDelay fuel config k signalFd ()).run env l₁ = (o.map fun o => (.ok o, ()), l')

/-- Attempt number `k + 1` starts only where attempt number `k` may be retried and the delay
    after it was not interrupted. -/
def Retried : Nat → List CommandCall → Prop
  | k, c :: c' :: cs =>
    (∃ result l, c.outcome = some (.ok result) ∧ retriable result = true ∧
      DelayEnds env fuel config signalFd k c.after (some none) l ∧
      Grown Req.ofRetry l c'.before) ∧
    Retried (k + 1) (c' :: cs)
  | _, _ => True

/-- How the loop ends after its last call, attempt number `k`. -/
def LoopEnds (k : Nat) (c : CommandCall) (l' : Trace) :
    Option (Except TimeoutError (RunResult × Attempts)) → Prop
  | none => c.outcome = none ∨
    ∃ last, c.outcome = some (.ok last) ∧ retriable last = true ∧ k < cappedRetry config ∧
      DelayEnds env fuel config signalFd k c.after none l'
  | some (.error e) => c.outcome = some (.error e)
  | some (.ok (result, _)) =>
    (c.outcome = some (.ok result) ∧ (retriable result = true → cappedRetry config ≤ k)) ∨
    ∃ last sig, c.outcome = some (.ok last) ∧ retriable last = true ∧ k < cappedRetry config ∧
      DelayEnds env fuel config signalFd k c.after (some (some sig)) l' ∧
      result = .signalForwarded sig none none

/-- The entry of a call in the log of attempts. -/
def Logs (c : CommandCall) (a : AttemptResult) : Prop :=
  ∃ result ms, c.outcome = some (.ok result) ∧ a = attemptOf result ms

/-- The account of a run of the loop from attempt number `k` on, `prior` being the entries
    made before. -/
structure Accounts (k : Nat) (prior : List AttemptResult) (c : CommandCall)
    (cs : List CommandCall) (out : Option (Except TimeoutError (RunResult × Attempts)))
    (l l' : Trace) : Prop where
  calls : Calls env fuel command args config l (c :: cs) l'
  count : k + cs.length ≤ cappedRetry config
  retried : Retried env fuel config signalFd k (c :: cs)
  ends : LoopEnds env fuel config signalFd (k + cs.length) ((c :: cs).getLast (List.cons_ne_nil c cs)) l' out
  logged : ∀ result attempts, out = some (.ok (result, attempts)) →
    ∃ new, attempts.data = prior ++ new ∧ List.Forall₂ Logs (c :: cs) new ∧
      ∀ a ∈ new.dropLast, a.status = .timeout

end calls

section accounts
variable {env : World} {fuel : Nat} {command : String} {args : List String} {config : RunConfig}
  {signalFd : Option Int}

theorem Calls.of_between {l l₁ l' : Trace} {cs : List CommandCall} (h : Grown Req.ofRetry l l₁)
    (hcalls : Calls env fuel command args config l₁ cs l') :
    Calls env fuel command args config l cs l' := by
  cases hcalls with
  | done h' => exact .done (h.trans h')
  | call h' hrun hrest => exact .call (h.trans h') hrun hrest

theorem runAttempt_run (l : Trace) : ∃ c : CommandCall, Grown Req.ofRetry l c.before ∧
    (runCommand fuel command args config).run env c.before = (c.outcome, c.after) ∧
    match c.outcome with
    | none => ((runAttempt fuel command args config) ()).run env l = (none, c.after)
    | some (.error e) =>
      ((runAttempt fuel command args config) ()).run env l = (some (.error e, ()), c.after)
    | some (.ok result) => ∃ ms l', Grown Req.delays c.after l' ∧
      ((runAttempt fuel command args config) ()).run env l = (some (.ok (result, ms), ()), l') := by
  obtain ⟨start, before, hstart, hbefore⟩ := nowOr_run env config.confine 0 l
  rcases hrun : (runCommand fuel command args config).run env before with ⟨outcome, after⟩
  refine ⟨⟨before, outcome, after⟩, hbefore.mono Req.delays.ofRetry, hrun, ?_⟩
  have hlift : (Act.lift (runCommand fuel command args config) : RetryAct RunResult) () =
      (runCommand fuel command args config).bind fun r => .done (r, ()) := rfl
  rw [runAttempt, Act.run_bind, hstart]
  dsimp only
  rw [Act.run_bind, hlift, Prog.run_bind, hrun]
  rcases outcome with _ | e | result
  · rfl
  · rfl
  · obtain ⟨t, l', hend, hafter⟩ := nowOr_run env config.confine start after
    refine ⟨(elapsedNs start t).getD 0 / 1000000, l', hafter, ?_⟩
    dsimp only [Prog.run]
    rw [Act.run_bind, hend]
    rfl

theorem Attempts.push_data {a : Attempts} {item : AttemptResult} (h : a.data.length < maxRetries) :
    (a.push item).data = a.data ++ [item] := by
  rw [Attempts.push, dif_pos h]

theorem attemptOf_retriable {result : RunResult} (h : retriable result = true) (ms : Nat) :
    (attemptOf result ms).status = .timeout := by
  cases result with
  | completed _ _ => cases h
  | timedOut _ _ _ _ _ _ => rfl
  | memoryLimitExceeded _ _ _ _ _ _ => rfl
  | signalForwarded _ _ _ => cases h

theorem cappedRetry_lt (config : RunConfig) : cappedRetry config < maxRetries :=
  Nat.lt_of_le_of_lt (Nat.min_le_right _ _) (by decide)

/-- One call that ends the loop. -/
theorem Accounts.last {k : Nat} {prior : Attempts} {c : CommandCall}
    {out : Option (Except TimeoutError (RunResult × Attempts))} {l l' : Trace}
    (hk : k ≤ cappedRetry config) (hbefore : Grown Req.ofRetry l c.before)
    (hrun : (runCommand fuel command args config).run env c.before = (c.outcome, c.after))
    (hafter : Grown Req.ofRetry c.after l') (hends : LoopEnds env fuel config signalFd k c l' out)
    (hlogged : ∀ result attempts, out = some (.ok (result, attempts)) → ∃ r ms,
      c.outcome = some (.ok r) ∧ attempts.data = prior.data ++ [attemptOf r ms]) :
    Accounts env fuel command args config signalFd k prior.data c [] out l l' where
  calls := .call hbefore hrun (.done hafter)
  count := hk
  retried := trivial
  ends := hends
  logged result attempts hout := by
    obtain ⟨r, ms, hr, hdata⟩ := hlogged result attempts hout
    exact ⟨_, hdata, .cons ⟨r, ms, hr, rfl⟩ .nil, nofun⟩

/-- A call that is retried, and the account of the rest. -/
theorem Accounts.next {k : Nat} {prior : List AttemptResult} {c c' : CommandCall}
    {cs : List CommandCall} {result : RunResult} {ms : Nat}
    {out : Option (Except TimeoutError (RunResult × Attempts))} {l l₁ l₂ l' : Trace}
    (hbefore : Grown Req.ofRetry l c.before)
    (hrun : (runCommand fuel command args config).run env c.before = (c.outcome, c.after))
    (hresult : c.outcome = some (.ok result)) (hretriable : retriable result = true)
    (hafter : Grown Req.delays c.after l₁)
    (hdelay : ((retryDelay fuel config k signalFd) ()).run env l₁ = (some (.ok none, ()), l₂))
    (hrest : Accounts env fuel command args config signalFd (k + 1)
      (prior ++ [attemptOf result ms]) c' cs out l₂ l') :
    Accounts env fuel command args config signalFd k prior c (c' :: cs) out l l' := by
  -- between two attempts only the retry loop itself asks for anything
  have hbetween : Grown Req.ofRetry c.after l₂ := by
    obtain ⟨o, l₃, hr, hb⟩ := retryDelay_run env fuel config k signalFd l₁
    rw [hdelay] at hr
    obtain ⟨-, rfl⟩ := Prod.mk.inj hr
    exact (hafter.mono Req.delays.ofRetry).trans hb
  obtain ⟨hcalls, hcount, hretried, hends, hlogged⟩ := hrest
  refine ⟨.call hbefore hrun (hcalls.of_between hbetween), ?_,
    ⟨⟨result, l₂, hresult, hretriable, ⟨l₁, hafter, hdelay⟩, ?_⟩, hretried⟩, ?_, ?_⟩
  · rw [List.length_cons]
    omega
  · cases hcalls with
    | call h _ _ => exact h
  · rw [List.length_cons, List.getLast_cons (List.cons_ne_nil c' cs)]
    -- the attempts are numbered through: the rest begins with the next number
    have hnum : k + (cs.length + 1) = k + 1 + cs.length := by omega
    rw [hnum]
    exact hends
  · intro r attempts hout
    obtain ⟨new, hdata, hlogs, htimeouts⟩ := hlogged r attempts hout
    refine ⟨attemptOf result ms :: new, ?_, .cons ⟨result, ms, hresult, rfl⟩ hlogs, ?_⟩
    · rw [hdata, List.append_assoc]
      rfl
    · intro a ha
      cases new with
      | nil => cases hlogs
      | cons b new =>
        rcases List.mem_cons.mp ha with rfl | ha
        · exact attemptOf_retriable hretriable ms
        · exact htimeouts a ha

/-- The account of every run of the loop, by induction on the numbers that are left. -/
theorem retryLoop_accounts (left : Nat) : ∀ (k : Nat) (attempts : Attempts) (l : Trace),
    k + left = cappedRetry config → attempts.data.length = k →
    ∃ c cs, Accounts env fuel command args config signalFd k attempts.data c cs
      (((retryLoop fuel command args config signalFd (cappedRetry config + 1) (left + 1) k k
        attempts) ()).run env l |>.1.map Prod.fst) l
      (((retryLoop fuel command args config signalFd (cappedRetry config + 1) (left + 1) k k
        attempts) ()).run env l).2 := by
  induction left using Nat.strongRecOn with
  | _ left ih =>
  intro k attempts l hk hlen
  have hlt := cappedRetry_lt config
  have hmax : maxRetries = 32 := rfl
  have hsafe : ¬ safetyLimit < k + 1 := by
    have : safetyLimit = 42 := rfl
    omega
  obtain ⟨c, hbefore, hrun, hattempt⟩ := @runAttempt_run env fuel command args
    config l
  rw [retryLoop]
  dsimp only
  rw [if_neg hsafe, Act.run_bind]
  rcases hout : c.outcome with _ | e | result
  · rw [hout] at hattempt
    rw [hattempt]
    dsimp only [Option.map]
    refine ⟨c, [], .last (by omega) hbefore hrun (.refl _) (.inl hout) ?_⟩
    intro _ _ h
    cases h
  · rw [hout] at hattempt
    rw [hattempt]
    dsimp only [Option.map]
    refine ⟨c, [], .last (by omega) hbefore hrun (.refl _) hout ?_⟩
    intro _ _ h
    cases h
  · rw [hout] at hattempt
    obtain ⟨ms, l₁, hafter, hattempt⟩ := hattempt
    have hpush : (attempts.push (attemptOf result ms)).data =
        attempts.data ++ [attemptOf result ms] := Attempts.push_data (by omega)
    rw [hattempt]
    dsimp only
    cases hretriable : retriable result with
    | false =>
      refine ⟨c, [], .last (by omega) hbefore hrun (hafter.mono Req.delays.ofRetry)
        (.inl ⟨hout, ?_⟩) ?_⟩
      · intro h
        rw [hretriable] at h
        cases h
      · rintro _ _ ⟨⟩
        exact ⟨result, ms, hout, hpush⟩
    | true =>
      rw [if_neg (by decide)]
      by_cases hlast : cappedRetry config + 1 ≤ k + 1
      · rw [if_pos hlast]
        refine ⟨c, [], .last (by omega) hbefore hrun (hafter.mono Req.delays.ofRetry)
          (.inl ⟨hout, fun _ => by omega⟩) ?_⟩
        rintro _ _ ⟨⟩
        exact ⟨result, ms, hout, hpush⟩
      · rw [if_neg hlast, Act.run_bind]
        obtain ⟨o, l₂, hdelay, hbetween⟩ := retryDelay_run env fuel config k signalFd l₁
        have hlater := (hafter.mono Req.delays.ofRetry).trans hbetween
        rcases o with _ | _ | sig
        · rw [hdelay]
          dsimp only [Option.map]
          refine ⟨c, [], .last (by omega) hbefore hrun hlater ?_ ?_⟩
          · exact .inr ⟨result, hout, hretriable, by omega, l₁, hafter, hdelay⟩
          · intro _ _ h
            cases h
        · rw [hdelay]
          dsimp only [Option.map]
          -- the loop goes on with the next number
          obtain ⟨left', rfl⟩ : ∃ left', left = left' + 1 := ⟨left - 1, by omega⟩
          obtain ⟨c', cs, hrest⟩ := ih left' (by omega) (k + 1) (attempts.push (attemptOf result ms))
            l₂ (by omega) (by rw [hpush, List.length_append, hlen]; rfl)
          rw [hpush] at hrest
          exact ⟨c, c' :: cs, .next hbefore hrun hout hretriable hafter hdelay hrest⟩
        · rw [hdelay]
          dsimp only [Option.map]
          refine ⟨c, [], .last (by omega) hbefore hrun hlater ?_ ?_⟩
          · exact .inr ⟨result, sig, hout, hretriable, by omega, ⟨l₁, hafter, hdelay⟩, rfl⟩
          · rintro _ _ ⟨⟩
            exact ⟨result, ms, hout, hpush⟩

/-- The pipe the loop was told of: the signal pipe, when there is one. -/
def LoadedFrom (env : World) (l : Trace) (signalFd : Option Int) : Prop :=
  ∃ l₁, Grown Req.delays l l₁ ∧ signalFd =
    if 0 ≤ env l₁ ⟨.retry, .loadSignalPipe⟩ then some (env l₁ ⟨.retry, .loadSignalPipe⟩) else none

/-- `Accounts` of the whole of `run_with_retry`. -/
theorem runWithRetry_accounts (env : World) (fuel : Nat) (command : String) (args : List String)
    (config : RunConfig) (l : Trace) : ∃ signalFd c cs, LoadedFrom env l signalFd ∧
      Accounts env fuel command args config signalFd 0 [] c cs
        (((runWithRetry fuel command args config) ()).run env l |>.1.map Prod.fst) l
        (((runWithRetry fuel command args config) ()).run env l).2 := by
  have hrest : ∀ l₁, Grown Req.delays l l₁ → ∃ signalFd c cs, LoadedFrom env l signalFd ∧
      Accounts env fuel command args config signalFd 0 [] c cs
        (((Act.call ⟨.retry, .loadSignalPipe⟩ >>= fun fd =>
          retryLoop fuel command args config (if 0 ≤ fd then some fd else none)
            (cappedRetry config + 1) (cappedRetry config + 1) 0 0 {}) ()).run env l₁ |>.1.map Prod.fst) l
        (((Act.call ⟨.retry, .loadSignalPipe⟩ >>= fun fd =>
          retryLoop fuel command args config (if 0 ≤ fd then some fd else none)
            (cappedRetry config + 1) (cappedRetry config + 1) 0 0 {}) ()).run env l₁).2 := by
    intro l₁ hgrown
    rw [Act.run_bind]
    have hload : Grown Req.ofRetry l (⟨⟨.retry, .loadSignalPipe⟩, env l₁ ⟨.retry, .loadSignalPipe⟩⟩ :: l₁) :=
      (hgrown.mono Req.delays.ofRetry).trans (.event _ l₁ rfl)
    obtain ⟨c, cs, hcalls, hcount, hretried, hends, hlogged⟩ := retryLoop_accounts
      (cappedRetry config) 0 {} _ (Nat.zero_add _) rfl
    exact ⟨_, c, cs, ⟨l₁, hgrown, rfl⟩, hcalls.of_between hload, hcount, hretried, hends, hlogged⟩
  rw [runWithRetry]
  split
  · rw [Act.run_bind]
    obtain ⟨l₁, hline, hgrown⟩ := retryLine_run env config
      s!"timeout: warning: retry count {config.retryCount} capped to maximum {maxRetries - 1}" l
    rw [hline]
    exact hrest l₁ hgrown
  · exact hrest l (.refl l)

end accounts

/-- Retry accounting: `run_with_retry` is a chain of calls of `run_command`, at most
    `min(retry_count, 31) + 1` of them, each but the first after one that timed out and a
    delay that was not interrupted. The log of attempts has one entry per call, in order,
    all but the last a timeout; the result is that of the last call, or the signal that
    interrupted the delay after it; an error is the last call's own. -/
theorem retries_accounted (env : World) (fuel : Nat) (command : String) (args : List String)
    (config : RunConfig) (l : Trace) : ∃ signalFd c cs, LoadedFrom env l signalFd ∧
      Calls env fuel command args config l (c :: cs)
        (((runWithRetry fuel command args config) ()).run env l).2 ∧
      (c :: cs).length ≤ min config.retryCount 31 + 1 ∧
      Retried env fuel config signalFd 0 (c :: cs) ∧
      LoopEnds env fuel config signalFd cs.length ((c :: cs).getLast (List.cons_ne_nil c cs))
        (((runWithRetry fuel command args config) ()).run env l).2
        (((runWithRetry fuel command args config) ()).run env l |>.1.map Prod.fst) ∧
      ∀ result attempts,
        (((runWithRetry fuel command args config) ()).run env l).1 = some (.ok (result, attempts), ()) →
        List.Forall₂ Logs (c :: cs) attempts.data ∧
          ∀ a ∈ attempts.data.dropLast, a.status = .timeout := by
  obtain ⟨signalFd, c, cs, hloaded, hcalls, hcount, hretried, hends, hlogged⟩ :=
    runWithRetry_accounts env fuel command args config l
  refine ⟨signalFd, c, cs, hloaded, hcalls, ?_, hretried, ?_, fun result attempts hout => ?_⟩
  · have hcap : cappedRetry config = min config.retryCount 31 := rfl
    rw [List.length_cons]
    omega
  · rw [Nat.zero_add] at hends
    exact hends
  · obtain ⟨new, hdata, hlogs, htimeouts⟩ := hlogged result attempts (by rw [hout]; rfl)
    rw [List.nil_append] at hdata
    rw [hdata]
    exact ⟨hlogs, htimeouts⟩

/-! ## A signal that waits in the pipe -/

/-- The signal pipe holds the byte `b`: whoever reads it first gets `b`. -/
def PipeHolds (env : World) (fd : Int) (b : UInt8) (l : Trace) : Prop :=
  ∀ (t : Trace) (caller : Caller), (∀ e ∈ t, e.req.call ≠ .readSignalPipe fd) →
    env (t ++ l) ⟨caller, .readSignalPipe fd⟩ = some b

def retryClock : Event → Option Nat
  | ⟨⟨.retry, .activeNow⟩, t⟩ => some t.toNat
  | _ => none

/-- A wait of the delay that a signal handler interrupted. -/
def isDelayInterrupt : Event → Bool
  | ⟨⟨.retry, .kevent _ _⟩, .error err⟩ => err == EINTR
  | _ => false

/-- The reading the newest delay started at, in the log beyond its first `n` events: the one
    before its kqueue call. -/
def delayStart (n : Nat) : Trace → Option Nat
  | [] => none
  | e :: l =>
    if l.length < n then none
    else if e.req = ⟨.retry, .kqueue⟩ then l.head?.bind retryClock
    else delayStart n l

/-- The interruptions in the log beyond its first `n` events. -/
def delayInterrupts (n : Nat) : Trace → Nat
  | [] => 0
  | e :: l => if l.length < n then 0 else (isDelayInterrupt e).toNat + delayInterrupts n l

/-- The system lets a delay of length `d` see the readable signal pipe `fd`: it has a
    kqueue, no reading of the clock after its start is past the deadline, and a wait whose
    kqueue watches the pipe ends with a READ event, or is interrupted, at most
    `interruptions` times. Only the log beyond its first `n` events counts. -/
def DelaySees (fd : Int) (n interruptions : Nat) (d : Duration) (e : Event) (l : Trace) : Prop :=
  n ≤ l.length → match e with
  | ⟨⟨.retry, .kqueue⟩, r⟩ => r.isOk = true
  | ⟨⟨.retry, .activeNow⟩, t⟩ =>
    ∀ start ∈ delayStart n l, t.toNat < advanceNs start (durationToNsWide d)
  | ⟨⟨.retry, .kevent _ _⟩, .ok ev⟩ =>
    readRegistered .retry (asUsize fd) (e :: l) = true → ev.filter = EVFILT_READ
  | ⟨⟨.retry, .kevent _ _⟩, .error err⟩ => err = EINTR ∧ delayInterrupts n l < interruptions
  | _ => True

section sees
variable {env : World} {n interruptions fuel : Nat} {d : Duration} {fd : Int} {l l' : Trace}

/-- The answers under which a delay sees the pipe, and no loop is cut off. -/
def sees (fd : Int) (n interruptions : Nat) (d : Duration) : Contract Ans where
  rely := DelaySees fd n interruptions d
  cut _ := False

theorem ensures_activeNowNs {K : Contract Ans} {s : Unit}
    {Post : Except TimeoutError Nat → Unit → Trace → Prop} : activeNowNs.Ensures K s l Post ↔
      Asks K ⟨.retry, .activeNow⟩ l fun t l' => Post (.ok t.toNat) s l' := Iff.rfl

theorem delayInterrupts_cons (e : Event) (hn : n ≤ l.length) :
    delayInterrupts n (e :: l) = (isDelayInterrupt e).toNat + delayInterrupts n l := by
  rw [delayInterrupts, if_neg (by omega)]

theorem delayStart_cons {e : Event} (hn : n ≤ l.length) (he : e.req ≠ ⟨.retry, .kqueue⟩) :
    delayStart n (e :: l) = delayStart n l := by
  rw [delayStart, if_neg (by omega), if_neg he]

theorem delayInterrupts_le (h : Always (DelaySees fd n interruptions d) l) :
    delayInterrupts n l ≤ interruptions := by
  induction l with
  | nil => exact Nat.zero_le _
  | cons e l ih =>
    have hle := ih h.2
    by_cases hn : l.length < n
    · rw [delayInterrupts, if_pos hn]
      exact Nat.zero_le _
    · rw [delayInterrupts_cons e (by omega)]
      cases he : isDelayInterrupt e with
      | false =>
        rw [Bool.toNat_false]
        omega
      | true =>
        obtain ⟨⟨caller, call⟩, a⟩ := e
        cases caller <;> cases call <;> first | cases he | skip
        cases a with
        | ok ev => cases he
        | error err =>
          have hlt := (h.1 (by omega)).2
          rw [Bool.toNat_true]
          omega

/-- Every wait of a delay watches the pipe. -/
theorem readRegistered_delay (kq : Int) (timerNs : Nat) (fd : Int) (r : Except Int Kevent)
    (l : Trace) : readRegistered .retry (asUsize fd)
      (⟨⟨.retry, .kevent kq (delayChanges timerNs (some fd))⟩, r⟩ :: l) = true := by
  rw [readRegistered_kevent, delayChanges]
  simp [watchRead, Kevent.has, EV_ADD]

/-- The delay at the head of its loop, `m` rounds left. -/
structure Delaying (n interruptions start m : Nat) (l : Trace) : Prop where
  beyond : n ≤ l.length
  start_eq : delayStart n l = some start
  interrupts_le : delayInterrupts n l ≤ interruptions
  left : interruptions < m + delayInterrupts n l

theorem Delaying.event {start m m' : Nat} {e : Event} (h : Delaying n interruptions start m l)
    (he : e.req ≠ ⟨.retry, .kqueue⟩)
    (hle : (isDelayInterrupt e).toNat + delayInterrupts n l ≤ interruptions)
    (hm : m ≤ m' + (isDelayInterrupt e).toNat) :
    Delaying n interruptions start m' (e :: l) where
  beyond := Nat.le_succ_of_le h.beyond
  start_eq := (delayStart_cons h.beyond he).trans h.start_eq
  interrupts_le := by rw [delayInterrupts_cons e h.beyond]; exact hle
  left := by
    have hleft := h.left
    rw [delayInterrupts_cons e h.beyond]
    omega

theorem delayRound_sees {start m : Nat} {kq : Int} (h : Delaying n interruptions start (m + 1) l) :
    (delayRound fuel kq (advanceNs start (durationToNsWide d)) (some fd) ()).Ensures
      (sees fd n interruptions d) () l fun r _ l' => match r with
        | .ok (.inl ()) => Delaying n interruptions start m l'
        | .ok (.inr completed) => completed = false
        | .error _ => False := by
  rw [delayRound, Act.ensures_bind, ensures_activeNowNs]
  intro t ht
  refine ⟨trivial, ?_⟩
  -- the delay is not over yet at this reading
  have hearly : ¬ deadlineReached t.toNat (advanceNs start (durationToNsWide d)) = true := by
    rw [deadlineReached_iff]
    exact Nat.not_le.mpr (ht h.beyond start h.start_eq)
  have hclock : Delaying n interruptions start (m + 1) (⟨⟨.retry, .activeNow⟩, t⟩ :: l) :=
    h.event (by simp) ((Nat.zero_add _).symm ▸ h.interrupts_le) (Nat.le_refl _)
  dsimp only
  rw [if_neg hearly, Act.ensures_bind, Act.ensures_call]
  intro r hr
  refine ⟨trivial, ?_⟩
  have hsees := hr hclock.beyond
  cases r with
  | ok ev =>
    dsimp only
    rw [Act.ensures_bind, Act.ensures_call]
    intro a _
    exact ⟨trivial, decide_eq_false (not_not.mpr (hsees (readRegistered_delay ..)))⟩
  | error err =>
    dsimp only
    rw [if_pos hsees.1]
    refine hclock.event (by simp) ?_ ?_
    · have hlt := hsees.2
      show (err == EINTR).toNat + _ ≤ _
      have := Bool.toNat_le (err == EINTR)
      omega
    · show m + 1 ≤ m + (err == EINTR).toNat
      rw [hsees.1]
      exact Nat.le_refl _

theorem kqueueDelay_sees (hd : d.isZero = false) (hn : n ≤ l.length) (hints : interruptions < fuel)
    (hle : delayInterrupts n l ≤ interruptions) :
    (kqueueDelay fuel d (some fd)).Ensures (sees fd n interruptions d) () l fun r _ _ =>
      r = .ok false := by
  rw [kqueueDelay, if_neg (by rw [hd]; decide), Act.ensures_bind, ensures_activeNowNs]
  intro t _
  refine ⟨trivial, ?_⟩
  dsimp only
  rw [Act.ensures_bind, Act.ensures_call]
  intro r hr
  refine ⟨trivial, ?_⟩
  have hok := hr (Nat.le_succ_of_le hn)
  cases r with
  | error err => cases hok
  | ok kq =>
    dsimp only
    -- no round has been cut short yet, and the fuel is more than the interruptions
    have hhead : Delaying n interruptions t.toNat fuel
        (⟨⟨.retry, .kqueue⟩, .ok kq⟩ :: ⟨⟨.retry, .activeNow⟩, t⟩ :: l) := by
      have hn' : n ≤ (⟨⟨.retry, .activeNow⟩, t⟩ :: l : Trace).length := Nat.le_succ_of_le hn
      have hints' : delayInterrupts n (⟨⟨.retry, .kqueue⟩, .ok kq⟩ :: ⟨⟨.retry, .activeNow⟩, t⟩ :: l) =
          delayInterrupts n l := by
        rw [delayInterrupts_cons _ hn', delayInterrupts_cons _ hn]
        exact (Nat.zero_add _).trans (Nat.zero_add _)
      refine ⟨Nat.le_succ_of_le hn', ?_, by omega, by omega⟩
      rw [delayStart, if_neg (by omega), if_pos rfl]
      rfl
    refine Act.ensures_iterate_count (fun m _ _ l => Delaying n interruptions t.toNat m l) ?_ ?_ fuel
      () () _ hhead
    · rintro m ⟨⟩ ⟨⟩ l' h'
      refine (delayRound_sees h').mono fun r _ l'' hr => ?_
      match r, hr with
      | .ok (.inl ()), hr => exact hr
      | .ok (.inr completed), hr => exact congrArg Except.ok hr
    · intro _ _ l' h'
      have hle' := h'.interrupts_le
      have hleft := h'.left
      show False
      omega

/-- A delay that sees the pipe reads the signal that waits in it. -/
theorem retryDelay_sees {config : RunConfig} {k : Nat} {b : UInt8} {base : Trace}
    {o : Option (Option Signal)} (hd : (retryDelayOf config k).isZero = false)
    (hints : interruptions < fuel) (hholds : PipeHolds env fd b base)
    (hgrown : Grown Req.delays base l)
    (hrun : ((retryDelay fuel config k (some fd)) ()).run env l = (o.map fun o => (.ok o, ()), l'))
    (hsees : Always (DelaySees fd base.length interruptions (retryDelayOf config k)) l') :
    o = some (some (decodeSignalByte b)) := by
  obtain ⟨l₁, hline, hgrown₁⟩ := retryLine_run env config
    s!"timeout: attempt {k + 1} timed out, retry delay {durationMs (retryDelayOf config k)}ms" l
  rw [retryDelay, Act.run_bind, hline] at hrun
  dsimp only at hrun
  rw [if_neg (by rw [hd]; decide)] at hrun
  -- the delay itself, whose log is part of the whole
  have hsuffix := Act.run_bind_suffix hrun
  have hbase : Grown Req.delays base l₁ := hgrown.trans hgrown₁
  have hdelay := @kqueueDelay_sees _ _ _ _ fd _ hd hbase.suffix.length_le hints
    (delayInterrupts_le (hsees.suffix ((Prog.run_extends env _ l₁).trans hsuffix)))
  obtain ⟨-, hreturns, hcut⟩ := hdelay.sound env (Always.of_forall (fun _ _ => trivial) l₁)
    (hsees.suffix hsuffix)
  have hasking := (kqueueDelay_unfailing fuel (retryDelayOf config k) (some fd)).asking
  have hadds := ((hasking.mono fun _ hq => hq.1) ()).grown env l₁
  rw [Act.run_bind] at hrun
  rcases hk : (kqueueDelay fuel (retryDelayOf config k) (some fd) ()).run env l₁ with ⟨r, l₂⟩
  rw [hk] at hreturns hcut hadds hrun
  cases r with
  | none => exact (hcut rfl).elim
  | some r =>
    obtain ⟨r, ⟨⟩⟩ := r
    obtain rfl : r = .ok false := hreturns _ rfl
    obtain ⟨t, rfl, ht⟩ := hbase.trans hadds
    have hbyte := hholds t .retry fun e he => (ht e he).2 fd
    dsimp only at hrun
    rw [if_neg (by decide), Act.run_bind] at hrun
    have hread : ((sys .retry (.readSignalPipe fd) : RetryAct (Option UInt8)) ()).run env (t ++ base) =
        (some (.ok (some b), ()), ⟨⟨.retry, .readSignalPipe fd⟩, some b⟩ :: (t ++ base)) := by
      rw [← hbyte]
      rfl
    rw [hread] at hrun
    have hresult := congrArg Prod.fst hrun
    cases o with
    | none => cases hresult
    | some o =>
      have hok := Option.some.inj hresult
      exact congrArg some (Except.ok.inj (congrArg Prod.fst hok)).symm

end sees

section request
variable {env : World} {fuel : Nat} {command : String} {args : List String} {config : RunConfig}
  {signalFd : Option Int} {l l' : Trace}

theorem Calls.suffix {cs : List CommandCall} (h : Calls env fuel command args config l cs l') :
    l <:+ l' ∧ ∀ c ∈ cs, c.before <:+ l' := by
  induction h with
  | done h => exact ⟨h.suffix, List.forall_mem_nil _⟩
  | @call l l' c cs h hrun _ ih =>
    have hext := Prog.run_extends env (runCommand fuel command args config) c.before
    rw [hrun] at hext
    have hbefore : c.before <:+ l' := hext.trans ih.1
    exact ⟨h.suffix.trans hbefore, List.forall_mem_cons.mpr ⟨hbefore, ih.2⟩⟩

/-- What is known of a call that another one follows. -/
theorem Retried.at_call {k i : Nat} {cs : List CommandCall} {c c' : CommandCall}
    (h : Retried env fuel config signalFd k cs) (hc : cs[i]? = some c) (hc' : cs[i + 1]? = some c') :
    ∃ result l, c.outcome = some (.ok result) ∧ retriable result = true ∧
      DelayEnds env fuel config signalFd (k + i) c.after (some none) l ∧
      Grown Req.ofRetry l c'.before := by
  induction cs generalizing k i with
  | nil => simp at hc
  | cons c₁ cs ih =>
    cases cs with
    | nil => simp at hc'
    | cons c₂ cs =>
      cases i with
      | zero =>
        obtain rfl : c₁ = c := Option.some.inj hc
        obtain rfl : c₂ = c' := Option.some.inj hc'
        exact h.1
      | succ i =>
        have hnum : k + (i + 1) = k + 1 + i := by omega
        rw [hnum]
        exact ih h.2 hc hc'

/-- A call of the chain is followed by another one, or it is the last. -/
theorem call_cases {i : Nat} {c call : CommandCall} {cs : List CommandCall}
    (h : (c :: cs)[i]? = some call) : (i < cs.length ∧ ∃ c', (c :: cs)[i + 1]? = some c') ∨
      (cs.length = i ∧ (c :: cs).getLast (List.cons_ne_nil c cs) = call) := by
  obtain ⟨hi, hget⟩ := List.getElem?_eq_some_iff.mp h
  rw [List.length_cons] at hi
  by_cases hlast : i < cs.length
  · exact .inl ⟨hlast, _, List.getElem?_eq_getElem (by rw [List.length_cons]; omega)⟩
  · have hlen : cs.length = i := by omega
    refine .inr ⟨hlen, ?_⟩
    rw [List.getLast_eq_getElem, ← hget]
    congr 1

/-- A delay of the run that sees the pipe does not end otherwise. -/
theorem DelayEnds.sees {k interruptions : Nat} {base : Trace} {o : Option (Option Signal)}
    {fd : Int} {b : UInt8} (h : DelayEnds env fuel config (some fd) k base o l)
    (hdelay : (retryDelayOf config k).isZero = false) (hints : interruptions < fuel)
    (hholds : PipeHolds env fd b base) (hsuffix : l <:+ l')
    (hsees : Always (DelaySees fd base.length interruptions (retryDelayOf config k)) l') :
    o = some (some (decodeSignalByte b)) := by
  obtain ⟨l₁, hgrown, hrun⟩ := h
  exact retryDelay_sees hdelay hints hholds hgrown hrun (hsees.suffix hsuffix)

end request

/-- What `run_with_retry` does with a signal that waits in the pipe when an attempt has
    ended: an attempt that may not be retried is returned, whatever waits; after any other
    one the command is not run again, and the signal is returned, when there is a delay and
    the system lets it see the pipe. -/
theorem stop_request_heeded (env : World) (fuel : Nat) (command : String) (args : List String)
    (config : RunConfig) (interruptions : Nat) (hints : interruptions < fuel) (fd : Int)
    (hfd : 0 ≤ fd) (hpipe : ∀ l, env l ⟨.retry, .loadSignalPipe⟩ = fd) (l : Trace) :
    ∃ c cs,
      Calls env fuel command args config l (c :: cs)
        (((runWithRetry fuel command args config) ()).run env l).2 ∧
      ∀ i call result b, (c :: cs)[i]? = some call → call.outcome = some (.ok result) →
        PipeHolds env fd b call.after →
        (retriable result = false ∨ cappedRetry config ≤ i → (c :: cs).length = i + 1 ∧
          ∃ attempts, (((runWithRetry fuel command args config) ()).run env l).1 =
            some (.ok (result, attempts), ())) ∧
        (retriable result = true → i < cappedRetry config →
          (retryDelayOf config i).isZero = false →
          Always (DelaySees fd call.after.length interruptions (retryDelayOf config i))
            (((runWithRetry fuel command args config) ()).run env l).2 →
          (c :: cs).length = i + 1 ∧
          ∃ attempts, (((runWithRetry fuel command args config) ()).run env l).1 =
            some (.ok (.signalForwarded (decodeSignalByte b) none none, attempts), ())) := by
  obtain ⟨signalFd, c, cs, ⟨l₁, -, hload⟩, hcalls, hcount, hretried, hends, -⟩ :=
    runWithRetry_accounts env fuel command args config l
  obtain rfl : signalFd = some fd := by rw [hload, hpipe, if_pos hfd]
  refine ⟨c, cs, hcalls, fun i call result b hcall hresult hholds => ?_⟩
  rw [Nat.zero_add] at hcount hends
  rw [List.length_cons]
  have hsame : ∀ r, call.outcome = some (.ok r) → r = result := by
    intro r hr
    rw [hresult] at hr
    exact (Except.ok.inj (Option.some.inj hr)).symm
  -- an attempt that is retried is none of those that are returned
  have hnot : ∀ {p : Prop}, retriable result = true → i < cappedRetry config →
      retriable result = false ∨ cappedRetry config ≤ i → p := by
    intro p hretriable hi hlast
    rcases hlast with hno | hno
    · rw [hretriable] at hno
      cases hno
    · omega
  rcases call_cases hcall with ⟨hi, c', hc'⟩ | ⟨rfl, hlastcall⟩
  · obtain ⟨result', l₂, hresult', hretriable, hdelayed, hgrown⟩ := hretried.at_call hcall hc'
    obtain rfl := hsame result' hresult'
    rw [Nat.zero_add] at hdelayed
    refine ⟨hnot hretriable (by omega), fun _ _ hdelay hsees => ?_⟩
    have hsuffix := hgrown.suffix.trans (hcalls.suffix.2 c' (List.mem_of_getElem? hc'))
    have hsig := hdelayed.sees hdelay hints hholds hsuffix hsees
    cases hsig
  · rw [hlastcall] at hends
    generalize (((runWithRetry fuel command args config) ()).run env l).2 = l' at hends ⊢
    revert hends
    rcases (((runWithRetry fuel command args config) ()).run env l).1 with _ | ⟨⟨e⟩ | ⟨r, attempts⟩, ⟨⟩⟩
    · rintro (hcut | ⟨last, hlast, hretriable, hi, hdelayed⟩)
      · rw [hresult] at hcut
        cases hcut
      · obtain rfl := hsame last hlast
        refine ⟨hnot hretriable hi, fun _ _ hdelay hsees => ?_⟩
        have hsig := hdelayed.sees hdelay hints hholds (List.suffix_refl l') hsees
        cases hsig
    · intro herror
      have herror : call.outcome = some (.error e) := herror
      rw [hresult] at herror
      cases herror
    · rintro (⟨hlast, hcap⟩ | ⟨last, sig, hlast, hretriable, hi, hdelayed, hr⟩)
      · obtain rfl := hsame r hlast
        exact ⟨fun _ => ⟨rfl, attempts, rfl⟩, fun hretriable hi => absurd (hcap hretriable) (by omega)⟩
      · obtain rfl := hsame last hlast
        refine ⟨hnot hretriable hi, fun _ _ hdelay hsees => ⟨rfl, attempts, ?_⟩⟩
        have hsig := hdelayed.sees hdelay hints hholds (List.suffix_refl l') hsees
        obtain rfl : sig = decodeSignalByte b := Option.some.inj (Option.some.inj hsig)
        rw [hr]

/-- A clock at its maximum, so that every attempt times out at once, and a SIGTERM that waits
    in the pipe. -/
def waitingWorld : World := Machine.world {
  wallClock := fun _ => some (.ofNat u64Max)
  kevent := fun _ => .ok { ident := 3, filter := EVFILT_READ, flags := 0 }
  signalByte := fun _ => some 15 }

def oneRetry : RunConfig := { retryCount := 1, retryDelay := .fromSecs 1 }

/-- Its delay sees the pipe, whatever the log before it. -/
theorem delaySees_waiting (n : Nat) (e : Event) (l : Trace)
    (he : (Prog.answers waitingWorld).rely e l) :
    DelaySees 3 n 0 (retryDelayOf oneRetry 0) e l := by
  obtain ⟨⟨caller, call⟩, a⟩ := e
  intro _
  cases caller <;> cases call <;> first | exact trivial | skip
  · -- a reading is 0, and the deadline is not
    obtain rfl : a = (0 : UInt64) := he
    intro start _
    have hd : durationToNsWide (retryDelayOf oneRetry 0) = 1000000000 := by decide
    have hmax : 0 < u64Max := by decide
    have hzero : (0 : UInt64).toNat = 0 := rfl
    rw [hd, advanceNs, satAdd, hzero]
    omega
  · obtain rfl : a = .ok 5 := he
    rfl
  · obtain rfl : a = .ok { ident := 3, filter := EVFILT_READ, flags := 0 } := he
    exact fun _ => rfl

theorem stop_request_heeded_waiting : ∃ attempts,
    ((runWithRetry 1 "sleep" ["100"] oneRetry ()).run waitingWorld []).1 =
      some (.ok (.signalForwarded .sigterm none none, attempts), ()) := by
  obtain ⟨c, cs, hcalls, h⟩ := stop_request_heeded waitingWorld 1 "sleep" ["100"] oneRetry 0
    (by decide) 3 (by decide) (fun _ => rfl) []
  have htimeout : ((runCommand 1 "sleep" ["100"] oneRetry).run waitingWorld c.before).1 =
      some (.ok (.timedOut .sigterm false (some ⟨0⟩) (some (rusageToResourceUsage {})) none
        .wallClock)) := rfl
  cases hcalls with
  | call _ hrun _ =>
    rw [hrun] at htimeout
    refine ((h 0 c _ 15 rfl htimeout fun _ _ _ => rfl).2 rfl (by decide) (by decide) ?_).2
    exact (Prog.run_answers waitingWorld _ (l := []) trivial).mono (delaySees_waiting _)

/-- A wait on a child, and a read of the signal pipe. -/
def isChildWait (e : Event) : Bool := e.req == ⟨.monitor, .wait4 7⟩
def isPipeRead (e : Event) : Bool := e.req.call == .readSignalPipe 3

/-- SIGTERM comes in while the first child is waited for; from then on it is in the pipe,
    until it is read. -/
def stopWorld : World := Machine.world {
  wallClock := fun l => some (if kevents l = 0 then 0 else 31000000000)
  kevent := fun l => if kevents l = 0 then .ok { ident := 1, filter := EVFILT_TIMER, flags := 0 }
    else .ok { ident := 3, filter := EVFILT_READ, flags := 0 }
  signalByte := fun l => if l.any isChildWait && !l.any isPipeRead then some 15 else none }

theorem stopWorld_holds {l : Trace} (hwait : l.any isChildWait = true)
    (hread : l.any isPipeRead = false) : PipeHolds stopWorld 3 15 l := by
  intro t caller ht
  have hnone : t.any isPipeRead = false := by
    rw [List.any_eq_false]
    intro e he
    simpa [isPipeRead] using ht e he
  show (if (t ++ l).any isChildWait && !(t ++ l).any isPipeRead then some 15 else none) = some 15
  rw [List.any_append, List.any_append, hwait, hread, hnone, Bool.or_true]
  rfl

/-- A spawn that comes after the first wait and before the signal is read. -/
theorem stopWorld_spawns {l : Trace} (h : Ever (fun e l => isSpawn e = true ∧ spawns l = 1 ∧
      l.any isChildWait = true ∧ l.any isPipeRead = false) l) :
    ∃ later e before, l = later ++ e :: before ∧ isSpawn e = true ∧ spawns before = 1 ∧
      PipeHolds stopWorld 3 15 before := by
  obtain ⟨later, e, before, hl, hspawn, hone, hwait, hread⟩ := h.witness
  exact ⟨later, e, before, hl, hspawn, hone, stopWorld_holds hwait hread⟩

/-- The child exits, and SIGTERM waits in the pipe. -/
def pendingWorld : World := Machine.world {
  kevent := fun _ => .ok { ident := 7, filter := EVFILT_PROC, flags := 0 }
  signalByte := fun _ => some 15 }

/-- Without a delay the command is spawned a second time while the signal waits; and an
    attempt that completed is returned, whatever waits. -/
theorem no_delay_respawns :
    (∃ later e before, ((runWithRetry 2 "sleep" ["100"] { retryCount := 1 } ()).run stopWorld []).2 =
        later ++ e :: before ∧ isSpawn e = true ∧ spawns before = 1 ∧
      PipeHolds stopWorld 3 15 before) ∧
    (∀ l, PipeHolds pendingWorld 3 15 l) ∧
    (((runWithRetry 1 "true" [] {} ()).run pendingWorld []).1.bind fun r =>
      r.1.toOption.map Prod.fst) = some (.completed ⟨0⟩ (rusageToResourceUsage {})) :=
  ⟨stopWorld_spawns (by decide +kernel), fun _ _ _ _ => rfl, by decide +kernel⟩

end Procguard
