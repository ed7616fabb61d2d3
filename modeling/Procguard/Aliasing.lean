import Procguard.PipeContract

/- Stdin and the signal pipe, kept apart or not. While the wait runs, what it takes for
   stdin and what it takes for the signal pipe are the files it set out with (`Wired`), and
   each kevent call has the pipe on its change list (`Listed`), so a report of the pipe ends
   the wait with the signal and no byte of it is drained, unless the pipe was given
   descriptor 0 or a line for stderr got into it first. A signal that came in is then
   reported as soon as the kernel no longer passes over the pipe. -/
namespace Procguard
open Interact

section rule
variable {a : WaitArgs} {opened : List Bool} {start : Forwarding}
  {arrivals : Trace → List (Signal × Bool)} {f : WaitFixed} {v : WaitVars} {fuel : Nat}
  {h : Handles} {l : Trace}

/-! ## The set-up of the wait -/

/-- So far in the set-up, `fd` being the value of `SIGNAL_PIPE`. -/
structure TableReady (a : WaitArgs) (opened : List Bool) (P : Trace → Forwarding) (fd : Int)
    (l : Trace) : Prop where
  apart : Apart a opened P l
  untouched : PipeUntouched P l
  signalPipe : (P l).signalPipe = fd

theorem TableReady.quiet {fd : Int} {e : Event}
    (ho : TableReady a opened (forwardingAt start arrivals) fd l) (hq : e.req.call.quiet = true)
    (hk : ∀ kq cs, e.req.call ≠ .kevent kq cs) (hr : ∀ fd, e.req.call ≠ .readSignalPipe fd) :
    TableReady a opened (forwardingAt start arrivals) fd (e :: l) :=
  ⟨ho.apart.quiet hq, ho.untouched.cons hk hr,
    (forwardingAt_quiet hq).signalPipe.trans ho.signalPipe⟩

/-- The calls of the set-up; it polls stdin only when it is to be monitored. -/
def SetupCall (a : WaitArgs) (q : Req) : Prop :=
  q.aside = true ∨ q = ⟨.monitor, .fstatStdin⟩ ∨
    q = ⟨.monitor, .pollStdin⟩ ∧ a.stdinTimeout ≠ none

theorem TableReady.asks {fd : Int} {q : Req}
    (ho : TableReady a opened (forwardingAt start arrivals) fd l) (hq : SetupCall a q) :
    Asks (descriptorContract a opened (forwardingAt start arrivals)) q l fun _ l' =>
      TableReady a opened (forwardingAt start arrivals) fd l' := by
  intro ans hr
  rcases hq with hq | rfl | ⟨rfl, hsome⟩
  · have hspec := Req.aside_spec hq
    exact ⟨guar_of_call hspec.read hspec.poll hspec.look hspec.kevent l,
      ho.quiet hspec.quiet hspec.kevent hspec.unread⟩
  · exact ⟨⟨id, fun _ hclosed => ho.apart.fstat hr.1 hclosed, nofun⟩, ho.quiet rfl nofun nofun⟩
  · exact ⟨⟨fun htakes => ho.apart.stdin hsome htakes.2, nofun, nofun⟩, ho.quiet rfl nofun nofun⟩

theorem TableReady.ensures {fd : Int} {σ ε α : Type} {m : Act Ans σ ε α}
    (hm : Act.Asking (SetupCall a) m)
    (ho : TableReady a opened (forwardingAt start arrivals) fd l) (s : σ) :
    m.Ensures (descriptorContract a opened (forwardingAt start arrivals)) s l fun _ _ l' =>
      TableReady a opened (forwardingAt start arrivals) fd l' :=
  hm.ensures _ (fun _ _ hq ho => ho.asks hq) (fun _ _ => trivial) ho

theorem asking_clock (a : WaitArgs) : Act.Asking (SetupCall a) (now a.confine) :=
  asking_now a.confine (.inl (by cases a.confine <;> rfl))

/-- The look at stdin; what it leaves was asked for. -/
theorem validateStdin_opening {fd : Int}
    (ho : TableReady a opened (forwardingAt start arrivals) fd l) :
    (validateStdin a.stdinTimeout).Ensures
      (descriptorContract a opened (forwardingAt start arrivals)) h l fun r _ l' =>
        TableReady a opened (forwardingAt start arrivals) fd l' ∧ match r with
          | .ok (some _) => a.stdinTimeout ≠ none
          | _ => True := by
  cases hcfg : a.stdinTimeout with
  | none => exact ⟨ho, trivial⟩
  | some cfg =>
    simp only [validateStdin, Act.ensures_bind, Act.ensures_call, Act.ensures_pure]
    refine (ho.asks (q := ⟨.monitor, .fstatStdin⟩) (.inr (.inl rfl))).mono fun r ho' => ⟨ho', ?_⟩
    split
    · intro h
      cases h
    · exact trivial

theorem waitSetup_wired (ha : Apart a opened (forwardingAt start arrivals) l)
    (hu : PipeUntouched (forwardingAt start arrivals) l) :
    (waitSetup a).Ensures (descriptorContract a opened (forwardingAt start arrivals)) h l
      fun r _ l' => PipeUntouched (forwardingAt start arrivals) l' ∧ match r with
        | .ok (f, _) => Wired a (forwardingAt start arrivals) f l'
        | .error _ => True := by
  simp only [waitSetup, Act.ensures_bind]
  have ho : TableReady a opened (forwardingAt start arrivals)
      (forwardingAt start arrivals l).signalPipe l := ⟨ha, hu, rfl⟩
  -- no call of the set-up moves the signal pipe
  generalize (forwardingAt start arrivals l).signalPipe = fd at ho
  refine (ho.ensures (asking_clock a) h).mono fun r h₁ l₁ ho₁ => ?_
  cases r with
  | error e => exact ⟨ho₁.untouched, trivial⟩
  | ok startNs =>
    simp only [Act.ensures_get, loadSignalFd, Act.ensures_bind, Act.ensures_call, Act.ensures_pure]
    intro pipeFd hpipeFd
    obtain ⟨hg₂, ho₂⟩ := ho₁.asks (q := ⟨.monitor, .loadSignalPipe⟩) (.inl rfl) pipeFd hpipeFd
    refine ⟨hg₂, ?_⟩
    have hfd : pipeFd = fd := Eq.trans hpipeFd.1 ho₁.signalPipe
    refine (validateStdin_opening ho₂).mono fun r h₃ l₃ hr => ?_
    obtain ⟨ho₃, hr⟩ := hr
    cases r with
    | error e => exact ⟨ho₃.untouched, trivial⟩
    | ok stdin =>
      -- stdin is polled only if it was asked for
      have hsome : stdin ≠ none → a.stdinTimeout ≠ none := by
        cases stdin with
        | none => exact fun h => absurd rfl h
        | some _ => exact fun _ => hr
      refine (ho₃.ensures (asking_initialPoll a.confine (fun hne => .inr (.inr ⟨rfl, hsome hne⟩))
        (.inl (by cases a.confine <;> rfl))) h₃).mono fun r h₄ l₄ ho₄ => ?_
      cases r with
      | error e => exact ⟨ho₄.untouched, trivial⟩
      | ok stdin' =>
        simp only [openKqueue, Act.ensures_bind, Act.ensures_call]
        intro kq hkq
        have hu₅ := ho₄.untouched.cons (e := ⟨⟨.monitor, .kqueue⟩, kq⟩) (by nofun) (by nofun)
        refine ⟨guar_of_call (by nofun) (by nofun) (by nofun) (by nofun) l₄, ?_⟩
        cases kq with
        | error errno => exact ⟨hu₅, trivial⟩
        | ok kq =>
          refine ⟨hu₅, ho₄.apart.wired ?_ rfl hkq.1⟩
          show (if 0 ≤ pipeFd then some pipeFd else none) = _
          rw [ho₄.signalPipe, hfd]

/-! ## A round of the loop -/

/-- At the loop head, and as long as no call is open. -/
structure Steady (a : WaitArgs) (P : Trace → Forwarding) (f : WaitFixed) (v : WaitVars)
    (l : Trace) : Prop where
  wired : Wired a P f l
  untouched : PipeUntouched P l
  listed : Listed f v

/-- The kevent call has been answered. -/
def Attributed (a : WaitArgs) (P : Trace → Forwarding) (f : WaitFixed) (v : WaitVars) :
    Trace → Prop
  | [] => False
  | e :: l => Steady a P f v l ∧ Wired a P f (e :: l) ∧ KernelAnswers P e l ∧ ¬ TextReported P e l

theorem Steady.vars {v' : WaitVars} {P : Trace → Forwarding} (hs : Steady a P f v l)
    (hv : Listed f v → Listed f v') : Steady a P f v' l := ⟨hs.wired, hs.untouched, hv hs.listed⟩

theorem Steady.asks {q : Req} (hs : Steady a (forwardingAt start arrivals) f v l)
    (hq : q.aside = true) :
    Asks (descriptorContract a opened (forwardingAt start arrivals)) q l fun _ l' =>
      Steady a (forwardingAt start arrivals) f v l' := by
  intro ans _
  have hspec := Req.aside_spec hq
  exact ⟨guar_of_call hspec.read hspec.poll hspec.look hspec.kevent l,
    hs.wired.quiet hspec.quiet, hs.untouched.cons hspec.kevent hspec.unread, hs.listed⟩

theorem Steady.asksClock (hs : Steady a (forwardingAt start arrivals) f v l) (confine : Confine)
    {Q : Option Nat → Trace → Prop}
    (hQ : ∀ r l', Steady a (forwardingAt start arrivals) f v l' → Q r l') :
    AsksClock (descriptorContract a opened (forwardingAt start arrivals)) .monitor confine l Q := by
  cases confine with
  | wall => exact (hs.asks (q := ⟨.monitor, .wallNow⟩) rfl).mono fun r hs' => hQ _ _ hs'
  | active => exact (hs.asks (q := ⟨.monitor, .activeNow⟩) rfl).mono fun r hs' => hQ _ _ hs'

/-- After the kqueue is closed nothing is reported any more. -/
theorem PipeUntouched.asksClose {P : Trace → Forwarding} (hu : PipeUntouched P l) (fd : Int)
    {Q : Trace → Prop} (hQ : ∀ l', PipeUntouched P l' → Q l') :
    Asks (descriptorContract a opened P) ⟨.monitor, .close fd⟩ l fun _ l' => Q l' :=
  fun _ _ => ⟨guar_of_call (by nofun) (by nofun) (by nofun) (by nofun) l,
    hQ _ (hu.cons (by nofun) (by nofun))⟩

theorem Attributed.steady {cs : List Kevent} {r : Except Int Kevent}
    (hh : Attributed a (forwardingAt start arrivals) f v (delivered f cs r l))
    (hne : ¬ PipeReady (forwardingAt start arrivals) ⟨⟨.monitor, .kevent f.kq cs⟩, r⟩ l) :
    Steady a (forwardingAt start arrivals) f v (delivered f cs r l) :=
  ⟨hh.2.1, ⟨⟨hne, nofun⟩, hh.1.untouched⟩, hh.1.listed⟩

theorem ne_none_of_drained {ev : Kevent} (hw : Tracked f v (watch (Watch.ofArgs a 0) l))
    (hev : StdinEvent v ev) : a.stdinTimeout ≠ none := by
  intro hnone
  have hdrain := hw.draining
  rw [(Watch.stdinOff_of_none hnone l).2, hev.2.2] at hdrain
  cases hdrain

/-- The pipe is at descriptor 0 only if that is its read end. -/
theorem Wired.zero (hw : Wired a (forwardingAt start arrivals) f l)
    (hne : (forwardingAt start arrivals l).fileAt 0 ≠ some .signalRead) : f.signalFd ≠ some 0 := by
  intro hzero
  have hfd := hw.signalFd
  rw [hzero] at hfd
  split at hfd
  · next hle =>
    have hend := hw.pipeEnd hle
    rw [← Option.some.inj hfd] at hend
    exact hne hend
  · cases hfd

/-- A stdin that is drained is not the pipe. -/
theorem Attributed.of_stdin {cs : List Kevent} {ev : Kevent}
    (hh : Attributed a (forwardingAt start arrivals) f v (delivered f cs (.ok ev) l))
    (hw : Tracked f v (watch (Watch.ofArgs a 0) l)) (hev : StdinEvent v ev) :
    Steady a (forwardingAt start arrivals) f v (delivered f cs (.ok ev) l) ∧
      f.signalFd ≠ some 0 := by
  have hne := hh.1.wired.stdin (ne_none_of_drained hw hev)
  refine ⟨hh.steady ?_, hh.1.wired.zero hne⟩
  rintro ⟨-, -, hid⟩
  have hsp : (forwardingAt start arrivals l).signalPipe = 0 := by
    rw [← hid, hev.2.1]
    rfl
  have hend := hh.1.wired.pipeEnd (Int.le_of_eq hsp.symm)
  rw [hsp] at hend
  exact hne hend

theorem Attributed.of_filter {cs : List Kevent} {ev : Kevent}
    (hh : Attributed a (forwardingAt start arrivals) f v (delivered f cs (.ok ev) l))
    (hne : ev.filter ≠ EVFILT_READ ∨ ev.has EV_ERROR = true) :
    Steady a (forwardingAt start arrivals) f v (delivered f cs (.ok ev) l) := by
  refine hh.steady ?_
  rintro ⟨hread, he, -⟩
  rcases hne with hne | hne
  · exact hne hread
  · rw [he] at hne
    cases hne

theorem Attributed.of_error {cs : List Kevent} {err : Int}
    (hh : Attributed a (forwardingAt start arrivals) f v (delivered f cs (.error err) l)) :
    Steady a (forwardingAt start arrivals) f v (delivered f cs (.error err) l) := hh.steady id

/-- A bad descriptor 0 is a closed one, and not the pipe. -/
theorem Attributed.zero_of_badf {cs : List Kevent} {ev : Kevent}
    (hh : Attributed a (forwardingAt start arrivals) f v (delivered f cs (.ok ev) l))
    (he : ev.has EV_ERROR = true) (hbad : ev.errCode = EBADF) (hid : ev.ident = 0) :
    f.signalFd ≠ some 0 := by
  have hnone := (hh.2.2.1.1 he hbad).2
  rw [hid] at hnone
  refine hh.1.wired.zero ?_
  rw [show (0 : Int) = ((0 : Nat) : Int) from rfl, hnone]
  exact nofun

/-- Closing the kqueue leaves the pipe open, and what is in it. -/
theorem Wired.close (hw : Wired a (forwardingAt start arrivals) f l)
    (hle : 0 ≤ (forwardingAt start arrivals l).signalPipe) (ans : Unit) :
    (forwardingAt start arrivals (⟨⟨.monitor, .close f.kq⟩, ans⟩ :: l)).fileAt
        (forwardingAt start arrivals l).signalPipe = some .signalRead ∧
      (forwardingAt start arrivals l).pipe <+:
        (forwardingAt start arrivals (⟨⟨.monitor, .close f.kq⟩, ans⟩ :: l)).pipe := by
  have hg := forwardingAt_cons start arrivals ⟨⟨.monitor, .close f.kq⟩, ans⟩ l
  have hend := hw.pipeEnd hle
  have hkq := hw.kq
  have hpos : 0 ≤ f.kq := by
    by_contra hneg
    rw [Forwarding.fileAt, if_neg hneg] at hkq
    cases hkq
  have hne : (forwardingAt start arrivals l).signalPipe ≠ f.kq := by
    intro heq
    rw [heq, hkq] at hend
    cases hend
  have hafter : (forwardingAt start arrivals l).after ⟨⟨.monitor, .close f.kq⟩, ans⟩ =
      { forwardingAt start arrivals l with
        table := FdTable.release (forwardingAt start arrivals l).table f.kq.toNat } := if_pos hpos
  rw [hafter] at hg
  refine ⟨?_, hg.pipe⟩
  rw [hg.fileAt, Forwarding.fileAt, if_pos hle]
  show FdTable.file (FdTable.release _ f.kq.toNat) _ = _
  rw [FdTable.file_release, if_neg fun heq => hne (by omega)]
  rwa [Forwarding.fileAt, if_pos hle] at hend

theorem ReportReturned.cons {P : Trace → Forwarding} {r : Except TimeoutError WaitResult}
    {e : Event} (h : ReportReturned P r l) (hq : ∀ kq cs, e.req.call ≠ .kevent kq cs) :
    ReportReturned P r (e :: l) :=
  ⟨fun hready => absurd hready (not_ready_of_call hq l), h⟩

/-- A line in front is no signal. -/
theorem ReportReturned.textless {P : Trace → Forwarding} {r : Except TimeoutError WaitResult}
    (h : ReportReturned P r l) : ¬ Ever (TextReported P) l := by
  refine Ever.not_iff.mpr (h.mono fun e l' hret htext => ?_)
  obtain ⟨sig, hsig, -⟩ := hret htext.1
  have hany := htext.2
  rw [hsig] at hany
  cases hany

/-- A READ event nobody drains is taken for the pipe's. -/
theorem Attributed.signal {cs : List Kevent} {ev : Kevent}
    (hh : Attributed a (forwardingAt start arrivals) f v (delivered f cs (.ok ev) l))
    (hread : ev.filter = EVFILT_READ) (he : ev.has EV_ERROR = false) :
    Asks (descriptorContract a opened (forwardingAt start arrivals)) ⟨.monitor, .close f.kq⟩
      (delivered f cs (.ok ev) l) fun _ l' => match f.signalFd with
        | none => ReportReturned (forwardingAt start arrivals) (.ok (.timedOut .wallClock)) l'
        | some fd => Asks (descriptorContract a opened (forwardingAt start arrivals))
          ⟨.monitor, .readSignalPipe fd⟩ l' fun b l'' =>
            ReportReturned (forwardingAt start arrivals) (.ok (b.elim (.timedOut .wallClock)
              fun b => .receivedSignal (decodeSignalByte b))) l'' := by
  obtain ⟨⟨hwired, hunrep, -⟩, hwired', hans, htext⟩ := hh
  intro ans _
  refine ⟨guar_of_call (by nofun) (by nofun) (by nofun) (by nofun) _, ?_⟩
  have hg : (forwardingAt start arrivals l).Grew
      (forwardingAt start arrivals (delivered f cs (.ok ev) l)) := forwardingAt_quiet rfl
  have hclosed : ∀ r, (PipeReady (forwardingAt start arrivals) ⟨⟨.monitor, .kevent f.kq cs⟩, .ok ev⟩ l →
      ∃ sig, (forwardingAt start arrivals l).pipe.head? = some (.signal sig) ∧
        r = .ok (.receivedSignal sig)) →
      ReportReturned (forwardingAt start arrivals) r
        (⟨⟨.monitor, .close f.kq⟩, ans⟩ :: delivered f cs (.ok ev) l) :=
    fun r h => ReportReturned.cons (l := delivered f cs (.ok ev) l) ⟨h, hunrep.returned r⟩ (by nofun)
  have hfd := hwired'.signalFd
  by_cases hle : 0 ≤ (forwardingAt start arrivals (delivered f cs (.ok ev) l)).signalPipe
  · rw [if_pos hle] at hfd
    rw [hfd]
    intro b hb
    refine ⟨guar_of_call (by nofun) (by nofun) (by nofun) (by nofun) _,
      ReportReturned.cons (hclosed _ ?_) (by nofun)⟩
    intro hready
    -- the pipe is not empty, and its first byte is still the first when it is read
    obtain ⟨hend, hprefix⟩ := hwired'.close hle ans
    have hfirst := hg.pipe.trans hprefix
    cases hpipe : (forwardingAt start arrivals l).pipe with
    | nil => exact absurd hpipe ((hans.2 he hread).2 hready.2.2)
    | cons first rest =>
      rw [hpipe] at hfirst
      obtain ⟨more, hmore⟩ := hfirst
      have hbyte : b = some first.byte := by
        rw [hb.1 hend, ← hmore]
        rfl
      cases first with
      | signal sig =>
        refine ⟨sig, rfl, ?_⟩
        rw [hbyte, Option.elim_some]
        show _ = Except.ok (WaitResult.receivedSignal sig)
        rw [Written.byte, decodeSignalByte_signalByte]
      -- no line was reported
      | text b => exact absurd ⟨hready, by rw [hpipe]; rfl⟩ htext
  · rw [if_neg hle] at hfd
    rw [hfd]
    refine hclosed _ ?_
    rintro ⟨-, -, hid⟩
    rw [hg.signalPipe, ← hid] at hle
    exact absurd (Int.natCast_nonneg _) hle

theorem aliasing_rule (hsmall : start.signalPipe < 2 ^ 64) (f : WaitFixed) :
    WaitRule (descriptorContract a opened (forwardingAt start arrivals)) (Watch.ofArgs a 0) fuel f
      (fun _ v _ l => Steady a (forwardingAt start arrivals) f v l)
      (fun _ v _ l => Steady a (forwardingAt start arrivals) f v l)
      (fun _ v _ l => Attributed a (forwardingAt start arrivals) f v l)
      (fun _ v _ l => Steady a (forwardingAt start arrivals) f v l)
      (fun r _ l => ReportReturned (forwardingAt start arrivals) r l) where
  cut _ _ _ _ := trivial
  clock _ _ _ _ hs _ := hs.asksClock _ fun r l' hs' => by
    cases r with
    | some _ => exact hs'
    | none => exact hs'.untouched.returned _
  -- a verdict of the wait closes the kqueue and returns, at any point of the loop
  deadline _ _ _ _ hs _ _ := by
    rcases hs with hs | hs <;> exact hs.untouched.asksClose _ fun l' hu => hu.returned _
  idle _ _ _ _ _ hs _ _ _ := by
    rcases hs with hs | hs <;> exact hs.untouched.asksClose _ fun l' hu => hu.returned _
  kevent _ _ _ l hs _ _ := fun r hr => by
    refine ⟨⟨id, nofun, fun kq cs _ => ⟨hs.untouched, fun hle => ?_⟩⟩,
      hs.vars fun hv => hv.afterKevent _, hs.wired.quiet rfl, hr⟩
    -- the pipe is on the list that is submitted
    have hfd := hs.wired.signalFd
    rw [if_pos hle] at hfd
    have hkept := (@forwardingAt_keeps start arrivals l).signalPipe
    exact hs.listed.registers hfd hle (hkept ▸ hsmall) _ _ r l
  interrupted _ _ _ _ _ hh _ := hh.of_error
  noProcess _ _ _ _ _ hh _ := hh.of_error.untouched.asksClose _ fun _ hu =>
    (hu.ensures (asking_reapGone (fun _ => rfl) (fun _ => rfl) fuel) _).mono
      fun r _ _ hu' => hu'.returned r
  broken _ _ _ _ _ _ hh _ _ _ := hh.of_error.untouched.asksClose _ fun _ hu => hu.returned _
  eof _ _ _ _ _ _ hh hw hev _ :=
    (hh.of_stdin hw hev).1.vars fun hv => hv.dropped (hh.of_stdin hw hev).2
  read _ v _ l cs ev hh hw hev _ := by
    obtain ⟨hs, hne⟩ := hh.of_stdin hw hev
    -- stdin is watched, so it is kept apart from the signal pipe
    have hapart := hs.wired.stdin (ne_none_of_drained hw hev)
    intro bytes _
    have hs' : Steady a (forwardingAt start arrivals) f v
        (⟨⟨.monitor, .readStdin⟩, bytes⟩ :: delivered f cs (.ok ev) l) :=
      ⟨hs.wired.readStdin hapart, hs.untouched.cons (by nofun) (by nofun), hs.listed⟩
    refine ⟨⟨fun htakes => hapart htakes.2, nofun, nofun⟩, ?_⟩
    dsimp only
    split
    · exact hs'.vars fun hv => hv.dropped hne
    · split
      · refine hs'.asksClock _ fun r l' hs'' => ?_
        cases r with
        | some t =>
          have hset : Listed f v → Listed f { v with
              stdinTimeout := v.stdinTimeout.map fun s => { s with lastActivityNs := t } } :=
            fun hv => hv.of_eq rfl rfl
          exact hs''.vars fun hv => (hset hv).rearmed
        | none => exact hs''.untouched.returned _
      · exact hs'.vars fun hv => hv.rearmed
  timer _ _ _ _ _ _ hh _ ht := by
    refine (hh.of_filter (.inl (by rw [ht]; decide))).asksClock _ fun r l' hs' => ?_
    cases r with
    | some _ => exact hs'
    | none => exact hs'.untouched.returned _
  throttle _ v _ l ctx hs _ _ _ := by
    -- the throttle asks for no descriptor
    have hkept : (CpuThrottleState.update ctx.cfg (watch (Watch.ofArgs a 0) l).clock).Ensures
        (descriptorContract a opened (forwardingAt start arrivals)) ctx.state l fun _ _ l' =>
          Steady a (forwardingAt start arrivals) f v l' :=
      (CpuThrottleState.asking_update (P := fun q => q.aside = true) (fun _ _ => rfl) (fun _ => rfl)
        _ _).ensures _ (fun _ _ hq hs => hs.asks hq) (fun _ _ => trivial) hs
    refine (hkept.with (CpuThrottleState.update_ok ctx.cfg _ ctx.state l)).mono fun r _ _ hr => ?_
    obtain ⟨hs', b, rfl⟩ := hr
    exact hs'.vars fun hv => hv.of_eq rfl rfl
  memory _ _ _ l m hs _ _ _ := by
    refine (hs.asks (q := ⟨.memoryCheck, .procPidRusage f.args.pid⟩) rfl).mono fun r hs' => ?_
    split
    · split
      · exact hs'.untouched.asksClose _ fun l' hu => hu.returned _
      · exact hs'.vars fun hv => hv.of_eq rfl rfl
    · exact hs'.vars fun hv => hv.of_eq rfl rfl
  poll _ _ _ l cfg hs hw hcfg _ := by
    -- stdin is polled only if it was watched from the start
    have hsome : a.stdinTimeout ≠ none := by
      intro hnone
      have hstdin := hw.stdin
      rw [(Watch.stdinOff_of_none hnone l).1, hcfg] at hstdin
      cases hstdin
    intro r _
    refine ⟨⟨fun htakes => hs.wired.stdin hsome htakes.2, nofun, nofun⟩, hs.wired.quiet rfl,
      hs.untouched.cons (by nofun) (by nofun), hs.listed.of_eq ?_ ?_⟩
    · cases stdinPollStatus r <;> rfl
    · cases stdinPollStatus r <;> rfl
  line _ _ _ _ _ hs _ _ _ _ := hs.asks rfl
  beat _ v _ l hs _ _ := by
    have hset : Listed f v → Listed f { v with
        nextHeartbeatNs := advanceNs (watch (Watch.ofArgs a 0) l).clock f.heartbeatIntervalNs } :=
      fun hv => hv.of_eq rfl rfl
    exact hs.vars fun hv => (hset hv).rearmed
  tick _ _ _ _ hs _ _ := hs.vars fun hv => hv.rearmed
  -- a bad descriptor 0 is given up, and the pipe is elsewhere
  badStdin _ _ _ _ _ _ hh _ _ _ he hbad hid :=
    (hh.of_filter (.inr he)).vars fun hv => hv.dropped (hh.zero_of_badf he hbad hid)
  noFilter _ _ _ _ _ _ hh _ _ _ he _ _ := (hh.of_filter (.inr he)).vars fun hv => hv.unflagged
  refused _ _ _ _ _ _ hh _ _ _ he _ _ _ :=
    (hh.of_filter (.inr he)).untouched.asksClose _ fun _ hu => hu.returned _
  gone _ _ _ _ _ _ hh _ _ _ he _ := (hh.of_filter (.inr he)).untouched.asksClose _ fun _ hu =>
    (hu.ensures (asking_reapGone (fun _ => rfl) (fun _ => rfl) fuel) _).mono
      fun r _ _ hu' => hu'.returned r
  exited _ _ _ _ _ _ hh _ hproc _ :=
    (hh.of_filter (.inl (by rw [hproc]; decide))).untouched.asksClose _ fun _ hu =>
      (hu.ensures (asking_childWaitOrFail (fun _ => rfl) fuel) _).mono fun r _ _ hu' => by
        cases r <;> exact hu'.returned _
  signal _ _ _ _ _ _ hh _ _ hread he := hh.signal hread he
  other _ _ _ _ _ _ hh _ _ _ hread _ :=
    (hh.of_filter (.inl hread)).untouched.asksClose _ fun _ hu => hu.returned _

end rule

/-! ## Kept apart -/

/-- What the descriptors owe the two subsystems that know them by number. A report of the
    pipe ends the wait with the signal that came in first. So does a handled signal that
    comes in, at the latest when more than `patience` events of the kqueue have come after
    it: its handler has written a byte, or could not for those that wait already. No byte
    of the pipe is drained as stdin, and a stdin that was closed at the start is not
    monitored once it has been looked up. -/
structure KeptApart (a : WaitArgs) (opened : List Bool) (start : Forwarding)
    (arrivals : Trace → List (Signal × Bool)) (patience : Nat) (r : WaitResult) (l : Trace) :
    Prop where
  returned : ReportReturned (forwardingAt start arrivals) (.ok r) l
  heeded : ∀ later before sig written, l = later ++ before → (sig, written) ∈ arrivals before →
    sig ∈ (forwardingAt start arrivals before).handled →
    (written = true ∨ (forwardingAt start arrivals before).pipe ≠ []) →
    patience < later.countP isReport →
    ∃ first, (forwardingAt start arrivals before).pipe.head? = some (.signal first) ∧
      r = .receivedSignal first
  undrained : ¬ Ever (StdinTakesSignal (forwardingAt start arrivals)) l
  disabled : opened[0]? ≠ some true → Always (fun _ l => Ever StdinLookedUp l →
    (watch (Watch.ofArgs a 0) l).StdinOff) l

section apart
variable {a : WaitArgs} {opened : List Bool} {start : Forwarding} {c : Fcntl}
  {earlier : List Written} {arrivals : Trace → List (Signal × Bool)} {l : Trace}

/-- Where the wait starts, when descriptor 0 is not the pipe or is not looked at. -/
theorem apart_start (hcond : opened[0]? = some true ∨ a.stdinTimeout = none ∨
      c.ready (Forwarding.fresh opened).table = false) :
    Apart a opened (forwardingAt (.begun c opened earlier) arrivals) [] := by
  have hs := (begun_started c opened earlier).grew (Forwarding.arrivals_grew (arrivals []) _)
  refine ⟨hs.pipeEnd, fun hsome => ?_, fun hclosed => ?_⟩
  · rcases hcond with hopen | hoff | hfail
    · exact hs.apart (.inl hopen)
    · exact absurd hoff hsome
    · exact hs.apart (.inr hfail)
  · rcases hcond with hopen | hoff | hfail
    · exact absurd hopen hclosed
    · exact .inl (Watch.stdinOff_of_none hoff [])
    · exact .inr (hs.closed hclosed hfail)

/-- Once its monitoring was given up, stdin is not monitored again. -/
theorem stdinOff_of_mindful {P : Trace → Forwarding} (hclosed : opened[0]? ≠ some true) :
    ∀ {l : Trace}, Always (Mindful a opened P) l → Ever StdinLookedUp l →
    (watch (Watch.ofArgs a 0) l).StdinOff
  | _ :: _, hl, .inl he => hl.1.disabled he hclosed
  | e :: _, hl, .inr hever => (stdinOff_of_mindful hclosed hl.2 hever).step e

theorem always_stdinOff {P : Trace → Forwarding} (hclosed : opened[0]? ≠ some true) :
    ∀ {l : Trace}, Always (Mindful a opened P) l →
    Always (fun _ l => Ever StdinLookedUp l → (watch (Watch.ofArgs a 0) l).StdinOff) l
  | [], _ => trivial
  | _ :: _, hl => ⟨stdinOff_of_mindful hclosed hl.2, always_stdinOff hclosed hl.2⟩

/-- A signal that came in is passed over for a while, and then the pipe is reported. -/
theorem heeded_of_mindful {patience : Nat} {r : WaitResult} {later before : Trace} {sig : Signal}
    {written : Bool}
    (hforwards : start.handled ≠ [] → 0 ≤ start.signalPipe ∧ 0 ≤ start.signalWriteFd)
    (hguar : Always (Mindful a opened (forwardingAt start arrivals)) (later ++ before))
    (hreturned : ReportReturned (forwardingAt start arrivals) (.ok r) (later ++ before))
    (hpatient : passedOver (forwardingAt start arrivals) (later ++ before) ≤ patience)
    (harrived : (sig, written) ∈ arrivals before)
    (hhandled : sig ∈ (forwardingAt start arrivals before).handled)
    (hwritten : written = true ∨ (forwardingAt start arrivals before).pipe ≠ [])
    (hlong : patience < later.countP isReport) :
    ∃ first, (forwardingAt start arrivals before).pipe.head? = some (.signal first) ∧
      r = .receivedSignal first := by
  rw [(@forwardingAt_keeps start arrivals before).handled] at hhandled
  obtain ⟨hpipe, hwrite⟩ := hforwards (List.ne_nil_of_mem hhandled)
  have hne : (forwardingAt start arrivals before).pipe ≠ [] := by
    rcases hwritten with rfl | hne
    · exact forwardingAt_arrived harrived hhandled hwrite
    · exact hne
  rcases passed_over_or_reported hpipe hne hguar with hle | ⟨e, l, ⟨later', hl⟩, hready, hprefix⟩
  · omega
  · obtain ⟨first, hfirst, hr⟩ := hreturned.at_event hl.symm hready
    refine ⟨first, ?_, Except.ok.inj hr⟩
    -- what was in front is still in front
    obtain ⟨more, hmore⟩ := hprefix
    rw [← hmore, List.head?_append_of_ne_nil _ hne] at hfirst
    exact hfirst

/-- The whole wait keeps the contract. -/
theorem wait_mindful {fuel : Nat} {h : Handles} (hsmall : start.signalPipe < 2 ^ 64)
    (hapart : Apart a opened (forwardingAt start arrivals) []) :
    (waitWithKqueue fuel a).Ensures (descriptorContract a opened (forwardingAt start arrivals)) h []
      fun r _ l => ReportReturned (forwardingAt start arrivals) r l := by
  rw [waitWithKqueue, Act.ensures_bind]
  refine ((waitSetup_wired hapart trivial).with (waitSetup_tracked (silent_setup a.confine) trivial
    (Watch.ofArgs_ready a 0))).mono fun r h' l' hr => ?_
  obtain ⟨⟨hu, hwired⟩, rfl, hset⟩ := hr
  rcases r with e | ⟨f, v⟩
  · exact hu.returned _
  · exact (aliasing_rule hsmall f).loop ⟨hwired, hu, hset.2.listed⟩ hset.2.tracked

/-- Every earlier log is one some event was added to. -/
theorem ever_of_suffix {Q : Trace → Prop} {l l' : Trace} (hs : l <:+ l')
    (hlt : l.length < l'.length) (hQ : Q l) : Ever (fun _ l => Q l) l' := by
  obtain ⟨t, rfl⟩ := hs
  induction t with
  | nil => exact absurd hlt (Nat.lt_irrefl _)
  | cons e t ih =>
    cases t with
    | nil => exact .inl hQ
    | cons e' t => exact .inr (ih (by simp only [List.length_append, List.length_cons]; omega))

/-- The set-up of the wait takes the pipe for a stdin it may monitor. -/
theorem waitSetup_deceived {h : Handles} {cfg : StdinTimeoutConfig}
    (hcfg : a.stdinTimeout = some cfg)
    (hzero : (forwardingAt start arrivals []).fileAt 0 = some .signalRead) :
    (waitSetup a).Ensures { rely := KernelAnswers (forwardingAt start arrivals) } h []
      fun r _ l => match r with
        | .ok _ => Ever (fun _ l => Ever StdinLookedUp l ∧ (watch (Watch.ofArgs a 0) l).stdin = true) l
        | .error _ => True := by
  simp only [waitSetup, Act.ensures_bind, ensures_now]
  have hclock : AsksClock { rely := KernelAnswers (forwardingAt start arrivals) } .monitor
      a.confine [] fun r l' => ∀ t, r = some t →
        (forwardingAt start arrivals l').fileAt 0 = some .signalRead ∧
          (watch (Watch.ofArgs a 0) l').stdin = true ∧ (watch (Watch.ofArgs a 0) l').looping = false := by
    refine asksClock_intro (Watch.ofArgs a 0) fun e r hreq _ _ hw _ => ⟨trivial, ?_⟩
    rintro t rfl
    rw [hw, (forwardingAt_quiet (by rw [hreq]; cases a.confine <;> rfl)).fileAt]
    refine ⟨hzero, ?_, rfl⟩
    simp [Watch.tick, watch, Watch.ofArgs, hcfg]
  refine hclock.mono fun r l₁ hr => ?_
  cases r with
  | none => exact trivial
  | some t =>
    obtain ⟨hzero₁, hon₁, hloop₁⟩ := hr t rfl
    simp only [Act.ensures_get, loadSignalFd, Act.ensures_bind, Act.ensures_call, Act.ensures_pure]
    intro fd _
    refine ⟨trivial, ?_⟩
    rw [hcfg]
    simp only [validateStdin, Act.ensures_bind, Act.ensures_call, Act.ensures_pure]
    intro r hr
    refine ⟨trivial, ?_⟩
    have hzero₂ := (@forwardingAt_quiet start arrivals
      ⟨⟨.monitor, .loadSignalPipe⟩, fd⟩ l₁ rfl).fileAt 0
    have hvalid : 0 ≤ r := hr.mpr (by rw [hzero₂, hzero₁]; rfl)
    have hon₃ : (watch (Watch.ofArgs a 0) (⟨⟨.monitor, .fstatStdin⟩, r⟩ ::
        ⟨⟨.monitor, .loadSignalPipe⟩, fd⟩ :: l₁)).stdin = true := by
      show (if r < 0 then _ else (watch (Watch.ofArgs a 0) l₁).begin fd : Watch).stdin = true
      rw [if_neg (Int.not_lt.mpr hvalid), Watch.begin, hon₁, hloop₁]
      rfl
    -- the set-up goes on to the kqueue
    have hpoll : (initialPoll a.confine (if r < 0 then none else some cfg)).Ensures
        { rely := KernelAnswers (forwardingAt start arrivals) } h
        (⟨⟨.monitor, .fstatStdin⟩, r⟩ :: ⟨⟨.monitor, .loadSignalPipe⟩, fd⟩ :: l₁)
        fun _ _ _ => True :=
      Prog.ensures_of_forall (fun _ _ => trivial) (fun _ => trivial) (fun _ _ => trivial) _ _
    refine (Act.Ensures.with hpoll (Act.ensures_extends _ h _)).mono fun r' h₄ l₄ hl₄ => ?_
    cases r' with
    | error e => exact trivial
    | ok stdin =>
      simp only [openKqueue, Act.ensures_bind, Act.ensures_call]
      intro kq _
      refine ⟨trivial, ?_⟩
      cases kq with
      | error errno => exact trivial
      | ok kq =>
        refine ever_of_suffix (hl₄.2.trans (List.suffix_cons _ l₄)) ?_ ⟨.inl rfl, hon₃⟩
        exact Nat.lt_succ_of_le hl₄.2.length_le

/-- A stdin timeout makes the wait monitor a pipe that was given descriptor 0. -/
theorem not_disabled {env : World} {fuel : Nat} {h₀ h : Handles} {r : WaitResult}
    (hrun : (waitWithKqueue fuel a h₀).run env [] = (some (.ok r, h), l))
    (hkernel : Always (KernelAnswers (forwardingAt start arrivals)) l)
    (hmonitored : a.stdinTimeout ≠ none)
    (hzero : (forwardingAt start arrivals []).fileAt 0 = some .signalRead) :
    ¬ Always (fun _ l => Ever StdinLookedUp l → (watch (Watch.ofArgs a 0) l).StdinOff) l := by
  intro hdisabled
  obtain ⟨cfg, hcfg⟩ := Option.ne_none_iff_exists'.mp hmonitored
  have hsuffix := Act.run_bind_suffix hrun
  have hset := waitSetup_deceived (h := h₀) hcfg hzero
  have hpost := Prog.Ensures.sound env hset trivial (hkernel.suffix hsuffix)
  rw [waitWithKqueue, Act.run_bind] at hrun
  rcases hrunset : (waitSetup a h₀).run env [] with ⟨_ | ⟨_ | fv, h₁⟩, l₁⟩
  · rw [hrunset] at hrun
    cases hrun
  · rw [hrunset] at hrun
    cases hrun
  · rw [hrunset] at hpost hsuffix
    obtain ⟨later, e, before, hl, hever, hon⟩ := (Ever.later hsuffix (hpost.2.1 _ rfl)).witness
    have hoff := hdisabled.at_event hl hever
    rw [hoff.1] at hon
    cases hon

end apart

/-! Three runs with a stdin timeout of ten seconds. -/

def fcntlOk : Fcntl := ⟨fun _ => true, fun _ => true⟩

def tenSecondsIdle : WaitArgs where
  pid := 7
  timeout := .fromSecs 30
  confine := .wall
  stdinTimeout := some { timeoutNs := 10000000000, lastActivityNs := 0, mode := .consume }

/-- The same with a heartbeat every second. -/
def beatingIdle : WaitArgs :=
  { tenSecondsIdle with
    heartbeat := some { intervalNs := 1000000000, quiet := false, pid := 7, startNs := 0 } }

/-- SIGTERM comes in before the sixth call is answered. -/
def sigtermArrives (l : Trace) : List (Signal × Bool) :=
  if l.length = 5 then [(.sigterm, true)] else []

/-- The first kevent call returns the timer's event after a second, all others report
    descriptor `fd`, from which `byte` is read. -/
def secondTickWorld (fd : Nat) (kq : Int) (byte : UInt8) : World := Machine.world {
  wallClock := fun l => some (if l.countP isReport = 0 then 0 else 1000000000)
  signalFd := fd
  kqueue := .ok kq
  kevent := fun l => .ok (if l.countP isReport = 0 then
      { ident := 1, filter := EVFILT_TIMER, flags := 0 }
    else { ident := fd, filter := EVFILT_READ, flags := 0 })
  signalByte := fun _ => some byte }

/-- The kernel reports descriptor `fd` readable, and the fourth reading is past the timeout. -/
def reportingWorld (fd : Nat) (kq : Int) : World := fun l q => match q with
  | ⟨_, .readStdin⟩ => 1
  | q => Machine.world {
      wallClock := fun l => some (if l.countP (fun e => e.req == ⟨.monitor, .wallNow⟩) < 3 then 0
        else 31000000000)
      signalFd := fd
      kqueue := .ok kq
      kevent := fun _ => .ok { ident := fd, filter := EVFILT_READ, flags := 0 }
      signalByte := fun _ => some 15 } l q

/-- Descriptors 1 and 2 are closed: the pipe takes them, and the first letter of a heartbeat is
    read as SIGTERM, though no signal has come in. -/
theorem heartbeat_received : ∃ h l,
    (waitWithKqueue 2 beatingIdle { child := { pid := 7 } }).run (secondTickWorld 1 3 116) [] =
      (some (.ok (.receivedSignal .sigterm), h), l) ∧
    Always (KernelAnswers (forwardingAt
      (.begun fcntlOk [true, false, false, false, false, false] []) fun _ => [])) l ∧
    Ever (TextReported (forwardingAt
      (.begun fcntlOk [true, false, false, false, false, false] []) fun _ => [])) l ∧
    ∀ patience, ¬ KeptApart beatingIdle [true, false, false, false, false, false]
      (.begun fcntlOk [true, false, false, false, false, false] []) (fun _ => []) patience
      (.receivedSignal .sigterm) l := by
  refine ⟨_, _, rfl, ?_, ?_, fun patience hkept => hkept.returned.textless ?_⟩
  · decide +kernel
  · decide +kernel
  · decide +kernel

end Procguard
