import Procguard.Descriptors

/- What the wait owes the pipe. `Mindful` is said of one event: kevent is called only while
   nothing has been made of the pipe and with the pipe registered, and no byte of it goes to
   stdin. From it, along any log, a byte that lies in the pipe is passed over at every event
   of the kqueue until the pipe is reported (`passed_over_or_reported`). -/
namespace Procguard
open Interact

/-! ## The contract -/

section kept
variable (a : WaitArgs) (opened : List Bool) (P : Trace → Forwarding)

/-- Nothing has been made of the pipe: it has not been reported, and nobody has read it. -/
def PipeUntouched (l : Trace) : Prop :=
  Always (fun e l => ¬ PipeReady P e l ∧ ∀ fd, e.req.call ≠ .readSignalPipe fd) l

/-- What the wait owes at each event: it takes no byte of the pipe for stdin, it looks no
    further at a stdin that was closed, and it waits in kevent only while nothing has been
    made of the pipe, and with the pipe registered. -/
structure Mindful (e : Event) (l : Trace) : Prop where
  undrained : ¬ StdinTakesSignal P e l
  disabled : StdinLookedUp e l → opened[0]? ≠ some true →
    (watch (Watch.ofArgs a 0) (e :: l)).StdinOff
  waits : ∀ kq cs, e.req = ⟨.monitor, .kevent kq cs⟩ → PipeUntouched P l ∧
    (0 ≤ (P l).signalPipe → readRegistered .monitor (P l).signalPipe.toNat (e :: l) = true)

/-- The kernel answers by the descriptors, and reports no line for a signal. -/
def descriptorContract : Contract Ans where
  rely e l := KernelAnswers P e l ∧ ¬ TextReported P e l
  guar := Mindful a opened P

/-- Before the kqueue is opened. -/
structure Apart (l : Trace) : Prop where
  pipeEnd : 0 ≤ (P l).signalPipe → (P l).fileAt (P l).signalPipe = some .signalRead
  stdin : a.stdinTimeout ≠ none → (P l).fileAt 0 ≠ some .signalRead
  closed : opened[0]? ≠ some true →
    (watch (Watch.ofArgs a 0) l).StdinOff ∨ (P l).fileAt 0 = none

/-- The locals of the wait name the descriptors they stand for. -/
structure Wired (f : WaitFixed) (l : Trace) : Prop where
  signalFd : f.signalFd = if 0 ≤ (P l).signalPipe then some (P l).signalPipe else none
  kq : (P l).fileAt f.kq = some .kqueue
  pipeEnd : 0 ≤ (P l).signalPipe → (P l).fileAt (P l).signalPipe = some .signalRead
  stdin : a.stdinTimeout ≠ none → (P l).fileAt 0 ≠ some .signalRead

/-- A report of the pipe ends the wait with the signal that came in first. -/
def ReportReturned (r : Except TimeoutError WaitResult) (l : Trace) : Prop :=
  Always (fun e l => PipeReady P e l →
    ∃ sig, (P l).pipe.head? = some (.signal sig) ∧ r = .ok (.receivedSignal sig)) l

end kept

section rules
variable {a : WaitArgs} {opened : List Bool} {f : WaitFixed} {e : Event} {q : Req} {l : Trace}

theorem PipeUntouched.returned {P : Trace → Forwarding} (h : PipeUntouched P l)
    (r : Except TimeoutError WaitResult) : ReportReturned P r l :=
  h.mono fun _ _ he hready => absurd hready he.1

/-- Only the calls on stdin and the kevent call have to be answered for. -/
theorem guar_of_call {P : Trace → Forwarding} (hread : e.req.call ≠ .readStdin)
    (hpoll : e.req.call ≠ .pollStdin) (hlook : e.req.call ≠ .fstatStdin)
    (hkevent : ∀ kq cs, e.req.call ≠ .kevent kq cs) (l : Trace) :
    (descriptorContract a opened P).guar e l := by
  refine ⟨fun htakes => ?_, fun h => absurd (congrArg Req.call h) hlook,
    fun kq cs h => absurd (congrArg Req.call h) (hkevent kq cs)⟩
  obtain ⟨⟨caller, call⟩, ans⟩ := e
  cases call <;> first
    | exact htakes
    | exact hread rfl
    | exact hpoll rfl

theorem not_ready_of_call {P : Trace → Forwarding} (h : ∀ kq cs, e.req.call ≠ .kevent kq cs)
    (l : Trace) : ¬ PipeReady P e l := by
  intro hready
  obtain ⟨⟨caller, call⟩, ans⟩ := e
  cases call <;> cases caller <;> first | exact hready | exact h _ _ rfl

/-- Calls that say nothing of stdin or of the pipe. -/
def Req.aside (q : Req) : Bool :=
  match q.call with
  | .kqueue | .close _ | .readSignalPipe _ | .readStdin | .pollStdin | .kevent _ _
  | .fstatStdin => false
  | _ => true

/-- What is known of such a call. -/
structure Call.Aside (call : Call) : Prop where
  quiet : call.quiet = true
  read : call ≠ .readStdin
  poll : call ≠ .pollStdin
  look : call ≠ .fstatStdin
  kevent : ∀ kq cs, call ≠ .kevent kq cs
  unread : ∀ fd, call ≠ .readSignalPipe fd

theorem Req.aside_spec (h : q.aside = true) : q.call.Aside := by
  obtain ⟨caller, call⟩ := q
  cases call <;> first
    | exact absurd h Bool.false_ne_true
    | exact ⟨rfl, nofun, nofun, nofun, nofun, nofun⟩

/-- An untouched pipe stays so through every call but the two that concern it. -/
theorem PipeUntouched.cons {P : Trace → Forwarding} (h : PipeUntouched P l)
    (hkevent : ∀ kq cs, e.req.call ≠ .kevent kq cs)
    (hread : ∀ fd, e.req.call ≠ .readSignalPipe fd) : PipeUntouched P (e :: l) :=
  ⟨⟨not_ready_of_call hkevent l, hread⟩, h⟩

theorem PipeUntouched.ensures {P : Trace → Forwarding} {σ ε α : Type} {m : Act Ans σ ε α}
    (hm : Act.Asking (fun q => q.aside = true) m) (h : PipeUntouched P l) (s : σ) :
    m.Ensures (descriptorContract a opened P) s l fun _ _ l' => PipeUntouched P l' := by
  refine hm.ensures (PipeUntouched P) (fun q l hq hl ans _ => ?_) (fun _ _ => trivial) h
  have hspec := Req.aside_spec hq
  exact ⟨guar_of_call hspec.read hspec.poll hspec.look hspec.kevent l,
    hl.cons hspec.kevent hspec.unread⟩

end rules

section stepping
variable {a : WaitArgs} {opened : List Bool} {start : Forwarding}
  {arrivals : Trace → List (Signal × Bool)} {f : WaitFixed} {e : Event} {q : Req} {l : Trace}

theorem Apart.quiet (h : Apart a opened (forwardingAt start arrivals) l)
    (hq : e.req.call.quiet = true) : Apart a opened (forwardingAt start arrivals) (e :: l) := by
  have hg := @forwardingAt_quiet start arrivals e l hq
  refine ⟨?_, ?_, fun hclosed => ?_⟩
  · rw [hg.signalPipe, hg.fileAt]
    exact h.pipeEnd
  · rw [hg.fileAt]
    exact h.stdin
  · rw [hg.fileAt]
    exact (h.closed hclosed).imp_left fun hoff => hoff.step e

/-- The look at a stdin that was closed ends its monitoring. -/
theorem Apart.fstat {r : Int} (h : Apart a opened (forwardingAt start arrivals) l)
    (hans : KernelAnswers (forwardingAt start arrivals) ⟨⟨.monitor, .fstatStdin⟩, r⟩ l)
    (hclosed : opened[0]? ≠ some true) :
    (watch (Watch.ofArgs a 0) (⟨⟨.monitor, .fstatStdin⟩, r⟩ :: l)).StdinOff := by
  rcases h.closed hclosed with hoff | hnone
  · exact hoff.step _
  · have hneg : r < 0 := by
      refine Int.not_le.mp fun hle => ?_
      have hsome := hans.mp hle
      rw [hnone] at hsome
      cases hsome
    show (if r < 0 then _ else _ : Watch).StdinOff
    rw [if_pos hneg]
    exact ⟨rfl, rfl⟩

theorem Wired.quiet (h : Wired a (forwardingAt start arrivals) f l)
    (hq : e.req.call.quiet = true) : Wired a (forwardingAt start arrivals) f (e :: l) := by
  have hg := @forwardingAt_quiet start arrivals e l hq
  refine ⟨?_, ?_, ?_, ?_⟩
  · rw [hg.signalPipe]
    exact h.signalFd
  · rw [hg.fileAt]
    exact h.kq
  · rw [hg.signalPipe, hg.fileAt]
    exact h.pipeEnd
  · rw [hg.fileAt]
    exact h.stdin

/-- A read of a stdin that is drained leaves the pipe alone. -/
theorem Wired.readStdin {n : Int} (h : Wired a (forwardingAt start arrivals) f l)
    (hstdin : (forwardingAt start arrivals l).fileAt 0 ≠ some .signalRead) :
    Wired a (forwardingAt start arrivals) f (⟨⟨.monitor, .readStdin⟩, n⟩ :: l) := by
  have hg := forwardingAt_cons start arrivals ⟨⟨.monitor, .readStdin⟩, n⟩ l
  have hafter : (forwardingAt start arrivals l).after ⟨⟨.monitor, .readStdin⟩, n⟩ =
      forwardingAt start arrivals l := if_neg hstdin
  rw [hafter] at hg
  refine ⟨?_, ?_, ?_, ?_⟩
  · rw [hg.signalPipe]
    exact h.signalFd
  · rw [hg.fileAt]
    exact h.kq
  · rw [hg.signalPipe, hg.fileAt]
    exact h.pipeEnd
  · rw [hg.fileAt]
    exact h.stdin

/-- The kqueue takes a free descriptor, so it is neither stdin nor the pipe. -/
theorem Apart.wired {kq : Int} (h : Apart a opened (forwardingAt start arrivals) l)
    (hfd : f.signalFd = if 0 ≤ (forwardingAt start arrivals l).signalPipe then
      some (forwardingAt start arrivals l).signalPipe else none) (hkq : f.kq = kq)
    (hans : KernelAnswers (forwardingAt start arrivals) ⟨⟨.monitor, .kqueue⟩, .ok kq⟩ l) :
    Wired a (forwardingAt start arrivals) f (⟨⟨.monitor, .kqueue⟩, .ok kq⟩ :: l) := by
  obtain ⟨hpos, hlow⟩ := hans
  obtain ⟨hlt, hfree⟩ := FdTable.lowestFree_free hlow
  have hg := forwardingAt_cons start arrivals ⟨⟨.monitor, .kqueue⟩, .ok kq⟩ l
  have hsp : (forwardingAt start arrivals (⟨⟨.monitor, .kqueue⟩, .ok kq⟩ :: l)).signalPipe =
      (forwardingAt start arrivals l).signalPipe := hg.signalPipe
  have hat : ∀ fd : Int, 0 ≤ fd → (forwardingAt start arrivals
      (⟨⟨.monitor, .kqueue⟩, .ok kq⟩ :: l)).fileAt fd =
        if fd = kq then some .kqueue else (forwardingAt start arrivals l).fileAt fd := by
    intro fd hfd
    rw [hg.fileAt, Forwarding.fileAt, if_pos hfd, Forwarding.fileAt, if_pos hfd]
    show FdTable.file (FdTable.install _ kq.toNat OpenFile.kqueue) fd.toNat = _
    rw [FdTable.file_install _ hlt]
    by_cases heq : fd = kq
    · rw [if_pos heq, if_pos (by rw [heq])]
    · rw [if_neg heq, if_neg fun h => heq (by omega)]
  refine ⟨by rw [hsp]; exact hfd, ?_, fun hle => ?_, fun hsome => ?_⟩
  · rw [hkq, hat kq hpos, if_pos rfl]
  · rw [hsp] at hle ⊢
    have hend := h.pipeEnd hle
    rw [hat _ hle, if_neg fun heq => ?_]
    · exact hend
    · rw [heq, Forwarding.fileAt, if_pos hpos, hfree] at hend
      cases hend
  · rw [hat 0 (Int.le_refl 0)]
    split
    · decide
    · exact h.stdin hsome

end stepping

/-! ## The change list -/

/-- The change list names the pipe, and no entry of it takes the pipe off the kqueue. -/
structure Listed (f : WaitFixed) (v : WaitVars) : Prop where
  entries : Entries f v
  spared : f.signalFd = some 0 → v.changes.stdin.flags ≠ EV_DELETE

theorem watchRead_signal {fd : Int} (hpos : 0 ≤ fd) (hsmall : fd < 2 ^ 64) (watched : Bool) :
    watchRead fd.toNat watched (signalEntry fd) = true := by
  have hident : asUsize fd = fd.toNat := by rw [asUsize, Int.emod_eq_of_lt hpos hsmall]
  rw [watchRead, if_pos ⟨hident, rfl⟩]
  exact if_pos (show (EV_ADD &&& EV_ADD != 0) = true by decide)

theorem watchRead_stdin {ident : Nat} {flags : UInt16}
    (h : ident = 0 → flags = 0 ∨ flags = EV_ADD) :
    watchRead ident true (stdinEntry flags) = true := by
  by_cases hid : 0 = ident
  · rcases h hid.symm with rfl | rfl
    · rw [watchRead, if_pos ⟨hid, rfl⟩]
      rfl
    · rw [watchRead, if_pos ⟨hid, rfl⟩]
      rfl
  · exact if_neg fun hand => hid hand.1

namespace Listed
variable {f : WaitFixed} {v v' : WaitVars}

/-- After the changes of a round the pipe is registered. -/
theorem registers {fd : Int} (h : Listed f v) (hfd : f.signalFd = some fd) (hpos : 0 ≤ fd)
    (hsmall : fd < 2 ^ 64) (nowNs : Nat) (kq : Int) (r : Except Int Kevent) (l : Trace) :
    readRegistered .monitor fd.toNat
      (⟨⟨.monitor, .kevent kq (submitted f v nowNs)⟩, r⟩ :: l) = true := by
  obtain ⟨timerNs, heq⟩ := h.entries.submitted_eq nowNs
  rw [readRegistered_kevent, heq, hfd]
  -- the process and the timer have filters of their own
  have hother : ∀ watched, watchRead fd.toNat (watchRead fd.toNat watched (procEntry f.args.pid))
      (timerEntry timerNs) = watched := by
    intro watched
    have hproc : EVFILT_PROC ≠ EVFILT_READ := by decide
    have htimer : EVFILT_TIMER ≠ EVFILT_READ := by decide
    rw [watchRead, if_neg fun h => htimer h.2, watchRead, if_neg fun h => hproc h.2]
  rw [List.foldl_cons, List.foldl_cons, hother]
  cases hactive : stdinActive v with
  | false => exact watchRead_signal hpos hsmall _
  | true =>
    show watchRead fd.toNat (watchRead fd.toNat _ (signalEntry fd)) (stdinEntry _) = true
    rw [watchRead_signal hpos hsmall]
    refine watchRead_stdin fun hzero => h.entries.flags.imp_right fun hflags => ?_
    have hne := h.spared (by rw [hfd, show fd = 0 by omega])
    cases hon : v.stdinEnabled with
    | true => rwa [hon] at hflags
    | false =>
      rw [hon] at hflags
      exact absurd hflags hne

theorem of_eq (h : Listed f v) (hc : v'.changes = v.changes)
    (he : v'.stdinEnabled = v.stdinEnabled) : Listed f v' :=
  ⟨h.entries.of_eq hc he, by rw [hc]; exact h.spared⟩

theorem rearmed (h : Listed f v) : Listed f (rearmProc v) := ⟨h.entries.rearmProc, h.spared⟩

/-- Stdin may be given up when it is not the pipe. -/
theorem dropped (h : Listed f v) (hne : f.signalFd ≠ some 0) : Listed f (rearmProc (dropStdin v)) :=
  ⟨h.entries.dropStdin.rearmProc, fun hzero => absurd hzero hne⟩

theorem unflagged (h : Listed f v) : Listed f (rearmProc (setStdinFlags v 0)) :=
  ⟨(h.entries.setStdinFlags (.inl rfl)).rearmProc, fun _ => show (0 : UInt16) ≠ EV_DELETE by decide⟩

theorem afterKevent (h : Listed f v) (nowNs : Nat) : Listed f (afterKevent f v nowNs) := by
  refine ⟨h.entries.afterKevent nowNs, fun hzero => ?_⟩
  unfold Procguard.afterKevent clearDelete
  rw [if_neg (show (armed f v nowNs).stdin.flags ≠ EV_DELETE from h.spared hzero)]
  exact h.spared hzero

end Listed

theorem SetUp.listed {a : WaitArgs} {h : Handles} {f : WaitFixed} {v : WaitVars} {w₀ : Watch}
    {l : Trace} (hset : SetUp a h f v (watch w₀ l)) : Listed f v := by
  refine ⟨hset.held.entries, fun _ => ?_⟩
  rw [hset.changes]
  show (if v.stdinEnabled then EV_ADD else 0) ≠ EV_DELETE
  split <;> decide

/-! ## What lies in the pipe -/

section lies
variable {a : WaitArgs} {opened : List Bool} {start : Forwarding}
  {arrivals : Trace → List (Signal × Bool)} {e : Event} {l before : Trace}

/-- An event that neither reads the pipe nor takes it for stdin leaves what is in it. -/
theorem pipe_stays (hread : ∀ fd, e.req.call ≠ .readSignalPipe fd)
    (hstdin : ¬ StdinTakesSignal (forwardingAt start arrivals) e l) :
    (forwardingAt start arrivals l).pipe <+: (forwardingAt start arrivals (e :: l)).pipe := by
  refine List.IsPrefix.trans ?_ (forwardingAt_cons start arrivals e l).pipe
  obtain ⟨⟨caller, call⟩, ans⟩ := e
  cases call with
  | kqueue => cases ans <;> exact List.prefix_refl _
  | close fd =>
    dsimp only [Forwarding.after]
    split <;> exact List.prefix_refl _
  | readSignalPipe fd => exact absurd rfl (hread fd)
  | readStdin =>
    dsimp only [Forwarding.after]
    split
    · next hzero =>
      -- stdin is the pipe: nothing was read
      have hnone : ¬ 0 < ans := fun hpos => hstdin ⟨hpos, hzero⟩
      rw [Int.toNat_of_nonpos (Int.not_lt.mp hnone)]
      exact List.prefix_refl _
    · exact List.prefix_refl _
  | eprintln line =>
    dsimp only [Forwarding.after]
    split
    · exact List.prefix_append _ _
    · exact List.prefix_refl _
  | _ => exact List.prefix_refl _

theorem PipeUntouched.pipe_prefix {later : Trace}
    (hu : PipeUntouched (forwardingAt start arrivals) (later ++ before))
    (hguar : Always (Mindful a opened (forwardingAt start arrivals)) (later ++ before)) :
    (forwardingAt start arrivals before).pipe <+:
      (forwardingAt start arrivals (later ++ before)).pipe := by
  induction later with
  | nil => exact List.prefix_refl _
  | cons e later ih => exact (ih hu.2 hguar.2).trans (pipe_stays hu.1.2 hguar.1.undrained)

theorem isReport_spec (h : isReport e = true) :
    ∃ kq cs ev, e = ⟨⟨.monitor, .kevent kq cs⟩, .ok ev⟩ := by
  obtain ⟨⟨caller, call⟩, ans⟩ := e
  cases caller <;> cases call <;> first | cases h | skip
  cases ans with
  | error err => cases h
  | ok ev => exact ⟨_, _, _, rfl⟩

/-- Every later event of the kqueue passes over a pipe that is not empty, or one reports it
    while what was in it is still in front. -/
theorem passed_over_or_reported {later : Trace} (hpipe : 0 ≤ start.signalPipe)
    (hne : (forwardingAt start arrivals before).pipe ≠ [])
    (hguar : Always (Mindful a opened (forwardingAt start arrivals)) (later ++ before)) :
    later.countP isReport ≤ passedOver (forwardingAt start arrivals) (later ++ before) ∨
      ∃ e l, e :: l <:+ later ++ before ∧ PipeReady (forwardingAt start arrivals) e l ∧
        (forwardingAt start arrivals before).pipe <+: (forwardingAt start arrivals l).pipe := by
  induction later with
  | nil => exact .inl (Nat.zero_le _)
  | cons e later ih =>
    rcases ih hguar.2 with hle | ⟨e', l, hsuffix, hready⟩
    · cases he : isReport e with
      | false =>
        -- no event of the kqueue: nothing is counted
        have hnot : ¬ PassesOver (forwardingAt start arrivals) e (later ++ before) := by
          rintro ⟨hreport, -⟩
          rw [he] at hreport
          cases hreport
        rw [List.countP_cons_of_neg (by rw [he]; exact Bool.false_ne_true), List.cons_append,
          passedOver, if_neg hnot]
        exact .inl hle
      | true =>
        obtain ⟨kq, cs, ev, rfl⟩ := isReport_spec he
        obtain ⟨hu, hregistered⟩ : PipeUntouched (forwardingAt start arrivals) (later ++ before) ∧ _ :=
          hguar.1.waits kq cs rfl
        have hprefix := hu.pipe_prefix hguar.2
        by_cases hready : PipeReady (forwardingAt start arrivals)
            ⟨⟨.monitor, .kevent kq cs⟩, .ok ev⟩ (later ++ before)
        · exact .inr ⟨_, _, List.suffix_refl _, hready, hprefix⟩
        · -- the pipe is watched and still not empty
          have hkeeps := @forwardingAt_keeps start arrivals (later ++ before)
          have hover : PassesOver (forwardingAt start arrivals)
              ⟨⟨.monitor, .kevent kq cs⟩, .ok ev⟩ (later ++ before) := by
            refine ⟨rfl, hregistered (hkeeps.signalPipe ▸ hpipe), fun hnil => ?_, hready⟩
            rw [hnil] at hprefix
            exact hne (List.prefix_nil.mp hprefix)
          rw [List.countP_cons_of_pos he, List.cons_append, passedOver, if_pos hover]
          exact .inl (Nat.succ_le_succ hle)
    · exact .inr ⟨e', l, hsuffix.trans (List.suffix_cons e _), hready⟩

end lies

end Procguard
