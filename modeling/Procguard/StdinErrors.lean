import Procguard.Registration

/- Registration errors for stdin. `wait_with_kqueue` puts three tests to an event, one after
   the other: is it stdin (the filter, descriptor 0, and `stdin_enabled`), is it the timer,
   is it an error. An error for descriptor 0 passes the first test while stdin is monitored,
   and is then read from like activity: the handlers for `EBADF` and `ENOENT` are reached
   only by a loop that has given stdin up already.

   1. What a round owes such an error (`NotActivity`), and exactly when it gives it
      (`round_notActivity_iff`).
   2. A run whose errors all come that way (`MetAt`): no byte of stdin is read after one,
      and there are no more than two of them. -/
namespace Procguard
open Interact

/-! ## One round -/

/-- `EV_ERROR` is set on descriptor 0, for reading. -/
def StdinError (ev : Kevent) : Prop :=
  ev.has EV_ERROR = true ∧ ev.filter = EVFILT_READ ∧ ev.ident = 0

instance (ev : Kevent) : Decidable (StdinError ev) := inferInstanceAs (Decidable (_ ∧ _ ∧ _))

/-- What a round with locals `v` owes a registration error for stdin: it reads nothing and
    stamps no activity, stops the monitoring on `EBADF`, forgets the pending deletion on
    `ENOENT` and ends the wait on anything else. -/
structure NotActivity (v : WaitVars) (ev : Kevent)
    (r : Except TimeoutError (WaitVars ⊕ (WaitResult ⊕ Kevent))) (later : Trace) : Prop where
  unread : ∀ e ∈ later, e.req ≠ ⟨.monitor, .readStdin⟩
  unstamped : ∀ v', r = .ok (.inl v') → v'.stdinTimeout = v.stdinTimeout ∨ v'.stdinTimeout = none
  badStdin : ev.errCode = EBADF →
    ∃ v', r = .ok (.inl v') ∧ v'.stdinEnabled = false ∧ v'.stdinTimeout = none
  noFilter : ev.errCode = ENOENT → ∃ v', r = .ok (.inl v') ∧ v'.changes.stdin.flags = 0
  refused : ev.errCode ≠ EBADF → ev.errCode ≠ ENOENT → ∃ e, r = .error e

/-- When the round does so. While stdin is monitored only the branch for its end does. -/
def Handled (monitored : Bool) (ev : Kevent) : Prop :=
  if monitored then ev.has EV_EOF = true ∧ ev.errCode = EBADF else ev.errCode ≠ ESRCH

instance (monitored : Bool) (ev : Kevent) : Decidable (Handled monitored ev) :=
  inferInstanceAs (Decidable (if monitored = true then _ ∧ _ else _ ≠ _))

section round
variable {f : WaitFixed} {h : Handles} {l : Trace} {ev : Kevent}

/-- The rest of the round after stdin's error, the locals being `v'` by now. -/
theorem onEvent_notActivity_iff (v v' : WaitVars) {cs : List Kevent} (herr : StdinError ev)
    (hon : v'.stdinEnabled = v.stdinEnabled) (hstdin : v'.stdinTimeout = v.stdinTimeout) :
    (onEvent f v' ev >>= fun r => match r with
      | .go ev | .leave ev => pure (.inr (.inr ev))
      | .next v => pure (.inl v)
      | .ret r => pure (.inr (.inl r)) : SuperAct (WaitVars ⊕ (WaitResult ⊕ Kevent))).Ensures {} h
      (delivered f cs (.ok ev) l) fun r _ l' => ∀ later, l' = later ++ delivered f cs (.ok ev) l →
        (NotActivity v ev r later ↔ Handled v.stdinEnabled ev) := by
  obtain ⟨hflag, hread, hid⟩ := herr
  have hnext : ∀ later : Trace, delivered f cs (.ok ev) l = later ++ delivered f cs (.ok ev) l →
      later = [] := fun later heq => List.self_eq_append_left.mp heq
  cases hv : v.stdinEnabled with
  | true =>
    by_cases heof : ev.has EV_EOF = true
    · rw [onEvent, if_pos ⟨hread, hid, hon.trans hv⟩, onStdin, if_pos heof]
      intro later hlater
      rw [hnext later hlater]
      show _ ↔ ev.has EV_EOF = true ∧ ev.errCode = EBADF
      constructor
      · intro hna
        refine ⟨heof, ?_⟩
        by_contra hbad
        by_cases hno : ev.errCode = ENOENT
        · obtain ⟨v'', heq, hflags⟩ := hna.noFilter hno
          cases heq
          exact absurd (show EV_DELETE = 0 from hflags) (by decide)
        · obtain ⟨e, heq⟩ := hna.refused hbad hno
          cases heq
      · rintro ⟨-, hbad⟩
        refine ⟨List.forall_mem_nil _, ?_, fun _ => ⟨_, rfl, rfl, rfl⟩, fun hno => ?_,
          fun hne => ?_⟩
        · intro v'' heq
          cases heq
          exact .inr rfl
        · rw [hbad] at hno
          exact absurd hno (by decide)
        · exact absurd hbad hne
    · have heof' : ev.has EV_EOF = false := by simpa using heof
      refine (onStdin_heard {} v' ⟨hread, hid, hv⟩ heof' hon hstdin).mono fun r _ l' hr => ?_
      obtain ⟨n, ⟨t, ht⟩, -⟩ := hr
      intro later hlater
      -- the byte it reads is among the later requests
      have hmem : ⟨⟨.monitor, .readStdin⟩, n⟩ ∈ later := by
        have hsplit : later = t ++ [⟨⟨.monitor, .readStdin⟩, n⟩] :=
          List.append_cancel_right (hlater.symm.trans (by rw [← ht]; simp))
        rw [hsplit]
        simp
      exact ⟨fun hna => absurd rfl (hna.unread _ hmem), fun hmet => absurd hmet.1 heof⟩
  | false =>
    have hoff : ¬ (ev.filter = EVFILT_READ ∧ ev.ident = 0 ∧ v'.stdinEnabled = true) := by
      rintro ⟨-, -, hon'⟩
      rw [hon, hv] at hon'
      cases hon'
    rw [onEvent, if_neg hoff, if_neg (by rw [hread]; decide), if_pos hflag, onEventError]
    show Act.Ensures _ _ _ _ fun r _ l' => ∀ later, _ → (_ ↔ ev.errCode ≠ ESRCH)
    by_cases hbad : ev.errCode = EBADF
    · rw [if_pos ⟨hbad, hid⟩]
      intro later hlater
      rw [hnext later hlater]
      refine ⟨fun _ => by rw [hbad]; decide, fun _ => ⟨List.forall_mem_nil _, ?_,
        fun _ => ⟨_, rfl, rfl, rfl⟩, fun hno => ?_, fun hne => absurd hbad hne⟩⟩
      · intro v'' heq
        cases heq
        exact .inr rfl
      · rw [hbad] at hno
        exact absurd hno (by decide)
    rw [if_neg fun hbad' => hbad hbad'.1]
    by_cases hno : ev.errCode = ENOENT
    · rw [if_pos ⟨hno, hid⟩]
      intro later hlater
      rw [hnext later hlater]
      refine ⟨fun _ => by rw [hno]; decide, fun _ => ⟨List.forall_mem_nil _, ?_,
        fun hbad' => absurd hbad' hbad, fun _ => ⟨_, rfl, rfl⟩, fun _ hne => absurd hno hne⟩⟩
      intro v'' heq
      cases heq
      exact .inl hstdin
    rw [if_neg fun hno' => hno hno'.1]
    by_cases hgone : ev.errCode = ESRCH
    · rw [if_pos hgone]
      intro later hlater
      refine ⟨fun hna => ?_, fun hne => absurd hgone hne⟩
      obtain ⟨e, heq⟩ := hna.refused hbad hno
      cases heq
    · rw [if_neg hgone]
      simp only [closeKq, Act.ensures_bind, Act.ensures_call, Act.ensures_pure, Act.ensures_throw]
      refine fun u _ => ⟨trivial, fun later hlater => ⟨fun _ => hgone, fun _ => ?_⟩⟩
      have hclose : later = [⟨⟨.monitor, .close f.kq⟩, u⟩] :=
        (List.append_cancel_right (show [_] ++ _ = _ from hlater)).symm
      refine ⟨fun e he => ?_, fun v'' heq => ?_, fun hbad' => absurd hbad' hbad,
        fun hno' => absurd hno' hno, fun _ _ => ⟨_, rfl⟩⟩
      · rw [hclose] at he
        rw [List.mem_singleton.mp he]
        simp
      · cases heq

/-- **Exactly when an error is not taken for activity**: once stdin has been given up, and for
    any error but `ESRCH`; while it is monitored, only for an end of stdin with `EBADF`. -/
theorem round_notActivity_iff (fuel : Nat) (f : WaitFixed) (v : WaitVars) (h : Handles)
    (l : Trace) : (waitRound fuel f v).Ensures {} h l fun r _ l' => ∀ later kq cs ev before,
      l' = later ++ ⟨⟨.monitor, .kevent kq cs⟩, .ok ev⟩ :: before → l <:+ before → StdinError ev →
      (NotActivity v ev r later ↔ Handled v.stdinEnabled ev) := by
  refine (round_answered fuel f v h l (P := fun kq cs ev before r l' => StdinError ev →
    ∀ later, l' = later ++ ⟨⟨.monitor, .kevent kq cs⟩, .ok ev⟩ :: before →
    (NotActivity v ev r later ↔ Handled v.stdinEnabled ev)) fun t cs ev e _ => ?_).mono
    fun r _ l' hr later kq cs ev before heq hbefore herr =>
      hr later kq cs ev before heq hbefore herr later heq
  by_cases herr : StdinError ev
  · refine (onEvent_notActivity_iff v (afterKevent f v t) herr rfl rfl).mono fun r _ l' hr => ?_
    exact fun _ => hr
  · exact Prog.ensures_of_forall (fun _ _ => trivial) (fun _ => trivial)
      (fun _ _ herr' => absurd herr' herr) _ _

end round

/-! ## What a run shows -/

/-- The changes a kevent call submitted, and the event it reported. -/
def reported? : Event → Option (List Kevent × Kevent)
  | ⟨⟨.monitor, .kevent _ cs⟩, .ok ev⟩ => some (cs, ev)
  | _ => none

/-- The registration error for stdin an event reports. -/
def stdinError? (e : Event) : Option Kevent := ((reported? e).map Prod.snd).filter StdinError

def stdinErrors (l : Trace) : List Kevent := l.filterMap stdinError?

/-- Descriptor 0 is reported to be invalid. -/
def isBadFd (e : Event) : Bool :=
  (reported? e).any fun p => p.2.has EV_ERROR && p.2.errCode == EBADF && p.2.ident == 0

/-- The kernel reports an error only for a change it was given. -/
def Registers (e : Event) (_ : Trace) : Prop :=
  ∀ p ∈ reported? e, p.2.has EV_ERROR = true →
    ∃ c ∈ p.1, c.ident = p.2.ident ∧ c.filter = p.2.filter

/-- An error for stdin comes when the round handles it. -/
def MetAt (w₀ : Watch) (e : Event) (l : Trace) : Prop :=
  ∀ ev ∈ stdinError? e, Handled (watch w₀ l).draining ev

instance (e : Event) (l : Trace) : Decidable (Registers e l) :=
  inferInstanceAs (Decidable (∀ p ∈ reported? e, _ → _))

instance (w₀ : Watch) (e : Event) (l : Trace) : Decidable (MetAt w₀ e l) :=
  inferInstanceAs (Decidable (∀ ev ∈ stdinError? e, _))

section log
variable {e : Event} {l : Trace} {kq : Int} {cs : List Kevent} {ev : Kevent}

theorem reported?_of_req (h : e.req.noKevent) : reported? e = none := by
  obtain ⟨⟨caller, call⟩, a⟩ := e
  cases caller <;> cases call <;> first | exact h.elim | rfl

theorem stdinErrors_cons (e : Event) (l : Trace) :
    stdinErrors (e :: l) = (stdinError? e).toList ++ stdinErrors l := by
  cases herr : stdinError? e <;> simp [stdinErrors, herr]

theorem stdinError?_error (h : StdinError ev) :
    stdinError? ⟨⟨.monitor, .kevent kq cs⟩, .ok ev⟩ = some ev := by
  simp [stdinError?, reported?, h]

theorem stdinErrors_error (h : StdinError ev) :
    stdinErrors (⟨⟨.monitor, .kevent kq cs⟩, .ok ev⟩ :: l) = ev :: stdinErrors l := by
  rw [stdinErrors_cons, stdinError?_error h]
  rfl

theorem stdinErrors_other (h : ¬ StdinError ev) :
    stdinErrors (⟨⟨.monitor, .kevent kq cs⟩, .ok ev⟩ :: l) = stdinErrors l := by
  have hnone : stdinError? ⟨⟨.monitor, .kevent kq cs⟩, .ok ev⟩ = none := by
    simp [stdinError?, reported?, h]
  rw [stdinErrors_cons, hnone]
  rfl

theorem stdinErrors_quiet (h : e.req.noKevent) : stdinErrors (e :: l) = stdinErrors l := by
  rw [stdinErrors_cons, stdinError?, reported?_of_req h]
  rfl

theorem badFds_quiet (h : e.req.noKevent) : (e :: l).countP isBadFd = l.countP isBadFd := by
  rw [List.countP_cons, isBadFd, reported?_of_req h]
  rfl

end log

/-! ## The invariant -/

/-- At a loop head: as long as stdin is monitored no error for it was reported, and each one
    since, and the deletion still to be submitted, is accounted for by a bad descriptor,
    but for one. -/
structure Settled (f : WaitFixed) (v : WaitVars) (l : Trace) : Prop where
  entries : Entries f v
  fresh : v.stdinEnabled = true → stdinErrors l = []
  bound : (stdinErrors l).length + (stdinActive v).toNat ≤ 1 + l.countP isBadFd
  dropped : (∃ ev ∈ stdinErrors l, ev.errCode = EBADF) → v.stdinTimeout = none

/-- The kevent call has been answered with `e`. -/
structure Answered (f : WaitFixed) (v : WaitVars) (e : Event) (l : Trace) : Prop where
  entries : Entries f v
  fresh : v.stdinEnabled = true → stdinErrors l = []
  cleared : v.changes.stdin.flags ≠ EV_DELETE
  bound : (stdinErrors (e :: l)).length ≤ 1 + l.countP isBadFd
  dropped : (∃ ev ∈ stdinErrors l, ev.errCode = EBADF) → v.stdinTimeout = none

section invariant
variable {f : WaitFixed} {v v' : WaitVars} {e : Event} {l : Trace}

/-- Only stdin's entry can be refused for descriptor 0, and only while it is submitted. -/
theorem Entries.active_of_read (h : Entries f v)
    (hpipe : ∀ fd, f.signalFd = some fd → asUsize fd ≠ 0) {nowNs : Nat} {c : Kevent}
    (hc : c ∈ submitted f v nowNs) (hread : c.filter = EVFILT_READ) (hid : c.ident = 0) :
    stdinActive v = true := by
  by_contra hoff
  obtain ⟨timerNs, heq⟩ := h.submitted_eq nowNs
  have hoff' : stdinActive v = false := by simpa using hoff
  rw [heq, hoff'] at hc
  rcases List.mem_cons.mp hc with rfl | hc
  · exact absurd (show EVFILT_PROC = EVFILT_READ from hread) (by decide)
  rcases List.mem_cons.mp hc with rfl | hc
  · exact absurd (show EVFILT_TIMER = EVFILT_READ from hread) (by decide)
  cases hfd : f.signalFd with
  | none =>
    rw [hfd] at hc
    cases hc
  | some fd =>
    rw [hfd] at hc
    rw [List.mem_singleton.mp hc] at hid
    exact hpipe fd hfd hid

theorem Settled.of_eq (h : Settled f v l) (hc : v'.changes = v.changes)
    (he : v'.stdinEnabled = v.stdinEnabled) (hs : v.stdinTimeout = none → v'.stdinTimeout = none) :
    Settled f v' l := by
  refine ⟨h.entries.of_eq hc he, ?_, ?_, fun hbad => hs (h.dropped hbad)⟩
  · rw [he]
    exact h.fresh
  · rw [stdinActive, he, hc]
    exact h.bound

theorem Settled.rearmed (h : Settled f v l) : Settled f (rearmProc v) l :=
  ⟨h.entries.rearmProc, h.fresh, h.bound, h.dropped⟩

theorem Settled.quiet (h : Settled f v l) (he : e.req.noKevent) : Settled f v (e :: l) := by
  obtain ⟨hentries, hfresh, hbound, hdropped⟩ := h
  refine ⟨hentries, ?_, ?_, ?_⟩
  · rwa [stdinErrors_quiet he]
  · rwa [stdinErrors_quiet he, badFds_quiet he]
  · rwa [stdinErrors_quiet he]

/-- The call itself: a deletion that was submitted is not submitted again. -/
theorem Settled.answered (h : Settled f v l) (hpipe : ∀ fd, f.signalFd = some fd → asUsize fd ≠ 0)
    (nowNs : Nat) {r : Except Int Kevent}
    (hreg : Registers ⟨⟨.monitor, .kevent f.kq (submitted f v nowNs)⟩, r⟩ l) :
    Answered f (afterKevent f v nowNs) ⟨⟨.monitor, .kevent f.kq (submitted f v nowNs)⟩, r⟩ l := by
  refine ⟨h.entries.afterKevent nowNs, h.fresh, ?_, ?_, h.dropped⟩
  · unfold afterKevent clearDelete
    split
    · exact fun hzero => absurd (show 0 = EV_DELETE from hzero) (by decide)
    · next hne => exact hne
  · have hbound := h.bound
    cases r with
    | error err => exact Nat.le_trans (Nat.le_add_right _ _) hbound
    | ok ev =>
      by_cases herr : StdinError ev
      · -- the error is paid for by the entry that was submitted
        obtain ⟨c, hc, hid, hfilter⟩ := hreg _ rfl herr.1
        have hactive := h.entries.active_of_read hpipe hc (hfilter.trans herr.2.1)
          (hid.trans herr.2.2)
        rw [hactive] at hbound
        rw [stdinErrors_error herr]
        exact hbound
      · rw [stdinErrors_other herr]
        exact Nat.le_trans (Nat.le_add_right _ _) hbound

/-- A loop that monitors stdin has the one place the bound leaves. -/
theorem bound_of_fresh (hfresh : v.stdinEnabled = true → stdinErrors (e :: l) = [])
    (hcleared : v.changes.stdin.flags ≠ EV_DELETE)
    (hbound : (stdinErrors (e :: l)).length ≤ 1 + l.countP isBadFd) :
    (stdinErrors (e :: l)).length + (stdinActive v).toNat ≤ 1 + (e :: l).countP isBadFd := by
  have hcount : l.countP isBadFd ≤ (e :: l).countP isBadFd := (List.sublist_cons_self e l).countP_le
  cases hon : v.stdinEnabled with
  | true =>
    rw [hfresh hon, List.length_nil]
    have := Bool.toNat_le (stdinActive v)
    omega
  | false =>
    have hoff : stdinActive v = false := by
      rw [stdinActive, hon, beq_eq_false_iff_ne.mpr hcleared]
      rfl
    have hzero : false.toNat = 0 := rfl
    rw [hoff, hzero]
    omega

/-- The event was no error for stdin. -/
theorem Answered.settled (h : Answered f v e l) (hno : stdinErrors (e :: l) = stdinErrors l) :
    Settled f v (e :: l) := by
  refine ⟨h.entries, ?_, ?_, ?_⟩
  · rw [hno]
    exact h.fresh
  · apply bound_of_fresh _ h.cleared h.bound
    rw [hno]
    exact h.fresh
  · rw [hno]
    exact h.dropped

/-- Stdin has ended: there is room for its deletion. -/
theorem Settled.ended (h : Settled f v l) (hon : v.stdinEnabled = true) :
    Settled f (rearmProc (dropStdin v)) l := by
  refine ⟨h.entries.dropStdin.rearmProc, (fun hon' => by cases hon'), ?_, fun _ => rfl⟩
  rw [h.fresh hon, List.length_nil]
  have := Bool.toNat_le (stdinActive (rearmProc (dropStdin v)))
  omega

/-- The bad descriptor pays for the deletion. -/
theorem Answered.givenUp (h : Answered f v e l) (hbad : isBadFd e = true) :
    Settled f (rearmProc (dropStdin v)) (e :: l) := by
  refine ⟨h.entries.dropStdin.rearmProc, (fun hon => by cases hon), ?_, fun _ => rfl⟩
  have hbound := h.bound
  have := Bool.toNat_le (stdinActive (rearmProc (dropStdin v)))
  rw [List.countP_cons_of_pos hbad]
  omega

/-- The filter is missing: its deletion is not submitted any more. -/
theorem Answered.forgotten (h : Answered f v e l)
    (hfresh : v.stdinEnabled = true → stdinErrors (e :: l) = [])
    (hdropped : (∃ ev ∈ stdinErrors (e :: l), ev.errCode = EBADF) → v.stdinTimeout = none) :
    Settled f (rearmProc (setStdinFlags v 0)) (e :: l) := by
  refine ⟨(h.entries.setStdinFlags (.inl rfl)).rearmProc, hfresh, ?_, hdropped⟩
  exact bound_of_fresh hfresh (show (0 : UInt16) ≠ EV_DELETE by decide) h.bound

end invariant

/-! ## The loop -/

/-- The kernel registers what it is told, every error comes when it is handled, and no byte
    of stdin is read after one. -/
def errorContract (w₀ : Watch) : Contract Ans where
  rely e l := Registers e l ∧ MetAt w₀ e l
  guar e l := e.req = ⟨.monitor, .readStdin⟩ → stdinErrors l = []

section loop
variable {w₀ : Watch} {f : WaitFixed} {v : WaitVars} {l : Trace}

theorem Settled.asks (h : Settled f v l) {q : Req} (hq : q.noKevent)
    (hread : q ≠ ⟨.monitor, .readStdin⟩) :
    Asks (errorContract w₀) q l fun _ l' => Settled f v l' :=
  fun _ _ => ⟨fun heq => absurd heq hread, h.quiet hq⟩

theorem Settled.asksClock (h : Settled f v l) (confine : Confine) {P : Option Nat → Trace → Prop}
    (hP : ∀ r l', Settled f v l' → P r l') :
    AsksClock (errorContract w₀) .monitor confine l P := by
  cases confine with
  | wall => exact (h.asks (q := ⟨.monitor, .wallNow⟩) trivial (by simp)).mono fun r h' => hP _ _ h'
  | active =>
    exact (h.asks (q := ⟨.monitor, .activeNow⟩) trivial (by simp)).mono fun r h' => hP _ _ h'

/-- Once the wait is over nothing is owed but not to read stdin. -/
theorem asks_over {q : Req} (hread : q ≠ ⟨.monitor, .readStdin⟩) {P : Ans q → Trace → Prop}
    (hP : ∀ a l', P a l') : Asks (errorContract w₀) q l P :=
  fun a _ => ⟨fun heq => absurd heq hread, hP a _⟩

theorem over_ensures {α : Type} {m : SuperAct α}
    (hm : Act.Asking (fun q => q ≠ ⟨.monitor, .readStdin⟩) m) (h : Handles) :
    m.Ensures (errorContract w₀) h l fun _ _ _ => True :=
  hm.ensures (fun _ => True) (fun _ _ hq _ => asks_over hq fun _ _ => trivial) (fun _ _ => trivial)
    trivial

/-- An event that is stdin's, with more to come, is no error: one would not be met. -/
theorem no_error_of_event {cs : List Kevent} {ev : Kevent} (hw : Tracked f v (watch w₀ l))
    (hmet : MetAt w₀ ⟨⟨.monitor, .kevent f.kq cs⟩, .ok ev⟩ l) (hev : StdinEvent v ev)
    (heof : ev.has EV_EOF = false) : ¬ StdinError ev := by
  intro herr
  have hhandled := hmet ev (stdinError?_error herr)
  rw [← hw.draining, hev.2.2] at hhandled
  have hend : ev.has EV_EOF = true := hhandled.1
  rw [heof] at hend
  cases hend

/-- What is known once the kevent call has been answered. -/
def Seen (w₀ : Watch) (f : WaitFixed) (v : WaitVars) : Trace → Prop
  | [] => False
  | e :: l => Answered f v e l ∧ MetAt w₀ e l

theorem error_rule (w₀ : Watch) (fuel : Nat) (f : WaitFixed)
    (hpipe : ∀ fd, f.signalFd = some fd → asUsize fd ≠ 0) :
    WaitRule (errorContract w₀) w₀ fuel f (fun _ v _ l => Settled f v l)
      (fun _ v _ l => Settled f v l) (fun _ v _ l => Seen w₀ f v l) (fun _ v _ l => Settled f v l)
      fun _ _ _ => True where
  cut _ _ _ _ := trivial
  clock _ _ _ _ hs _ := hs.asksClock _ fun r l' hs' => by
    cases r with
    | none => exact trivial
    | some _ => exact hs'
  deadline _ _ _ _ _ _ _ := asks_over (by simp) fun _ _ => trivial
  idle _ _ _ _ _ _ _ _ _ := asks_over (by simp) fun _ _ => trivial
  kevent _ v _ l hs _ _ := fun r hr =>
    ⟨(fun heq => by cases heq), hs.answered hpipe (watch w₀ l).clock hr.1, hr.2⟩
  -- an interrupted call has no event, so nothing new is settled
  interrupted _ _ _ _ _ hs _ := hs.1.settled rfl
  noProcess _ _ h _ _ _ _ := asks_over (by simp) fun _ _ =>
    over_ensures (asking_reapGone (fun _ => by simp) (fun _ => by simp) fuel) h
  broken _ _ _ _ _ _ _ _ _ _ := asks_over (by simp) fun _ _ => trivial
  eof _ _ _ _ _ ev hs hw hev _ := by
    by_cases herr : StdinError ev
    · -- stdin is monitored, so the error that is met is a bad descriptor
      have hhandled := hs.2 ev (stdinError?_error herr)
      rw [← hw.draining, hev.2.2] at hhandled
      refine hs.1.givenUp ?_
      simp [isBadFd, reported?, herr.1, herr.2.2, show ev.errCode = EBADF from hhandled.2]
    · exact (hs.1.settled (stdinErrors_other herr)).ended hev.2.2
  read _ v _ _ _ ev hs hw hev heof := by
    -- an event that has data to read is none of the errors
    have hs' := hs.1.settled (stdinErrors_other (no_error_of_event hw hs.2 hev heof))
    intro bytes _
    refine ⟨fun _ => hs'.fresh hev.2.2, ?_⟩
    have hread := hs'.quiet (e := ⟨⟨.monitor, .readStdin⟩, bytes⟩) trivial
    dsimp only
    split
    · exact hread.ended hev.2.2
    · split
      · refine hread.asksClock _ fun r l' hs'' => ?_
        cases r with
        | none => exact trivial
        | some t =>
          have hstamped : Settled f { v with
              stdinTimeout := v.stdinTimeout.map fun s => { s with lastActivityNs := t } } l' :=
            hs''.of_eq rfl rfl fun hnone => by simp [hnone]
          exact hstamped.rearmed
      · exact hread.rearmed
  timer _ _ _ _ _ ev hs _ ht := by
    -- a timer is not on the read filter
    have hno : ¬ StdinError ev := by
      rintro ⟨-, hread, -⟩
      rw [ht] at hread
      exact absurd hread (by decide)
    refine (hs.1.settled (stdinErrors_other hno)).asksClock _ fun r l' hs' => ?_
    cases r with
    | none => exact trivial
    | some _ => exact hs'
  throttle _ _ _ l ctx hs _ _ _ := by
    have hkept : (CpuThrottleState.update ctx.cfg (watch w₀ l).clock).Ensures (errorContract w₀)
        ctx.state l fun _ _ l' => Settled f _ l' :=
      (CpuThrottleState.asking_update (P := fun q => q.noKevent ∧ q ≠ ⟨.monitor, .readStdin⟩)
        (fun _ _ => ⟨trivial, by simp⟩) (fun _ => ⟨trivial, by simp⟩) _ _).ensures _
        (fun _ _ hq hs => hs.asks hq.1 hq.2) (fun _ _ => trivial) hs
    refine (hkept.with (CpuThrottleState.update_ok ctx.cfg _ ctx.state l)).mono fun r _ _ hr => ?_
    obtain ⟨hs', b, rfl⟩ := hr
    exact hs'.of_eq rfl rfl id
  memory _ _ _ _ m hs _ _ _ := by
    refine (hs.asks (q := ⟨.memoryCheck, .procPidRusage f.args.pid⟩) trivial (by simp)).mono
      fun r hs' => ?_
    split
    · split
      · exact asks_over (by simp) fun _ _ => trivial
      · exact hs'.of_eq rfl rfl id
    · exact hs'.of_eq rfl rfl id
  poll _ v _ _ cfg hs _ hcfg _ := by
    refine (hs.asks (q := ⟨.monitor, .pollStdin⟩) trivial (by simp)).mono fun r hs' => ?_
    have hsome : v.stdinTimeout ≠ none := by simp [hcfg]
    cases stdinPollStatus r with
    | readable => exact hs'.of_eq rfl rfl fun hnone => absurd hnone hsome
    | eof => exact hs'.of_eq rfl rfl fun _ => rfl
    | idle => exact hs'
  line _ _ _ _ _ hs _ _ _ _ := hs.asks trivial (by simp)
  beat _ v _ l hs _ _ := by
    have hs' : Settled f { v with
        nextHeartbeatNs := advanceNs (watch w₀ l).clock f.heartbeatIntervalNs } l :=
      hs.of_eq rfl rfl id
    exact hs'.rearmed
  tick _ _ _ _ hs _ _ := hs.rearmed
  -- a bad descriptor turns stdin off; a filter that is not there is just not deleted again
  badStdin _ _ _ _ _ ev hs _ _ _ he hbad hid := by
    refine hs.1.givenUp ?_
    simp [isBadFd, reported?, he, hid, hbad]
  noFilter _ v _ l cs ev hs _ hstdin _ he hno hid := by
    -- with stdin on this was handled as an event of stdin, before any look at errors
    have hfresh : v.stdinEnabled = true → ¬ StdinError ev :=
      fun hon herr => hstdin ⟨herr.2.1, herr.2.2, hon⟩
    refine hs.1.forgotten (fun hon => ?_) fun hbad => hs.1.dropped ?_
    · rw [stdinErrors_other (hfresh hon)]
      exact hs.1.fresh hon
    · by_cases herr : StdinError ev
      · rw [stdinErrors_error herr] at hbad
        obtain ⟨ev', hmem, hbad⟩ := hbad
        rcases List.mem_cons.mp hmem with rfl | hmem
        · rw [hno] at hbad
          exact absurd hbad (by decide)
        · exact ⟨ev', hmem, hbad⟩
      · rwa [stdinErrors_other herr] at hbad
  -- the ways out of the loop, on which stdin is not read any more
  refused _ _ _ _ _ _ _ _ _ _ _ _ _ _ := asks_over (by simp) fun _ _ => trivial
  gone _ _ h _ _ _ _ _ _ _ _ _ := asks_over (by simp) fun _ _ =>
    over_ensures (asking_reapGone (fun _ => by simp) (fun _ => by simp) fuel) h
  exited _ _ h _ _ _ _ _ _ _ := asks_over (by simp) fun _ _ =>
    (over_ensures (asking_childWaitOrFail (fun _ => by simp) fuel) h).mono fun r _ _ _ => by
      cases r <;> exact trivial
  signal _ _ _ _ _ _ _ _ _ _ _ := asks_over (by simp) fun _ _ => by
    cases f.signalFd with
    | none => exact trivial
    | some fd => exact asks_over (by simp) fun _ _ => trivial
  other _ _ _ _ _ _ _ _ _ _ _ _ := asks_over (by simp) fun _ _ => trivial

end loop

/-! ## Every run -/

/-- The loop starts with no error reported and no deletion to submit. -/
theorem SetUp.settled {a : WaitArgs} {h : Handles} {f : WaitFixed} {v : WaitVars} {w₀ : Watch}
    {l : Trace} (hset : SetUp a h f v (watch w₀ l)) (hnone : stdinErrors l = []) :
    Settled f v l := by
  refine ⟨hset.held.entries, fun _ => hnone, ?_, ?_⟩
  · rw [hnone, List.length_nil]
    have := Bool.toNat_le (stdinActive v)
    omega
  · rw [hnone]
    rintro ⟨ev, hmem, -⟩
    cases hmem

theorem reached_settled (env : World) (fuel : Nat) (a : WaitArgs) (h₀ : Handles) {f : WaitFixed}
    {v₀ v : WaitVars} {h₁ h : Handles} {l₁ l : Trace}
    (hsetup : (waitSetup a h₀).run env [] = (some (.ok (f, v₀), h₁), l₁))
    (hreach : Act.Reaches env (waitRound fuel f) v₀ h₁ l₁ v h l)
    (hpipe : ∀ fd, f.signalFd = some fd → asUsize fd ≠ 0)
    (hrely : Always (errorContract (.ofArgs a 0)).rely l) :
    (Settled f v l ∧ Tracked f v (watch (.ofArgs a 0) l)) ∧
      Always (errorContract (.ofArgs a 0)).guar l := by
  have hcalls : Act.Asking (fun q => q.noKevent ∧ q ≠ ⟨.monitor, .readStdin⟩) (waitSetup a) :=
    asking_waitSetup a (by cases a.confine <;> exact ⟨trivial, by simp [clockCall]⟩)
      ⟨trivial, by simp⟩ ⟨trivial, by simp⟩ ⟨trivial, by simp⟩ ⟨trivial, by simp⟩
  -- the set-up makes no kevent call
  have hnone : (waitSetup a).Ensures (errorContract (.ofArgs a 0)) h₀ [] fun _ _ l =>
      stdinErrors l = [] :=
    hcalls.ensures _ (fun q l hq hl _ _ => ⟨fun heq => absurd heq hq.2,
      (stdinErrors_quiet hq.1).trans hl⟩) (fun _ _ => trivial) rfl
  have hset := hnone.with (waitSetup_tracked (silent_setup a.confine) trivial
    (Watch.ofArgs_ready a 0))
  have hsound := Prog.Ensures.sound env hset trivial
    (by rw [hsetup]; exact hrely.suffix hreach.extends)
  rw [hsetup] at hsound
  obtain ⟨hguar, hpost, -⟩ := hsound
  obtain ⟨hnone₁, -, -, hset₁⟩ := hpost _ rfl
  refine hreach.invariant (K := errorContract (.ofArgs a 0))
    (fun v h l => Settled f v l ∧ Tracked f v (watch (.ofArgs a 0) l)) ?_
    ⟨hset₁.settled hnone₁, hset₁.tracked⟩ hguar hrely
  intro v h l hJ
  have hrule := error_rule (.ofArgs a 0) fuel f hpipe
  refine (hrule.round (n := 0) hJ.1 hJ.2).mono fun r h' l' hr => ?_
  rcases r with e | v' | r
  · exact trivial
  · exact hr
  · exact trivial

theorem Watch.step_clock_draining (w : Watch) {e : Event} {confine : Confine}
    (h : e.req = ⟨.monitor, clockCall confine⟩) : (w.step e).draining = w.draining := by
  obtain ⟨q, ans⟩ := e
  cases confine with
  | wall =>
    cases h
    cases ans <;> rfl
  | active =>
    cases h
    rfl

/-- Between the loop head and the kevent call there is the one clock reading. -/
theorem round_draining (fuel : Nat) (w₀ : Watch) (f : WaitFixed) (v : WaitVars) (h : Handles)
    (l : Trace) : (waitRound fuel f v).Ensures {} h l fun _ _ l' => ∀ later kq cs ev before,
      l' = later ++ ⟨⟨.monitor, .kevent kq cs⟩, .ok ev⟩ :: before → l <:+ before →
      (watch w₀ before).draining = (watch w₀ l).draining := by
  refine round_answered fuel f v h l (P := fun _ _ _ before _ _ =>
    (watch w₀ before).draining = (watch w₀ l).draining) fun t cs ev e hreq => ?_
  exact Prog.ensures_of_forall (fun _ _ => trivial) (fun _ => trivial)
    (fun _ _ => (watch w₀ l).step_clock_draining hreq) _ _

/-- **Errors for stdin in a run**: as long as each of them comes when it is handled, and a bad
    descriptor 0 is reported no more than once, none is taken for activity, stdin is not read
    after one, a bad descriptor ends the monitoring for good, and there are at most two. -/
theorem stdin_error_not_activity (env : World) (fuel : Nat) (a : WaitArgs) (h₀ : Handles)
    {f : WaitFixed} {v₀ v : WaitVars} {h₁ h : Handles} {l₁ l : Trace}
    (hsetup : (waitSetup a h₀).run env [] = (some (.ok (f, v₀), h₁), l₁))
    (hreach : Act.Reaches env (waitRound fuel f) v₀ h₁ l₁ v h l)
    (hpipe : ∀ fd, f.signalFd = some fd → asUsize fd ≠ 0)
    (hkernel : Always Registers ((waitRound fuel f v h).run env l).2)
    (hmet : Always (MetAt (.ofArgs a 0)) ((waitRound fuel f v h).run env l).2)
    (hbad : l.countP isBadFd ≤ 1) :
    (∀ r h', ((waitRound fuel f v h).run env l).1 = some (r, h') → ∀ later kq cs ev before,
      ((waitRound fuel f v h).run env l).2 =
        later ++ ⟨⟨.monitor, .kevent kq cs⟩, .ok ev⟩ :: before →
      l <:+ before → StdinError ev → NotActivity v ev r later) ∧
    ((∃ ev ∈ stdinErrors l, ev.errCode = EBADF) →
      v.stdinEnabled = false ∧ v.stdinTimeout = none) ∧
    Always (fun e l => e.req = ⟨.monitor, .readStdin⟩ → stdinErrors l = [])
      ((waitRound fuel f v h).run env l).2 ∧
    (stdinErrors l).length ≤ 2 := by
  have htrue : ∀ l : Trace, Always (fun _ _ => True) l := Always.of_forall fun _ _ => trivial
  have hrely : Always (errorContract (.ofArgs a 0)).rely ((waitRound fuel f v h).run env l).2 :=
    hkernel.and hmet
  obtain ⟨⟨hsettled, htracked⟩, hguar⟩ := reached_settled env fuel a h₀ hsetup hreach hpipe
    (hrely.suffix (Prog.run_extends env (waitRound fuel f v h) l))
  refine ⟨fun r h' hres later kq cs ev before heq hbefore herr => ?_, fun hbadf => ?_, ?_, ?_⟩
  · have hiff := (round_notActivity_iff fuel f v h l).returns env (htrue _) hres later kq cs ev
      before heq hbefore herr
    have hdraining := (round_draining fuel (.ofArgs a 0) f v h l).returns env (htrue _) hres later
      kq cs ev before heq hbefore
    have hhandled := hmet.at_event heq ev (stdinError?_error herr)
    rw [hdraining, ← htracked.draining] at hhandled
    exact hiff.mpr hhandled
  · refine ⟨?_, hsettled.dropped hbadf⟩
    by_contra hon
    obtain ⟨ev, hmem, -⟩ := hbadf
    rw [hsettled.fresh (by simpa using hon)] at hmem
    cases hmem
  · exact (Prog.Ensures.sound env ((error_rule (.ofArgs a 0) fuel f hpipe).round (n := 0) hsettled
      htracked) hguar hrely).1
  · have hbound := hsettled.bound
    omega

/-- stdin ends at once, and the filter that is then to be deleted is not there. -/
def closingWorld : World := Machine.world {
  kevent := fun l => .ok (if l.any fun e => (submits e).isSome then
      { ident := 0, filter := EVFILT_READ, flags := EV_ERROR, data := ENOENT }
    else { ident := 0, filter := EVFILT_READ, flags := EV_EOF }) }

theorem stdin_error_not_activity_enoent : ∃ f v₀ v v' h l₁ l kq cs before,
    (waitSetup idleArgs { child := { pid := 7 } }).run closingWorld [] =
      (some (.ok (f, v₀), h), l₁) ∧
    (waitRound 1 f v₀ h).run closingWorld l₁ = (some (.ok (.inl v), h), l) ∧
    (waitRound 1 f v h).run closingWorld l = (some (.ok (.inl v'), h), ⟨⟨.monitor, .kevent kq cs⟩,
      .ok { ident := 0, filter := EVFILT_READ, flags := EV_ERROR, data := ENOENT }⟩ :: before) ∧
    NotActivity v { ident := 0, filter := EVFILT_READ, flags := EV_ERROR, data := ENOENT }
      (.ok (.inl v')) [] := by
  refine ⟨_, _, _, _, _, _, _, _, _, _, rfl, rfl, rfl, ?_⟩
  have h := stdin_error_not_activity closingWorld 1 idleArgs { child := { pid := 7 } } rfl
    (.round .start rfl) ?_ (by decide +kernel) (by decide +kernel) (by decide +kernel)
  · exact h.1 _ _ rfl [] _ _ _ _ rfl ⟨[_], rfl⟩ ⟨rfl, rfl, rfl⟩
  · intro fd hfd
    cases (show some (3 : Int) = some fd from hfd)
    decide

/-! ## While stdin is monitored -/

/-- The kernel cannot watch stdin (error 22), which is a terminal: five bytes are typed. -/
def unwatchableWorld : World := fun l q => match q with
  | ⟨_, .readStdin⟩ => (5 : Int)
  | q => Machine.world {
      wallClock := fun l => some (if l.any fun e => (submits e).isSome then 900000000 else 0)
      kevent := fun _ =>
        .ok { ident := 0, filter := EVFILT_READ, flags := EV_ERROR, data := 22 } } l q

/-- The error is read from and starts the idle timer again; stdin stays monitored. -/
theorem stdin_error_read : ∃ f v v' h l kq cs before,
    (waitSetup idleArgs { child := { pid := 7 } }).run unwatchableWorld [] =
      (some (.ok (f, v), h), l) ∧
    (waitRound 1 f v h).run unwatchableWorld l = (some (.ok (.inl v'), h),
      [⟨⟨.monitor, .wallNow⟩, some 900000000⟩, ⟨⟨.monitor, .readStdin⟩, (5 : Int)⟩] ++
      ⟨⟨.monitor, .kevent kq cs⟩,
        .ok { ident := 0, filter := EVFILT_READ, flags := EV_ERROR, data := 22 }⟩ :: before) ∧
    v'.stdinEnabled = true ∧ v.stdinTimeout = idleArgs.stdinTimeout ∧ v'.stdinTimeout =
      some { timeoutNs := 1000000000, lastActivityNs := 900000000, mode := .consume } ∧
    ¬ NotActivity v { ident := 0, filter := EVFILT_READ, flags := EV_ERROR, data := 22 }
      (.ok (.inl v')) [⟨⟨.monitor, .wallNow⟩, some 900000000⟩,
        ⟨⟨.monitor, .readStdin⟩, (5 : Int)⟩] := by
  refine ⟨_, _, _, _, _, _, _, _, rfl, rfl, rfl, rfl, rfl, fun hna => ?_⟩
  exact hna.unread _ (List.mem_cons_of_mem _ (List.mem_singleton_self _)) rfl

end Procguard
