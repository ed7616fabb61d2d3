import Procguard.Completion
import Procguard.Timing

/- The grace period, the time between the first signal and SIGKILL. The monitor has two
   of them, after a timeout and after the memory limit; the part of the log between the
   first and the second signal (`InGrace`) tells what happened in either. `graceRule`
   follows the wait, `SecondSignal` is what a second signal stands for and `GraceTold`
   what the result says. -/
namespace Procguard
open Interact

/-! ## The events of a grace period -/

/-- An event of the grace period: one signal has been sent. -/
def InGrace (foreground : Bool) (P : Event → Trace → Prop) (e : Event) (l : Trace) : Prop :=
  (sends foreground l).length = 1 ∧ P e l

instance (foreground : Bool) (P : Event → Trace → Prop) (e : Event) (l : Trace)
    [Decidable (P e l)] : Decidable (InGrace foreground P e l) :=
  inferInstanceAs (Decidable (_ ∧ _))

/-- The handler's byte for some signal was read. -/
def AnyByte (e : Event) (l : Trace) : Prop := ∃ sig, SignalByte sig e l

instance (e : Event) (l : Trace) : Decidable (AnyByte e l) :=
  inferInstanceAs (Decidable (∃ _, _))

instance (sig : Signal) (e : Event) (l : Trace) : Decidable (SignalByte sig e l) := by
  obtain ⟨⟨caller, call⟩, a⟩ := e
  rcases caller with _ | _ <;> rcases call with _ | _ <;> first
    | exact isFalse id
    | rcases a with _ | b <;> first
      | exact isFalse id
      | exact inferInstanceAs (Decidable (_ = _))

/-- A memory check of the process was over the configured limit. -/
def OverLimit (config : RunConfig) (pid : Int) (l : Trace) : Prop :=
  ∃ limitBytes, config.limits.memBytes = some limitBytes ∧ Ever (MemoryOver pid limitBytes) l

/-- What a second signal stands for. -/
inductive SecondSignal (config : RunConfig) (pid : Int) (w₀ : Watch) (killAfter : Duration)
    (sig : Int) (l : Trace) : Prop
  /-- It came in during the grace period and is forwarded. -/
  | forwarded (s : Signal) (hsig : sig = s.asRaw)
      (h : Ever (InGrace config.foreground (SignalByte s)) l)
  /-- SIGKILL: nothing came in, and the grace period is over, or was given up at a wake-up
      nobody asked for. -/
  | over (hsig : sig = Signal.sigkill.asRaw) (hquiet : ¬ Ever (InGrace config.foreground AnyByte) l)
      (hover : (watch w₀ l).deadline killAfter ≤ (watch w₀ l).clock ∨
        Ever (InGrace config.foreground (Unexpected w₀)) l)
      (hexit : Ever (InGrace config.foreground (ExitNotice w₀)) l →
        Ever (InGrace config.foreground (Unexpected w₀)) l)
  /-- Something came in after the memory limit was exceeded. -/
  | ignored (hmem : OverLimit config pid l) (h : Ever (InGrace config.foreground AnyByte) l)

/-- Each signal that follows a first one: the first was the configured one, and the
    second has its reason. -/
def GraceGuar (config : RunConfig) (pid : Int) (w₀ : Watch) (killAfter : Duration) (e : Event)
    (l : Trace) : Prop :=
  ∀ sig first, monitorSend config.foreground e = some sig → sends config.foreground l = [first] →
    first = config.signal.asRaw ∧ SecondSignal config pid w₀ killAfter sig l

def graceContract (config : RunConfig) (pid : Int) (w₀ : Watch) (killAfter : Duration) :
    Contract Ans where
  guar := GraceGuar config pid w₀ killAfter

/-- Whether the result says that the child was killed, when it was told to terminate. -/
def RunResult.killed : RunResult → Option Bool
  | .timedOut _ killed _ _ _ _ | .memoryLimitExceeded _ killed _ _ _ _ => some killed
  | .completed _ _ | .signalForwarded _ _ _ => none

/-- What the result says of the grace period. -/
structure GraceTold (config : RunConfig) (pid : Int) (w₀ : Watch) (r : RunResult) (l : Trace) :
    Prop where
  /-- A child that exits in the grace period is reported as not killed. -/
  exited : Ever (InGrace config.foreground (ExitNotice w₀)) l →
    ¬ Ever (InGrace config.foreground (Unexpected w₀)) l → r.killed = some false
  /-- A signal that comes in after a timeout is forwarded and reported. -/
  received : ∀ s, Ever (InGrace config.foreground (SignalByte s)) l → ¬ OverLimit config pid l →
    (∃ status rusage, r = .signalForwarded s status rusage) ∧
      sends config.foreground l = [s.asRaw, config.signal.asRaw]

section events
variable {foreground : Bool} {P P' : Event → Trace → Prop} {l l' : Trace}

/-- Signals are never taken back. -/
theorem sends_suffix (h : l <:+ l') : sends foreground l <:+ sends foreground l' := by
  obtain ⟨t, rfl⟩ := h
  exact ⟨sends foreground t, (List.filterMap_append ..).symm⟩

/-- Before the first signal there is no grace period. -/
theorem not_inGrace_of_sends_nil (h : sends foreground l = []) : ¬ Ever (InGrace foreground P) l := by
  induction l with
  | nil => exact Ever.nil
  | cons e l ih =>
    have hl : sends foreground l = [] := List.suffix_nil.mp (h ▸ sends_suffix (List.suffix_cons e l))
    intro hever
    rcases hever with ⟨hlen, -⟩ | hever
    · rw [hl] at hlen
      cases hlen
    · exact ih hl hever

theorem anyByte_iff : Ever (InGrace foreground AnyByte) l ↔
    ∃ s, Ever (InGrace foreground (SignalByte s)) l := by
  rw [← Ever.exists_iff]
  refine ⟨Ever.mono fun _ _ h => ?_, Ever.mono fun _ _ h => ?_⟩
  · obtain ⟨hlen, s, h⟩ := h
    exact ⟨s, hlen, h⟩
  · obtain ⟨s, hlen, h⟩ := h
    exact ⟨hlen, s, h⟩

end events

/-! ## Calls that bring no news -/

/-- Neither a signal of the monitor nor a call that can bring an exit notice or a signal
    byte. -/
def Req.plain : Req → Bool
  | ⟨.monitor, .kevent _ _⟩ | ⟨.monitor, .readSignalPipe _⟩ | ⟨.monitor, .kill _ _⟩
  | ⟨.monitor, .killpg _ _⟩ => false
  | _ => true

section plain
variable {foreground : Bool} {w₀ : Watch} {l : Trace} {q : Req} {a : Ans q}

theorem monitorSend_plain (hq : q.plain = true) : monitorSend foreground ⟨q, a⟩ = none := by
  obtain ⟨caller, call⟩ := q
  cases caller <;> cases call <;> first | rfl | cases hq

theorem not_anyByte_plain (hq : q.plain = true) : ¬ AnyByte ⟨q, a⟩ l := by
  intro ⟨sig, h⟩
  obtain ⟨caller, call⟩ := q
  cases caller <;> cases call <;> first | exact h | cases hq

theorem not_exitNotice_plain (hq : q.plain = true) : ¬ ExitNotice w₀ ⟨q, a⟩ l := by
  intro h
  obtain ⟨caller, call⟩ := q
  cases caller <;> cases call <;> first | exact h | cases hq

end plain

/-! ## The wait of a grace period -/

/-- The wait goes on: one signal has been sent, and since then neither an exit notice nor a
    signal byte came in. -/
structure Waiting (foreground : Bool) (w₀ : Watch) (first : Int) (h : Handles) (l : Trace) :
    Prop where
  live : h.child.exited = false
  throttle : h.throttle = none
  sent_eq : sends foreground l = [first]
  byte : ¬ Ever (InGrace foreground AnyByte) l
  notice : ¬ Ever (InGrace foreground (ExitNotice w₀)) l

/-- The exit notice has come in. -/
structure ExitNoticed (foreground : Bool) (first : Int) (h : Handles) (l : Trace) : Prop where
  live : h.child.exited = false
  sent_eq : sends foreground l = [first]
  byte : ¬ Ever (InGrace foreground AnyByte) l

/-- The grace period is over, or was given up, with nobody heard of. -/
structure RunOut (foreground : Bool) (w₀ : Watch) (killAfter : Duration) (l : Trace) : Prop where
  byte : ¬ Ever (InGrace foreground AnyByte) l
  elapsed : (watch w₀ l).deadline killAfter ≤ (watch w₀ l).clock ∨
    Ever (InGrace foreground (Unexpected w₀)) l
  notice : Ever (InGrace foreground (ExitNotice w₀)) l → Ever (InGrace foreground (Unexpected w₀)) l

/-- How the wait ends. -/
def GraceWaited (foreground : Bool) (w₀ : Watch) (killAfter : Duration) :
    Except TimeoutError WaitResult → Handles → Trace → Prop
  | .ok (.exited _ _), _, l => ¬ Ever (InGrace foreground AnyByte) l
  | .ok (.timedOut _), _, l => RunOut foreground w₀ killAfter l
  | .ok (.memoryLimitExceeded _ _), _, _ => False
  | .ok (.receivedSignal sig), _, l => ¬ Ever (InGrace foreground (ExitNotice w₀)) l ∧
    ∀ s, Ever (InGrace foreground (SignalByte s)) l ↔ s = sig
  | .error _, _, _ => True

section wait
variable {config : RunConfig} {pid : Int} {w₀ : Watch} {killAfter : Duration} {first : Int}
  {h : Handles} {l : Trace}

/-- A call that is no signal keeps the contract. -/
theorem asks_unsent {q : Req} {P : Ans q → Trace → Prop}
    (hq : ∀ a, monitorSend config.foreground ⟨q, a⟩ = none) (hP : ∀ a, P a (⟨q, a⟩ :: l)) :
    Asks (graceContract config pid w₀ killAfter) q l P := by
  intro a _
  refine ⟨fun sig first hsig => ?_, hP a⟩
  rw [hq] at hsig
  cases hsig

namespace Waiting
variable {foreground : Bool}

theorem event {q : Req} {a : Ans q} (hw : Waiting foreground w₀ first h l)
    (hsend : monitorSend foreground ⟨q, a⟩ = none) (hbyte : ¬ AnyByte ⟨q, a⟩ l)
    (hnotice : ¬ ExitNotice w₀ ⟨q, a⟩ l) : Waiting foreground w₀ first h (⟨q, a⟩ :: l) where
  live := hw.live
  throttle := hw.throttle
  sent_eq := by rw [sends_cons, hsend]; exact hw.sent_eq
  byte := fun hever => hever.elim (fun he => hbyte he.2) hw.byte
  notice := fun hever => hever.elim (fun he => hnotice he.2) hw.notice

theorem plain {q : Req} {a : Ans q} (hw : Waiting foreground w₀ first h l)
    (hq : q.plain = true) : Waiting foreground w₀ first h (⟨q, a⟩ :: l) :=
  hw.event (monitorSend_plain hq) (not_anyByte_plain hq) (not_exitNotice_plain hq)

theorem asks (hw : Waiting config.foreground w₀ first h l) {q : Req} (hq : q.plain = true) :
    Asks (graceContract config pid w₀ killAfter) q l fun _ l' =>
      Waiting config.foreground w₀ first h l' :=
  asks_unsent (fun _ => monitorSend_plain hq) fun _ => hw.plain hq

/-- The kevent call: the exit notice, or the wait goes on. -/
theorem kevent (hw : Waiting foreground w₀ first h l) (kq : Int) (cs : List Kevent)
    (r : Except Int Kevent) :
    Inert.Seen w₀ (fun _ h l => Waiting foreground w₀ first h l) (ExitNoticed foreground first) 0 h
      (⟨⟨.monitor, .kevent kq cs⟩, r⟩ :: l) := by
  have hbyte : ¬ AnyByte ⟨⟨.monitor, .kevent kq cs⟩, r⟩ l := fun ⟨_, hs⟩ => hs
  refine ⟨fun _ => ⟨hw.live, hw.sent_eq, ?_⟩, fun hno => hw.event rfl hbyte hno⟩
  exact fun hever => hever.elim (fun he => hbyte he.2) hw.byte

/-- The latest event of the grace period. -/
theorem latest {P : Event → Trace → Prop} {e : Event} (hw : Waiting foreground w₀ first h l)
    (he : P e l) : Ever (InGrace foreground P) (e :: l) :=
  .inl ⟨by rw [hw.sent_eq]; rfl, he⟩

/-- The grace period is over, or a wake-up nobody asked for ends it. -/
theorem runOut (hw : Waiting foreground w₀ first h l)
    (hover : (watch w₀ l).deadline killAfter ≤ (watch w₀ l).clock ∨
      Ever (InGrace foreground (Unexpected w₀)) l) : RunOut foreground w₀ killAfter l :=
  ⟨hw.byte, hover, fun hn => absurd hn hw.notice⟩

end Waiting

namespace ExitNoticed
variable {foreground : Bool}

theorem plain {q : Req} {a : Ans q} (hn : ExitNoticed foreground first h l) (hq : q.plain = true) :
    ExitNoticed foreground first h (⟨q, a⟩ :: l) where
  live := hn.live
  sent_eq := by rw [sends_cons, monitorSend_plain hq]; exact hn.sent_eq
  byte := fun hever => hever.elim (fun he => not_anyByte_plain hq he.2) hn.byte

theorem asks (hn : ExitNoticed config.foreground first h l) {q : Req} (hq : q.plain = true) :
    Asks (graceContract config pid w₀ killAfter) q l fun _ l' =>
      ExitNoticed config.foreground first h l' :=
  asks_unsent (fun _ => monitorSend_plain hq) fun _ => hn.plain hq

/-- The wait on a child whose exit was noticed. -/
theorem childWaitOrFail {fuel : Nat} (hn : ExitNoticed config.foreground first h l) :
    (childWaitOrFail fuel).Ensures (graceContract config pid w₀ killAfter) h l fun r h' l' =>
      match r with
        | .ok (status, rusage) =>
          GraceWaited config.foreground w₀ killAfter (.ok (.exited status rusage)) h' l'
        | .error e => GraceWaited config.foreground w₀ killAfter (.error e) h' l' := by
  refine childWaitOrFail_ensures (fun _ l => ExitNoticed config.foreground first h l) hn.live ?_
    (fun _ _ => trivial) hn
  intro n l hn
  refine (hn.asks (q := ⟨.monitor, .wait4 h.child.pid⟩) rfl).mono fun r hn' => ?_
  cases r with
  | ok st => exact hn'.byte
  | error err =>
    dsimp only
    split
    · exact hn'
    · exact trivial

/-- The process the kernel no longer knows: reaped, or reaped elsewhere. -/
theorem reapGone {fuel : Nat} (hn : ExitNoticed config.foreground first h l) :
    (reapGone fuel).Ensures (graceContract config pid w₀ killAfter) h l
      (GraceWaited config.foreground w₀ killAfter) := by
  refine reapGone_ensures (fun _ l => ExitNoticed config.foreground first h l) hn.live ?_ ?_
    fun _ _ => trivial
  · refine (hn.asks (q := ⟨.monitor, .wait4NoHang h.child.pid⟩) rfl).mono fun r hn' => ?_
    match r, hn' with
    | .ok (some _), hn' => exact hn'.byte
    | .ok none, hn' => exact hn'
    | .error _, hn' => exact hn'
  · intro n l hn
    refine (hn.asks (q := ⟨.monitor, .wait4 h.child.pid⟩) rfl).mono fun r hn' => ?_
    cases r with
    | ok st => exact hn'.byte
    | error err =>
      dsimp only
      split
      · exact hn'
      · split
        · next hchild =>
          have hlate : Ever (InGrace config.foreground (Unexpected w₀))
              (⟨⟨.monitor, .wait4 h.child.pid⟩, .error err⟩ :: l) :=
            .inl ⟨by rw [hn.sent_eq]; rfl, hchild⟩
          exact ⟨hn'.byte, .inr hlate, fun _ => hlate⟩
        · exact fun _ => trivial

end ExitNoticed

/-- What a grace wait asks for: no heartbeat, no stdin timeout, no memory limit. -/
def graceArgs (pid : Int) (killAfter : Duration) (confine : Confine) : WaitArgs :=
  { pid, timeout := killAfter, confine }

/-- The clock is read. -/
theorem Waiting.asksClock (hw : Waiting config.foreground w₀ first h l) (confine : Confine)
    {P : Option Nat → Trace → Prop} (hnone : ∀ l', P none l')
    (hsome : ∀ t l', Waiting config.foreground w₀ first h l' → P (some t) l') :
    AsksClock (graceContract config pid w₀ killAfter) .monitor confine l P := by
  refine asksClock_intro w₀ fun e r hreq _ _ _ hr => ?_
  obtain ⟨q, a⟩ := e
  change q = _ at hreq
  have hplain : q.plain = true := by
    rw [hreq]
    cases confine <;> rfl
  have hask : Asks (graceContract config pid w₀ killAfter) q l fun _ l' =>
      Waiting config.foreground w₀ first h l' := hw.asks hplain
  obtain ⟨hg, hw'⟩ := hask a trivial
  refine ⟨hg, ?_⟩
  cases r with
  | none => exact hnone _
  | some t => exact hsome t _ hw'

theorem graceRule (config : RunConfig) (w₀ : Watch) (first : Int) (fuel : Nat) (f : WaitFixed)
    {confine : Confine}
    (hf : f.args = graceArgs pid killAfter confine) :
    WaitRule (graceContract config pid w₀ killAfter) w₀ fuel f
      (fun _ _ h l => Waiting config.foreground w₀ first h l)
      (fun _ _ h l => Waiting config.foreground w₀ first h l)
      (fun _ _ h l => Inert.Seen w₀ (fun _ h l => Waiting config.foreground w₀ first h l)
        (ExitNoticed config.foreground first) 0 h l)
      (fun _ _ h l => Waiting config.foreground w₀ first h l)
      (GraceWaited config.foreground w₀ killAfter) where
  cut _ _ _ _ := trivial
  clock _ _ h l hw _ := hw.asksClock _ (fun _ => trivial) fun _ _ hw' => hw'
  deadline _ _ h l hw ht hd := by
    have hw : Waiting config.foreground w₀ first h l := hw.elim id id
    refine (hw.asks rfl).mono fun _ hw' => hw'.runOut (.inl ?_)
    have hdeadline := ht.deadline
    rw [hf] at hdeadline
    change f.deadlineNs = (watch w₀ l).deadline killAfter at hdeadline
    exact hdeadline ▸ hd
  idle _ _ _ _ _ _ _ hcfg _ := by rw [hf] at hcfg; cases hcfg
  kevent _ _ h l hw _ _ := asks_unsent (fun _ => rfl) fun r => hw.kevent _ _ r
  interrupted _ _ _ _ _ hS _ := hS.of_interrupt (by decide)
  noProcess _ _ _ _ _ hS _ := by
    have hn := hS.1 rfl
    exact (hn.asks rfl).mono fun _ hn' => hn'.reapGone
  broken _ _ _ _ _ _ _ _ _ _ := asks_unsent (fun _ => rfl) fun _ => trivial
  eof _ _ _ _ _ _ hS ht hev _ := hS.of_stdin ht hev
  read _ _ _ _ _ _ hS ht hev _ := by
    refine ((hS.of_stdin ht hev).asks rfl).mono fun bytes hw' => ?_
    split
    · exact hw'
    · split
      · exact hw'.asksClock _ (fun _ => trivial) fun _ _ hw'' => hw''
      · exact hw'
  timer _ _ _ _ _ _ hS _ ht :=
    (hS.of_timer ht).asksClock _ (fun _ => trivial) fun _ _ hw' => hw'
  throttle _ _ _ _ _ hw _ hctx _ := by rw [hw.throttle] at hctx; cases hctx
  memory _ _ _ _ _ _ _ hm _ := by rw [hf] at hm; cases hm
  poll _ _ _ _ _ hw _ _ _ := hw.asks rfl
  line _ _ _ _ _ hw _ _ _ _ := hw.asks rfl
  beat _ _ _ _ hw _ _ := hw
  tick _ _ _ _ hw _ _ := hw
  badStdin _ _ _ _ _ _ hS _ _ _ he hbad _ := hS.of_error he (by rw [hbad]; decide)
  noFilter _ _ _ _ _ _ hS _ _ _ he hno _ := hS.of_error he (by rw [hno]; decide)
  refused _ _ _ _ _ _ _ _ _ _ _ _ _ _ := asks_unsent (fun _ => rfl) fun _ => trivial
  gone _ _ _ _ _ _ hS ht hs hfilter he hcode :=
    ((hS.of_gone ht hs hfilter he hcode).asks rfl).mono fun _ hn' => hn'.reapGone
  exited _ _ _ _ _ _ hS _ hproc he :=
    ((hS.of_exit hproc he).asks rfl).mono fun _ hn' => hn'.childWaitOrFail
  signal _ _ h l _ ev hS ht hs hread he := by
    have hfilter : ev.filter ≠ EVFILT_TIMER := by rw [hread]; decide
    have hproc : ev.filter ≠ EVFILT_PROC := by rw [hread]; decide
    have hw := hS.of_filter he hproc
    refine (hw.asks rfl).mono fun _ hw' => ?_
    split
    · next hnone =>
      -- nobody watches a signal pipe: the wake-up is counted as a timeout
      refine hw'.runOut (.inr (.inr (.inl ⟨?_, he, hfilter, hproc, ?_, fun _ => ?_⟩)))
      · have hsent := hw.sent_eq
        rw [sends_cons] at hsent
        exact congrArg List.length hsent
      · rw [Watch.StdinEvent, ← ht.draining]
        exact hs
      · rw [← ht.signals, hnone]
        rfl
    · next fd hfd =>
      refine asks_unsent (fun _ => rfl) fun b => ?_
      cases b with
      | none =>
        have hw'' := hw'.event (q := ⟨.monitor, .readSignalPipe fd⟩) (a := none) rfl
          (fun hb => hb.elim fun _ h => h) id
        exact hw''.runOut (.inr (hw'.latest rfl))
      | some b =>
        refine ⟨fun hever => hever.elim (fun h => h.2) hw'.notice, fun s => ⟨fun hever => ?_, ?_⟩⟩
        · rcases hever with ⟨-, hbyte⟩ | hever
          · exact hbyte.symm
          · exact absurd (anyByte_iff.mpr ⟨s, hever⟩) hw'.byte
        · intro heq
          subst heq
          exact hw'.latest rfl
  other _ _ _ _ _ ev hS ht hfilter hproc hread he := by
    have hw := hS.of_filter he hproc
    refine (hw.asks rfl).mono fun _ hw' => hw'.runOut (.inr (.inr (.inl ⟨?_, ?_⟩)))
    · have hsent := hw.sent_eq
      rw [sends_cons] at hsent
      exact congrArg List.length hsent
    · exact ⟨he, hfilter, hproc, fun h => hread h.1, fun h => absurd h hread⟩

/-- The grace wait, from the first signal on. -/
theorem graceWait_heard {fuel : Nat} {confine : Confine} (hlive : h.child.exited = false)
    (hsent : sends config.foreground l = [first])
    (hbyte : ¬ Ever (InGrace config.foreground AnyByte) l)
    (hnotice : ¬ Ever (InGrace config.foreground (ExitNotice w₀)) l)
    (hset : (watch w₀ l).Settled) :
    (graceWait fuel pid killAfter confine).Ensures (graceContract config pid w₀ killAfter) h l
      (GraceWaited config.foreground w₀ killAfter) := by
  simp only [graceWait, Act.ensures_focus]
  have hw : Waiting config.foreground w₀ first { child := h.child } l :=
    ⟨hlive, rfl, hsent, hbyte, hnotice⟩
  have hready : (watch w₀ l).Ready (graceArgs pid killAfter confine) := by
    refine ⟨hset.1, fun _ => rfl, ?_, ?_, ?_⟩ <;>
    · intro hl
      rw [hset.2] at hl
      cases hl
  have hsetup : SetupRule (graceContract config pid w₀ killAfter) confine
      (fun l => Waiting config.foreground w₀ first { child := h.child } l) fun e l' =>
        GraceWaited config.foreground w₀ killAfter (.error e) { child := h.child } l' := by
    refine ⟨fun l hw => hw.asksClock _ (fun _ => trivial) fun _ _ hw' => hw', fun l hw => hw.asks rfl,
      fun l hw => hw.asks rfl, fun l hw => hw.asks rfl, fun l hw => ?_⟩
    refine (hw.asks (q := ⟨.monitor, .kqueue⟩) rfl).mono fun r hw' => ?_
    cases r with
    | ok kq => exact hw'
    | error errno => exact trivial
  have hrule := fun (f : WaitFixed) (hf : f.args = graceArgs pid killAfter confine) =>
    graceRule config w₀ first fuel f hf
  refine (waitWithKqueue_ensures hsetup hw hready hrule fun _ _ _ hw' _ => hw').mono
    fun r _ _ hr => ?_
  rcases r with _ | result
  · exact trivial
  · cases result <;> exact hr

end wait

/-! ## The steps of the monitor -/

/-- A silent call brings no news and moves nothing in the automaton. -/
structure Req.Silent (q : Req) : Prop where
  plain : q.plain = true
  unwatched : q.caller ≠ .monitor ∨ q.call.unwatched = true

/-- `l'` goes on from `l` without news. -/
structure Unheard (foreground : Bool) (w₀ : Watch) (l l' : Trace) : Prop
    extends Unmoved w₀ l l' where
  byte : ∀ s, Ever (InGrace foreground (SignalByte s)) l' →
    Ever (InGrace foreground (SignalByte s)) l
  notice : Ever (InGrace foreground (ExitNotice w₀)) l' → Ever (InGrace foreground (ExitNotice w₀)) l

namespace Unheard
variable {foreground : Bool} {w₀ : Watch} {l l' l'' : Trace}

theorem refl (foreground : Bool) (w₀ : Watch) (l : Trace) : Unheard foreground w₀ l l :=
  ⟨.refl w₀ l, fun _ h => h, fun h => h⟩

theorem trans (h : Unheard foreground w₀ l l') (h' : Unheard foreground w₀ l' l'') :
    Unheard foreground w₀ l l'' :=
  ⟨h.toUnmoved.trans h'.toUnmoved, fun s hs => h.byte s (h'.byte s hs), fun hn => h.notice (h'.notice hn)⟩

theorem event {q : Req} {a : Ans q} (hq : q.caller ≠ .monitor ∨ q.call.unwatched = true)
    (hbyte : ¬ AnyByte ⟨q, a⟩ l) (hnotice : ¬ ExitNotice w₀ ⟨q, a⟩ l) :
    Unheard foreground w₀ l (⟨q, a⟩ :: l) where
  toUnmoved := .event hq
  byte s hever := hever.elim (fun he => absurd ⟨s, he.2⟩ hbyte) id
  notice hever := hever.elim (fun he => absurd he.2 hnotice) id

theorem silent {q : Req} {a : Ans q} (hq : q.Silent) : Unheard foreground w₀ l (⟨q, a⟩ :: l) :=
  .event hq.unwatched (not_anyByte_plain hq.plain) (not_exitNotice_plain hq.plain)

end Unheard

section steps
variable {config : RunConfig} {pid : Int} {w₀ : Watch} {killAfter : Duration} {fuel : Nat}
  {sent : List Int} {h : Handles} {l : Trace}

/-- What a silent program leaves behind. -/
structure Quiet (foreground : Bool) (w₀ : Watch) (l l' : Trace) : Prop
    extends Unheard foreground w₀ l l' where
  sent_eq : sends foreground l' = sends foreground l

theorem quiet_ensures {σ ε α : Type} {m : Act Ans σ ε α} (hm : m.Asking Req.Silent) (s : σ)
    (l : Trace) :
    m.Ensures (graceContract config pid w₀ killAfter) s l fun _ _ l' =>
      Quiet config.foreground w₀ l l' := by
  refine hm.ensures (fun l' => Quiet config.foreground w₀ l l') (fun q l' hq hl => ?_)
    (fun _ _ => trivial) ⟨.refl _ w₀ l, rfl⟩
  refine asks_unsent (fun _ => monitorSend_plain hq.plain) fun a => ?_
  refine ⟨hl.toUnheard.trans (.silent hq), ?_⟩
  rw [sends_cons, monitorSend_plain hq.plain]
  exact hl.sent_eq

/-- What the books say of a program also holds under this contract. -/
theorem with_books {σ ε α : Type} {m : Act Ans σ ε α} {s : σ}
    {Post Post' : Except ε α → σ → Trace → Prop}
    (hm : m.Ensures (graceContract config pid w₀ killAfter) s l Post)
    (hbooks : m.Ensures (ledger config pid w₀) s l Post') :
    m.Ensures (graceContract config pid w₀ killAfter) s l fun r s' l' =>
      Post r s' l' ∧ Post' r s' l' :=
  hm.with hbooks.forget

/-- What the books say of a silent program, and that it brings no news. -/
theorem quiet_step {σ ε α : Type} {m : Act Ans σ ε α} {s : σ}
    {Post : Except ε α → σ → Trace → Prop} (hm : m.Asking Req.Silent)
    (hbooks : m.Ensures (ledger config pid w₀) s l Post) :
    m.Ensures (graceContract config pid w₀ killAfter) s l fun r s' l' =>
      Quiet config.foreground w₀ l l' ∧ Post r s' l' :=
  with_books (quiet_ensures hm s l) hbooks

theorem silent_of_throttle {q : Req} (h : q.caller = .throttle) : q.Silent := by
  obtain ⟨caller, call⟩ := q
  cases h
  exact ⟨by cases call <;> rfl, .inl nofun⟩

theorem silent_of_hook {q : Req} (h : q.caller = .hook) : q.Silent := by
  obtain ⟨caller, call⟩ := q
  cases h
  exact ⟨by cases call <;> rfl, .inl nofun⟩

theorem asking_monitorLine (config : RunConfig) (line : String) :
    Act.Asking Req.Silent (monitorLine config line) :=
  .ite (.bind (.call ⟨rfl, .inr rfl⟩) fun _ => .pure) .pure

theorem asking_resume : Act.Asking (fun q => q.caller = .throttle) CpuThrottleState.resume :=
  .bind .get fun _ => .ite (.bind (.call rfl) fun _ => .modify) .pure

theorem asking_resumeThrottle : Act.Asking Req.Silent resumeThrottle := by
  refine .bind .get fun h => ?_
  cases h.throttle with
  | none => exact .pure
  | some ctx => exact .focus (asking_resume.mono fun _ => silent_of_throttle)

theorem asking_runHook (fuel : Nat) (config : RunConfig) (pid : Int) :
    Act.Asking Req.Silent (runHook fuel config pid) := by
  unfold runHook
  cases config.onTimeout with
  | none => exact .pure
  | some cmd =>
    have hook := (asking_runOnTimeoutHook fuel cmd pid config).mono fun _ hq => silent_of_hook hq.1
    exact .bind (.exec hook) fun _ => .pure

theorem asking_killProcess (pid : Int) (sig : Signal) :
    Act.Asking (fun q => q = ⟨.monitor, .kill pid sig.asRaw⟩) (killProcess pid sig) := by
  refine .bind (.call rfl) fun r => ?_
  cases r with
  | ok _ => exact .pure
  | error err => exact .ite .pure .throw

/-- A signal keeps the contract when there is a reason to send it. -/
theorem sendSignal_guards {sig : Signal} (hsent : sends config.foreground l = sent)
    (hsecond : ∀ first, sent = [first] → first = config.signal.asRaw ∧
      SecondSignal config pid w₀ killAfter sig.asRaw l) :
    (sendSignal pid sig config.foreground).Ensures (graceContract config pid w₀ killAfter) h l
      fun _ _ _ => True := by
  have hguar : ∀ (q : Req) (a : Ans q), (∀ sig', monitorSend config.foreground ⟨q, a⟩ = some sig' →
      sig' = sig.asRaw) → GraceGuar config pid w₀ killAfter ⟨q, a⟩ l := by
    intro q a hq sig' first hsig' hfirst
    rw [hq sig' hsig']
    exact hsecond first (hsent.symm.trans hfirst)
  unfold sendSignal
  cases hf : config.foreground with
  | true =>
    rw [if_pos rfl, killProcess, Act.ensures_bind, Act.ensures_call]
    intro r _
    refine ⟨hguar _ _ fun sig' h => ?_, ?_⟩
    · rw [hf] at h
      exact (Option.some.inj h).symm
    · cases r with
      | ok _ => exact trivial
      | error err => exact Act.ensures_ite (fun _ => trivial) fun _ => trivial
  | false =>
    rw [if_neg (by decide), Act.ensures_bind, Act.ensures_call]
    intro r _
    refine ⟨hguar _ _ fun sig' h => (Option.some.inj h).symm, ?_⟩
    cases r with
    | ok _ => exact trivial
    | error err =>
      refine Act.ensures_ite (fun _ => ?_) fun _ => trivial
      -- the fallback is not counted as a signal of its own
      refine (asking_killProcess pid sig).ensures (fun _ => True) (fun q l hq _ => ?_)
        (fun _ _ => trivial) trivial
      refine asks_unsent (fun a => ?_) fun _ => trivial
      subst hq
      rw [hf]
      rfl

theorem sendSignal_unheard (foreground : Bool) (w₀ : Watch) (sig : Signal) (h : Handles) (l : Trace) :
    (sendSignal pid sig foreground).Ensures {} h l fun _ _ l' => Unheard foreground w₀ l l' := by
  have hkeep : ∀ (q : Req) (l' : Trace), q = ⟨.monitor, .kill pid sig.asRaw⟩ ∨
      q = ⟨.monitor, .killpg pid sig.asRaw⟩ → Unheard foreground w₀ l l' →
      Asks {} q l' fun _ l'' => Unheard foreground w₀ l l'' := by
    intro q l' hq hl a _
    refine ⟨trivial, hl.trans ?_⟩
    rcases hq with rfl | rfl
    · exact .event (.inr rfl) (fun hb => hb.elim fun _ h => h) id
    · exact .event (.inr rfl) (fun hb => hb.elim fun _ h => h) id
  have hask : Act.Asking (fun q => q = ⟨.monitor, .kill pid sig.asRaw⟩ ∨
      q = ⟨.monitor, .killpg pid sig.asRaw⟩) (sendSignal pid sig foreground) := by
    have hkill := (asking_killProcess pid sig).mono fun q hq =>
      (Or.inl hq : q = _ ∨ q = ⟨.monitor, .killpg pid sig.asRaw⟩)
    refine .ite hkill (.bind (.call (.inr rfl)) fun r => ?_)
    cases r with
    | ok _ => exact .pure
    | error err => exact .ite hkill .throw
  exact hask.ensures _ hkeep (fun _ _ => trivial) (.refl _ w₀ l)

/-- What the monitor's result says, if there is one. -/
def GraceEnded (config : RunConfig) (pid : Int) (w₀ : Watch) :
    Except TimeoutError RunResult → Handles → Trace → Prop
  | .ok r, _, l => GraceTold config pid w₀ r l
  | .error _, _, _ => True

/-- Resume the child, send it a signal and go on. -/
theorem resumeAndSend_grace {sig : Signal} {rest : SuperAct RunResult}
    (hs : Supervised config pid sent h l) (hreason : Reason config pid w₀ sig.asRaw l sent)
    (hsecond : ∀ l', Unheard config.foreground w₀ l l' → ∀ first, sent = [first] →
      first = config.signal.asRaw ∧ SecondSignal config pid w₀ killAfter sig.asRaw l')
    (hrest : ∀ h' l', Supervised config pid (sig.asRaw :: sent) h' l' →
      Unheard config.foreground w₀ l l' →
      rest.Ensures (graceContract config pid w₀ killAfter) h' l' (GraceEnded config pid w₀)) :
    (do
      resumeThrottle
      sendSignal pid sig config.foreground
      rest).Ensures (graceContract config pid w₀ killAfter) h l (GraceEnded config pid w₀) := by
  rw [Act.ensures_bind]
  refine (quiet_step asking_resumeThrottle (resumeThrottle_ensures hs)).mono fun r h₁ l₁ hr => ?_
  obtain ⟨hq₁, rfl, hreleased, hm₁, hs₁⟩ := hr
  dsimp only
  rw [Act.ensures_bind]
  have hguards : (sendSignal pid sig config.foreground).Ensures
      (graceContract config pid w₀ killAfter) h₁ l₁ fun _ _ _ => True :=
    sendSignal_guards hs₁.sent_eq (hsecond l₁ hq₁.toUnheard)
  have hheard := hguards.with (sendSignal_unheard config.foreground w₀ sig h₁ l₁)
  have hbooks := sendSignal_ensures hs₁ hreleased (hreason.unmoved hm₁)
  refine (with_books hheard hbooks).mono fun r h₂ l₂ hr => ?_
  obtain ⟨⟨-, hq₂⟩, hs₂, -, -⟩ := hr
  cases r with
  | ok _ => exact hrest h₂ l₂ hs₂ (hq₁.toUnheard.trans hq₂)
  | error _ => exact trivial

/-- Wait for the child to die and report it. -/
theorem reapAs_grace {result : RawExitStatus → ResourceUsage → RunResult}
    (htold : ∀ status rusage l', Quiet config.foreground w₀ l l' →
      GraceTold config pid w₀ (result status rusage) l') :
    (reapAs fuel result).Ensures (graceContract config pid w₀ killAfter) h l
      (GraceEnded config pid w₀) := by
  rw [reapAs, Act.ensures_bind]
  refine (quiet_ensures (asking_childWaitOrFail (fun _ => ⟨rfl, .inr rfl⟩) fuel) h l).mono
    fun r h' l' hq => ?_
  cases r with
  | ok st => exact htold st.1 st.2 l' hq
  | error e => exact trivial

theorem killAndReap_grace {result : RawExitStatus → ResourceUsage → RunResult}
    (hs : Supervised config pid [config.signal.asRaw] h l)
    (hsecond : ∀ l', Unheard config.foreground w₀ l l' →
      SecondSignal config pid w₀ killAfter Signal.sigkill.asRaw l')
    (htold : ∀ status rusage l', Unheard config.foreground w₀ l l' →
      GraceTold config pid w₀ (result status rusage) l') :
    (killAndReap fuel config pid result).Ensures (graceContract config pid w₀ killAfter) h l
      (GraceEnded config pid w₀) := by
  refine resumeAndSend_grace hs ⟨rfl, .inl rfl⟩ (fun l' hl' first hfirst => ?_) fun h' l' _ hl' => ?_
  · cases hfirst
    exact ⟨rfl, hsecond l' hl'⟩
  · exact reapAs_grace fun status rusage l'' hq => htold status rusage l'' (hl'.trans hq.toUnheard)

theorem forwardSignal_grace {sig : Signal} (hs : Supervised config pid sent h l)
    (hreason : Reason config pid w₀ sig.asRaw l sent)
    (hsecond : ∀ l', Unheard config.foreground w₀ l l' → ∀ first, sent = [first] →
      first = config.signal.asRaw ∧ SecondSignal config pid w₀ killAfter sig.asRaw l')
    (htold : ∀ status rusage l', Unheard config.foreground w₀ l l' →
      sends config.foreground l' = sig.asRaw :: sent →
      GraceTold config pid w₀ (.signalForwarded sig status rusage) l') :
    (forwardSignal fuel config pid sig).Ensures (graceContract config pid w₀ killAfter) h l
      (GraceEnded config pid w₀) := by
  simp only [forwardSignal]
  rw [Act.ensures_bind]
  refine (quiet_step (asking_monitorLine _ _) (monitorLine_ensures _ hs)).mono fun r h₁ l₁ hr => ?_
  obtain ⟨hq₁, rfl, hs₁, hm₁⟩ := hr
  refine resumeAndSend_grace hs₁ (hreason.unmoved hm₁)
    (fun l' hl' => hsecond l' (hq₁.toUnheard.trans hl')) fun h₂ l₂ hs₂ hl₂ => ?_
  rw [Act.ensures_bind]
  refine (quiet_ensures (asking_childWait (fun _ => ⟨rfl, .inr rfl⟩) fuel) h₂ l₂).mono
    fun r h₃ l₃ hq₃ => ?_
  have htold' := fun status rusage => htold status rusage l₃
    ((hq₁.toUnheard.trans hl₂).trans hq₃.toUnheard) (hq₃.sent_eq.trans hs₂.sent_eq)
  rcases r with _ | _ | ⟨status, rusage⟩
  · exact trivial
  · exact htold' none none
  · exact htold' (some status) (some rusage)

end steps

/-! ## The branches after the first wait -/

section branches
variable {config : RunConfig} {pid : Int} {w₀ : Watch} {killAfter : Duration} {fuel : Nat}
  {h : Handles} {l l' : Trace}

/-- A run that never had a grace period. -/
theorem GraceTold.of_first (hnil : sends config.foreground l = [])
    (hl : Unheard config.foreground w₀ l l') (r : RunResult) : GraceTold config pid w₀ r l' where
  exited hexit := absurd (hl.notice hexit) (not_inGrace_of_sends_nil hnil)
  received s hbyte := absurd (hl.byte s hbyte) (not_inGrace_of_sends_nil hnil)

/-- The child exited in the grace period, which nothing else ended. -/
theorem GraceTold.of_exited {r : RunResult} (hkilled : r.killed = some false)
    (hbyte : ¬ Ever (InGrace config.foreground AnyByte) l) : GraceTold config pid w₀ r l where
  exited _ _ := hkilled
  received s hs := absurd (anyByte_iff.mpr ⟨s, hs⟩) hbyte

theorem RunOut.unheard (hr : RunOut config.foreground w₀ killAfter l)
    (hl : Unheard config.foreground w₀ l l') : RunOut config.foreground w₀ killAfter l' where
  byte hever := by
    obtain ⟨s, hs⟩ := anyByte_iff.mp hever
    exact hr.byte (anyByte_iff.mpr ⟨s, hl.byte s hs⟩)
  elapsed := by
    rw [hl.watch_eq]
    exact hr.elapsed.imp_right (Ever.later hl.suffix)
  notice hexit := (hr.notice (hl.notice hexit)).later hl.suffix

/-- SIGKILL after a grace period that has run out. -/
theorem RunOut.killed {r : RunResult} (hr : RunOut config.foreground w₀ killAfter l) :
    GraceTold config pid w₀ r l where
  exited hexit hno := absurd (hr.notice hexit) hno
  received s hs := absurd (anyByte_iff.mpr ⟨s, hs⟩) hr.byte

theorem RunOut.second (hr : RunOut config.foreground w₀ killAfter l) :
    SecondSignal config pid w₀ killAfter Signal.sigkill.asRaw l :=
  .over rfl hr.byte hr.elapsed hr.notice

theorem OverLimit.of_verdict {startNs limitBytes actualBytes : Nat}
    (h : Verdict w₀ (waitArgsOf config pid startNs) l
      (.memoryLimitExceeded limitBytes actualBytes)) : OverLimit config pid l := by
  obtain ⟨m, hm, rfl, hover, hread⟩ := h
  obtain ⟨limitBytes, hlimit, rfl⟩ := Option.map_eq_some_iff.mp hm
  exact ⟨limitBytes, hlimit, hread.mono fun _ _ hr => ⟨actualBytes, hover, hr⟩⟩

theorem OverLimit.later (h : OverLimit config pid l) (hl : l <:+ l') : OverLimit config pid l' := by
  obtain ⟨limitBytes, hlimit, hread⟩ := h
  exact ⟨limitBytes, hlimit, hread.later hl⟩

/-- The grace wait after the first signal, and the books. -/
theorem graceWait_grace {h₀ : Handles} {l₀ : Trace} (hs : Supervised config pid [] h₀ l₀)
    (hs' : Supervised config pid [config.signal.asRaw] h l)
    (hl : Unheard config.foreground w₀ l₀ l) (hset : (watch w₀ l₀).Settled) :
    (graceWait fuel pid killAfter config.confine).Ensures (graceContract config pid w₀ killAfter) h l
      fun r h' l' => l <:+ l' ∧ GraceWaited config.foreground w₀ killAfter r h' l' ∧
        Waited config pid w₀ (graceArgs pid killAfter config.confine) [config.signal.asRaw]
          (Supervised config pid [config.signal.asRaw]) r h' l' := by
  have hset' : (watch w₀ l).Settled := by rw [hl.watch_eq]; exact hset
  have hbyte : ¬ Ever (InGrace config.foreground AnyByte) l := by
    intro hever
    obtain ⟨s, hs₀⟩ := anyByte_iff.mp hever
    exact not_inGrace_of_sends_nil hs.sent_eq (hl.byte s hs₀)
  have hnotice : ¬ Ever (InGrace config.foreground (ExitNotice w₀)) l := fun hever =>
    not_inGrace_of_sends_nil hs.sent_eq (hl.notice hever)
  have hheard : (graceWait fuel pid killAfter config.confine).Ensures
      (graceContract config pid w₀ killAfter) h l (GraceWaited config.foreground w₀ killAfter) :=
    graceWait_heard hs'.live hs'.sent_eq hbyte hnotice hset'
  have hboth := with_books hheard (graceWait_ensures hs' hset')
  exact (hboth.with (Act.ensures_extends _ h l)).mono fun _ _ _ hr => ⟨hr.2, hr.1⟩

theorem onMemoryLimit_grace {limitBytes actualBytes : Nat} (hk : config.killAfter = some killAfter)
    (hs : Supervised config pid [] h l) (hdue : Due config pid w₀ l)
    (hset : (watch w₀ l).Settled) (hmem : OverLimit config pid l) :
    (onMemoryLimit fuel config pid limitBytes actualBytes).Ensures
      (graceContract config pid w₀ killAfter) h l (GraceEnded config pid w₀) := by
  simp only [onMemoryLimit]
  rw [Act.ensures_bind]
  refine (quiet_step (asking_monitorLine _ _) (monitorLine_ensures _ hs)).mono fun r h₁ l₁ hr => ?_
  obtain ⟨hq₁, rfl, hs₁, hm₁⟩ := hr
  refine resumeAndSend_grace hs₁ (.inl ⟨rfl, hdue.unmoved hm₁⟩) (fun _ _ _ h => by cases h)
    fun h₂ l₂ hs₂ hl₂ => ?_
  have hl := hq₁.toUnheard.trans hl₂
  rw [hk]
  dsimp only
  rw [Act.ensures_bind]
  refine (graceWait_grace hs hs₂ hl hset).mono fun r h₃ l₃ hr => ?_
  obtain ⟨hsuf, hheard, hbooks⟩ := hr
  rcases r with _ | ⟨_, _⟩ | _ | _ | sig
  · exact trivial
  · exact GraceTold.of_exited rfl hheard
  · exact killAndReap_grace hbooks.1 (fun _ hl' => (hheard.unheard hl').second)
      fun _ _ _ hl' => (hheard.unheard hl').killed
  · exact hheard.elim
  · -- the signal is not forwarded
    obtain ⟨hno, hbyte⟩ := hheard
    have hs₃ := hbooks.1
    have hreceived : Ever (InGrace config.foreground AnyByte) l₃ :=
      anyByte_iff.mpr ⟨sig, (hbyte sig).mpr rfl⟩
    have hmem' : OverLimit config pid l₃ := hmem.later (hl.suffix.trans hsuf)
    refine killAndReap_grace hs₃ (fun l' hl' => ?_) fun _ _ l' hl' => ⟨fun h => ?_, fun _ _ h => ?_⟩
    · exact .ignored (hmem'.later hl'.suffix) (hreceived.later hl'.suffix)
    · exact absurd (hl'.notice h) hno
    · exact absurd (hmem'.later hl'.suffix) h

theorem onTimeout_grace {reason : TimeoutReason} (hk : config.killAfter = some killAfter)
    (hs : Supervised config pid [] h l) (hdue : Due config pid w₀ l)
    (hset : (watch w₀ l).Settled) :
    (onTimeout fuel config pid reason).Ensures (graceContract config pid w₀ killAfter) h l
      (GraceEnded config pid w₀) := by
  simp only [onTimeout]
  rw [Act.ensures_bind]
  refine (quiet_step (asking_monitorLine _ _) (monitorLine_ensures _ hs)).mono fun r h₁ l₁ hr => ?_
  obtain ⟨hq₁, rfl, hs₁, hm₁⟩ := hr
  dsimp only
  rw [Act.ensures_bind]
  refine (quiet_step (asking_runHook _ _ _) (runHook_ensures hs₁)).mono fun r h₂ l₂ hr => ?_
  obtain ⟨hq₂, ⟨hook, rfl, -⟩, hs₂, hm₂⟩ := hr
  dsimp only
  rw [Act.ensures_bind]
  refine (quiet_step (asking_monitorLine _ _) (monitorLine_ensures _ hs₂)).mono fun r h₃ l₃ hr => ?_
  obtain ⟨hq₃, rfl, hs₃, hm₃⟩ := hr
  have hm := (hm₁.trans hm₂).trans hm₃
  refine resumeAndSend_grace hs₃ (.inl ⟨rfl, hdue.unmoved hm⟩) (fun _ _ _ h => by cases h)
    fun h₄ l₄ hs₄ hl₄ => ?_
  -- all that was asked for before the grace wait leaves its signals and notices alone
  have hl := ((hq₁.toUnheard.trans hq₂.toUnheard).trans hq₃.toUnheard).trans hl₄
  rw [hk]
  dsimp only
  rw [Act.ensures_bind]
  refine (graceWait_grace hs hs₄ hl hset).mono fun r h₅ l₅ hr => ?_
  obtain ⟨-, hheard, hbooks⟩ := hr
  rcases r with _ | ⟨_, _⟩ | _ | _ | sig
  · exact trivial
  -- the command exited in time
  · exact GraceTold.of_exited rfl hheard
  · dsimp only
    rw [Act.ensures_bind]
    refine (quiet_step (asking_monitorLine _ _) (monitorLine_ensures _ hbooks.1)).mono
      fun r h₆ l₆ hr => ?_
    obtain ⟨hq₆, rfl, hs₆, -⟩ := hr
    -- the grace period is over: SIGKILL is the second and last signal
    have hout' := hheard.unheard hq₆.toUnheard
    exact killAndReap_grace hs₆ (fun _ hl' => (hout'.unheard hl').second)
      fun _ _ _ hl' => (hout'.unheard hl').killed
  · exact hheard.elim
  -- a signal came in during the grace period, and takes over
  · obtain ⟨hno, hbyte⟩ := hheard
    obtain ⟨hs₅, hverdict, -⟩ := hbooks
    have hreceived : Ever (InGrace config.foreground (SignalByte sig)) l₅ := (hbyte sig).mpr rfl
    refine forwardSignal_grace hs₅ ⟨rfl, .inr ⟨sig, rfl, hverdict⟩⟩ (fun l' hl' first hfirst => ?_)
      fun status rusage l' hl' hsent => ⟨fun h => ?_, fun s hs _ => ?_⟩
    · cases hfirst
      exact ⟨rfl, .forwarded sig rfl (hreceived.later hl'.suffix)⟩
    · exact absurd (hl'.notice h) hno
    · obtain rfl := (hbyte s).mp (hl'.byte s hs)
      exact ⟨⟨status, rusage, rfl⟩, hsent⟩

/-- What the monitor does with the result of the first wait. -/
theorem handleResult_grace {startNs : Nat} {r : WaitResult} (hk : config.killAfter = some killAfter)
    (hsent : sends config.foreground l = [])
    (hr : Waited config pid w₀ (waitArgsOf config pid startNs) []
      (Supervised config pid []) (.ok r) h l) :
    (handleResult fuel config pid r).Ensures (graceContract config pid w₀ killAfter) h l
      (GraceEnded config pid w₀) := by
  match r, hr with
  | .exited _ _, _ => exact GraceTold.of_first hsent (.refl _ w₀ l) _
  | .timedOut _, ⟨hs, hv, hset⟩ => exact onTimeout_grace hk hs (.of_timeout hv) hset
  | .memoryLimitExceeded _ _, ⟨hs, hv, hset⟩ =>
    exact onMemoryLimit_grace hk hs (.of_memory hv) hset (.of_verdict hv)
  | .receivedSignal sig, ⟨hs, hv, _⟩ =>
    exact forwardSignal_grace hs (.inr ⟨sig, rfl, hv⟩) (fun _ _ _ => nofun)
      fun _ _ _ hl' _ => .of_first hsent hl' _

end branches

/-! ## The whole run -/

section run
variable {config : RunConfig} {pid : Int} {w₀ : Watch} {killAfter : Duration} {fuel : Nat}
  {h : Handles} {l : Trace}

/-- The first wait sends nothing. -/
theorem firstWait_inert (a : WaitArgs) :
    Inert (graceContract config pid w₀ killAfter) w₀ fuel a
      (fun _ _ l => sends config.foreground l = []) (fun _ l => sends config.foreground l = [])
      fun _ _ l => sends config.foreground l = [] := by
  have hkeep : ∀ (q : Req) (l : Trace), q.idle = true → sends config.foreground l = [] →
      Asks (graceContract config pid w₀ killAfter) q l fun _ l' => sends config.foreground l' = [] := by
    intro q l hq hl
    refine asks_unsent (fun a => (Blank.of_idle a hq).send _) fun a => ?_
    rw [sends_cons, (Blank.of_idle a hq).send]
    exact hl
  have hquiet : ∀ {σ ε α : Type} {m : Act Ans σ ε α} {s : σ} {l : Trace}, m.Asking Req.Silent →
      sends config.foreground l = [] →
      m.Ensures (graceContract config pid w₀ killAfter) s l fun _ _ l' =>
        sends config.foreground l' = [] :=
    fun hm hl => (quiet_ensures hm _ _).mono fun _ _ _ hq => hq.sent_eq.trans hl
  refine ⟨fun _ _ _ => trivial, fun _ q _ l hl hq => hkeep q l (idle_of_looks hq) hl,
    fun _ _ _ _ _ hl _ _ => hkeep _ _ rfl hl, fun _ _ _ _ _ hl => ?_, fun _ _ _ hl => hkeep _ _ rfl hl,
    fun _ _ _ _ hl _ => ?_, fun _ _ hl _ => ?_, fun _ _ hl => ?_, fun _ _ _ _ hl _ _ _ => hl,
    fun _ _ _ _ hl _ => hl⟩
  · exact (hkeep _ _ rfl hl).mono fun _ hl' => ⟨fun _ => hl', fun _ => hl'⟩
  · exact hquiet (CpuThrottleState.asking_update (fun _ _ => silent_of_throttle rfl)
      (fun _ => silent_of_throttle rfl) _ _) hl
  · exact hquiet (asking_reapGone (fun _ => ⟨rfl, .inr rfl⟩) (fun _ => ⟨rfl, .inr rfl⟩) fuel) hl
  · refine (hquiet (asking_childWaitOrFail (fun _ => ⟨rfl, .inr rfl⟩) fuel) hl).mono
      fun r _ _ hl' => ?_
    cases r <;> exact hl'

theorem asking_attachThrottle (config : RunConfig) (pid : Int) (startNs : Nat) :
    Act.Asking Req.Silent (attachThrottle config pid startNs) := by
  unfold attachThrottle
  cases config.cpuThrottle with
  | none => exact .pure
  | some cfg =>
    have hnew : (CpuThrottleState.new pid startNs).Asking Req.Silent :=
      ⟨⟨rfl, .inl nofun⟩, fun r => by cases r <;> exact trivial⟩
    refine .bind (.exec hnew) fun r => ?_
    cases r with
    | ok state => exact .modify
    | error e => exact .ite .pure (.bind (.call ⟨rfl, .inr rfl⟩) fun _ => .pure)

theorem asking_dropThrottle (h : Handles) : (dropThrottle h).Asking Req.Silent := by
  unfold dropThrottle
  cases h.throttle with
  | none => exact trivial
  | some ctx =>
    refine Prog.asking_bind (Prog.asking_bind ?_ fun _ => trivial) fun _ => trivial
    exact (asking_resume ctx.state).mono fun _ => silent_of_throttle

theorem supervise_grace {startNs : Nat} (hk : config.killAfter = some killAfter)
    (hs : Supervised config pid [] h l) (hnone : h.throttle = none)
    (hready : (watch w₀ l).Ready (waitArgsOf config pid startNs)) :
    (supervise fuel config pid startNs).Ensures (graceContract config pid w₀ killAfter) h l
      (GraceEnded config pid w₀) := by
  simp only [supervise]
  rw [Act.ensures_bind]
  refine (quiet_step (asking_attachThrottle _ _ _) (attachThrottle_ensures hs hnone)).mono
    fun r h₁ l₁ hr => ?_
  obtain ⟨hq₁, rfl, hs₁, hm₁⟩ := hr
  have hready₁ : (watch w₀ l₁).Ready (waitArgsOf config pid startNs) := by
    rw [hm₁.watch_eq]
    exact hready
  dsimp only
  rw [Act.ensures_bind]
  refine (with_books ((firstWait_inert _).waitWithKqueue_ensures hs₁.sent_eq hready₁)
    (firstWait_ensures hs₁ hready₁)).mono fun r h₂ l₂ hr => ?_
  obtain ⟨hsent, hr⟩ := hr
  cases r with
  | ok _ => exact handleResult_grace hk hsent hr
  | error _ => exact trivial

/-- The drop of the throttle brings no news either. -/
theorem GraceEnded.drop {r : Except TimeoutError RunResult}
    (hr : GraceEnded config pid w₀ r h l) :
    (dropThrottle h).Ensures (graceContract config pid w₀ killAfter) l fun h' l' =>
      GraceEnded config pid w₀ r h' l' := by
  have hquiet : (Act.exec (dropThrottle h) : SuperAct Handles).Ensures
      (graceContract config pid w₀ killAfter) h l fun _ _ l' => Quiet config.foreground w₀ l l' :=
    quiet_ensures (.exec (asking_dropThrottle h)) h l
  rw [Act.ensures_exec] at hquiet
  refine hquiet.mono fun h' l' hq => ?_
  cases r with
  | error _ => exact trivial
  | ok r =>
    refine ⟨fun hexit hno => hr.exited (hq.notice hexit) fun h => hno (h.later hq.suffix),
      fun s hs hmem => ?_⟩
    rw [hq.sent_eq]
    exact hr.received s (hq.byte s hs) fun h => hmem (h.later hq.suffix)

theorem monitorWithTimeout_grace (hk : config.killAfter = some killAfter) :
    (monitorWithTimeout fuel config).Ensures
      (graceContract config pid (Watch.ofConfig config) killAfter) { child := { pid } } [] fun r h l =>
        GraceEnded config pid (Watch.ofConfig config) r h l := by
  have hs : Supervised config pid [] { child := { pid } } [] :=
    ⟨rfl, rfl, rfl, rfl, nofun, nofun, nofun, fun hne => absurd rfl hne⟩
  simp only [monitorWithTimeout, Act.ensures_bind, Act.ensures_get, ensures_now]
  refine asksClock_intro (Watch.ofConfig config) fun e t hreq _ _ hw _ => ⟨fun _ _ _ => nofun, ?_⟩
  obtain ⟨q, a⟩ := e
  change q = _ at hreq
  have hidle : q.idle = true := by
    rw [hreq]
    cases config.confine <;> rfl
  cases t with
  | none => exact trivial
  | some startNs =>
    refine Act.ensures_onExit.mpr ((supervise_grace hk (hs.blank (.of_idle a hidle)) rfl ?_).mono
      fun r h' l' hr => hr.drop)
    rw [hw]
    exact waitArgsOf_ready config pid startNs

end run

/-- In every run with a grace period a second signal follows a first one for a reason
    only: SIGKILL when the grace period has run out, or the signal that came in. The result
    says which, and a child that exits in time was not killed. -/
theorem grace_periods_alike (env : World) (fuel : Nat) (config : RunConfig) (pid : Int)
    {killAfter : Duration} (hk : config.killAfter = some killAfter) :
    Always (fun e l => ∀ sig first, monitorSend config.foreground e = some sig →
      sends config.foreground l = [first] → first = config.signal.asRaw ∧
        SecondSignal config pid (Watch.ofConfig config) killAfter sig l)
      (monitorRun env fuel config pid).2 ∧
    ∀ r h l, monitorRun env fuel config pid = (some (.ok r, h), l) →
      (∀ killed, r.killed = some killed →
        sends config.foreground l = terminationSends config killed) ∧
      GraceTold config pid (Watch.ofConfig config) r l := by
  have hrun := Prog.Ensures.sound (p := monitorWithTimeout fuel config { child := { pid } }) env
    (monitorWithTimeout_grace hk) trivial (Always.of_forall (fun _ _ => trivial) _)
  refine ⟨hrun.1, fun r h l hl => ⟨fun killed hkilled => ?_, ?_⟩⟩
  · have hclosed := (monitorRun_kept env fuel config pid).2 (.ok r) h (by rw [hl])
    rw [hl] at hclosed
    have hfits := hclosed.told.1
    match r, hkilled, hfits with
    | .timedOut .., rfl, ⟨_, hsent, _⟩ => exact hsent
    | .memoryLimitExceeded .., rfl, ⟨_, hsent⟩ => exact hsent
  · change (monitorWithTimeout fuel config { child := { pid } }).run env [] = _ at hl
    have hended := hrun.2.1 (.ok r, h) (by rw [hl])
    rw [hl] at hended
    exact hended

/-- The timeout passes, then the grace period: SIGKILL has its reason. -/
theorem grace_periods_alike_killed : ∃ r h e a before,
    monitorRun slowWorld 2 killAfterOne 7 =
      (some (.ok r, h), [e] ++ ⟨⟨.monitor, .killpg 7 Signal.sigkill.asRaw⟩, a⟩ :: before) ∧
    r.killed = some true ∧ sends false before = [Signal.sigterm.asRaw] ∧
    SecondSignal killAfterOne 7 (Watch.ofConfig killAfterOne) { asSecs := 1 }
      Signal.sigkill.asRaw before := by
  obtain ⟨hguar, -⟩ := grace_periods_alike slowWorld 2 killAfterOne 7 rfl
  have hl : (monitorRun slowWorld 2 killAfterOne 7).2 =
      [_] ++ ⟨⟨.monitor, .killpg 7 Signal.sigkill.asRaw⟩, _⟩ :: _ := rfl
  exact ⟨_, _, _, _, _, rfl, rfl, rfl, (hguar.at_event hl _ _ rfl rfl).2⟩

/-- The memory limit is exceeded at the first check; then SIGINT comes in. -/
def greedyInterruptedWorld : World := Machine.world {
  wallClock := fun l => some (if kevents l = 0 then 0 else 200000000)
  rusage := fun _ => some ⟨0, 0, 200⟩
  kevent := fun l => if kevents l = 0 then .ok { ident := 1, filter := EVFILT_TIMER, flags := 0 }
    else .ok { ident := 3, filter := EVFILT_READ, flags := 0 }
  signalByte := fun _ => some 2 }

def limitedConfig : RunConfig :=
  { killAfter := some (.fromSecs 5), limits := { memBytes := some 100 } }

/-- The timeout has passed when the loop looks at the clock; in the grace period the signal
    pipe wakes the wait without a byte. -/
def wokenWorld : World := Machine.world {
  wallClock := fun l =>
    if l.any fun e => e.req == ⟨.monitor, .kqueue⟩ then some 31000000000 else some 0
  kevent := fun _ => .ok { ident := 3, filter := EVFILT_READ, flags := 0 } }

/-- How a run reports a child that was told to terminate. -/
def killedIn (run : Option (Except TimeoutError RunResult × Handles) × Trace) : Option Bool :=
  (run.1.bind fun r => r.1.toOption).bind RunResult.killed

/-- SIGINT is not forwarded after the memory limit: SIGKILL follows at once. After a timeout
    it follows at once, too, when a wake-up without a signal byte ends the grace period. -/
theorem grace_periods_differ :
    (∃ run, run = monitorRun greedyInterruptedWorld 4 limitedConfig 7 ∧
      killedIn run = some true ∧ sends false run.2 = terminationSends limitedConfig true ∧
      Ever (InGrace false (SignalByte .sigint)) run.2 ∧
      (watch (Watch.ofConfig limitedConfig) run.2).clock <
        (watch (Watch.ofConfig limitedConfig) run.2).deadline { asSecs := 5 }) ∧
    ∃ run, run = monitorRun wokenWorld 4 limitedConfig 7 ∧
      killedIn run = some true ∧ sends false run.2 = terminationSends limitedConfig true ∧
      ¬ Ever (InGrace false AnyByte) run.2 ∧
      (watch (Watch.ofConfig limitedConfig) run.2).clock <
        (watch (Watch.ofConfig limitedConfig) run.2).deadline { asSecs := 5 } := by
  refine ⟨⟨_, rfl, ?_⟩, _, rfl, ?_⟩
  · decide +kernel
  · decide +kernel

end Procguard
