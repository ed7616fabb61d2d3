import Procguard.Upkeep
import Procguard.Tenancy
import Procguard.RetryLoop
import Procguard.HookRules

/- Whose processes procguard touches. It starts processes (the command, once an attempt, and
   the hook), signals them and waits for them; a pid is free again once its process has been
   reaped, and may then belong to anybody. `Housed` is the invariant of a supervised run:
   each handle the program holds stands for a process of its own that has not been reaped.
   The monitor's and the throttle's signals are not guarded by a handle; that they come
   before the reap is what the ledger says, and the two are put together here. -/
namespace Procguard
open Interact

/-! ## Processes in the log -/

/-- The pid of a process a call started. -/
def bornPid : Event → Option Int
  | ⟨⟨_, .posixSpawnp _ _ _⟩, .ok pid⟩ => some pid
  | ⟨⟨_, .fork _ _ _ _ _⟩, .ok pid⟩ => some pid
  | _ => none

/-- The pid of a process a wait took the status of. -/
def reapedPid : Event → Option Int
  | ⟨⟨_, .wait4 pid⟩, .ok _⟩ => some pid
  | ⟨⟨_, .wait4NoHang pid⟩, .ok (some _)⟩ => some pid
  | _ => none

/-- The process a call signals or waits for. -/
def Call.target : Call → Option Int
  | .kill pid _ | .killpg pid _ | .wait4 pid | .wait4NoHang pid => some pid
  | _ => none

/-- Everything that is started: the command and the hook. -/
def processes : Tenure Ans Int := ⟨bornPid, reapedPid⟩

/-- What the monitor starts and reaps: the command, once an attempt. -/
def commands : Tenure Ans Int where
  born e := if e.req.caller = .monitor then bornPid e else none
  died e := if e.req.caller = .monitor then reapedPid e else none

theorem bornPid_aside {q : Req} {a : Ans q} (h : q.call.spawns = false) :
    bornPid ⟨q, a⟩ = none := by
  obtain ⟨caller, call⟩ := q
  cases call <;> first | rfl | cases h

/-- An event that starts nothing starts no command. -/
theorem commands_births {e : Event} {p : Int} {l : Trace} (h : bornPid e = none) :
    commands.births p (e :: l) = commands.births p l := by
  refine Tenure.births_of_none ?_
  show (if _ then _ else none) = none
  rw [h]
  exact ite_self _

theorem reapedPid_of_target {q : Req} {a : Ans q} (h : q.call.target = none) :
    reapedPid ⟨q, a⟩ = none := by
  obtain ⟨caller, call⟩ := q
  cases call <;> first | rfl | cases h

theorem aside_target {c : Call} (h : c.aside = true) : c.target = none ∧ c.spawns = false := by
  cases c <;> first | exact ⟨rfl, rfl⟩ | cases h

theorem signalTo_target {e : Event} {p : Int} (h : signalTo e = some p) :
    e.req.call.target = some p := by
  obtain ⟨⟨caller, call⟩, a⟩ := e
  cases call <;> cases caller <;> first | exact h | cases h

/-- The status the monitor got of the command. -/
def waitStatus : Event → Option RawExitStatus
  | ⟨⟨.monitor, .wait4 _⟩, .ok st⟩ => some st.1
  | ⟨⟨.monitor, .wait4NoHang _⟩, .ok (some st)⟩ => some st.1
  | _ => none

/-- The statuses of the command, the last one first. -/
def statuses (l : Trace) : List RawExitStatus := l.filterMap waitStatus

theorem statuses_cons (e : Event) (l : Trace) :
    statuses (e :: l) = (waitStatus e).toList ++ statuses l := by
  cases h : waitStatus e <;> simp [statuses, h]

/-- An event that leaves the command's books as they are. -/
structure Untold (pid : Int) (e : Event) : Prop where
  reap : reapOf pid e = none
  status : waitStatus e = none

theorem Untold.of_none {e : Event} (pid : Int) (h : reapedPid e = none) : Untold pid e := by
  obtain ⟨⟨caller, call⟩, a⟩ := e
  cases call with
  | wait4 p =>
    cases a with
    | error err => cases caller <;> exact ⟨rfl, rfl⟩
    | ok st => cases h
  | wait4NoHang p =>
    rcases a with err | _ | st
    · cases caller <;> exact ⟨rfl, rfl⟩
    · cases caller <;> exact ⟨by simp [reapOf], rfl⟩
    · cases h
  | _ => cases caller <;> exact ⟨rfl, rfl⟩

/-- The hook's process is not the command. -/
theorem Untold.of_hook {call : Call} {a : Ans ⟨.hook, call⟩} (pid : Int) :
    Untold pid ⟨⟨.hook, call⟩, a⟩ := by
  cases call <;> exact ⟨rfl, rfl⟩

/-- The waits of the monitor that took a status, counted. -/
theorem reaps_length (pid : Int) (l : Trace) : (reaps pid l).length = commands.deaths pid l := by
  induction l with
  | nil => rfl
  | cons e l ih =>
    rw [reaps_cons, List.length_append, ih, Tenure.deaths_cons, Nat.add_comm]
    congr 1
    obtain ⟨⟨caller, call⟩, a⟩ := e
    cases call with
    | wait4 p =>
      cases a with
      | error _ => cases caller <;> rfl
      | ok st => cases caller <;> by_cases hp : p = pid <;> simp [reapOf, commands, reapedPid, hp]
    | wait4NoHang p =>
      rcases a with _ | _ | st
      · cases caller <;> rfl
      · cases caller <;> simp [reapOf, commands, reapedPid]
      · cases caller <;> by_cases hp : p = pid <;> simp [reapOf, commands, reapedPid, hp]
    | _ => cases caller <;> rfl

/-! ## The invariant of one attempt -/

/-- The handle of a process that has not been reaped. -/
def RawChild.handle (c : RawChild) : List Int := if c.exited then [] else [c.pid]

/-- What an attempt has added to the log: a handle is closed by a wait that took the status,
    and every status is the command's. -/
structure AttemptLog (pid : Int) (exited : Bool) (t : Trace) : Prop where
  reaped : exited = true → reaps pid t ≠ []
  statuses_eq : statuses t = (reaps pid t).map Prod.fst

theorem AttemptLog.untold {pid : Int} {exited : Bool} {t : Trace} {e : Event}
    (h : AttemptLog pid exited t) (he : Untold pid e) : AttemptLog pid exited (e :: t) where
  reaped hex := by
    rw [reaps_cons]
    exact List.append_ne_nil_of_right_ne_nil _ (h.reaped hex)
  statuses_eq := by
    rw [statuses_cons, reaps_cons, he.reap, he.status]
    exact h.statuses_eq

theorem AttemptLog.told {pid : Int} {exited : Bool} {t : Trace} {e : Event}
    {st : RawExitStatus × Rusage} (h : AttemptLog pid exited t) (hreap : reapOf pid e = some st)
    (hst : waitStatus e = some st.1) : AttemptLog pid true (e :: t) where
  reaped _ := by
    rw [reaps_cons, hreap]
    exact List.cons_ne_nil _ _
  statuses_eq := by
    rw [statuses_cons, reaps_cons, hreap, hst, List.map_append, h.statuses_eq]
    rfl

/-- Since the command was started, which left the log `base`, the handles held are backed:
    those of `extra` and the command's own. -/
structure Housed (base : Trace) (pid : Int) (extra : List Int) (h : Handles) (l : Trace) :
    Prop where
  child_pid : h.child.pid = pid
  backed : processes.Backed (extra ++ h.child.handle) l
  added : ∃ t, l = t ++ base ∧ AttemptLog pid h.child.exited t
  started : ∀ p, commands.births p l = commands.births p base

/-- What each event of an attempt owes. That a signal comes before the reap is left to the
    ledger. -/
structure HouseGuar (base : Trace) (pid : Int) (e : Event) (l : Trace) : Prop where
  own : signalTo e = none → ∀ p, e.req.call.target = some p → processes.Living p l
  signal : ∀ t, l = t ++ base → reaps pid t = [] → processes.Living pid l
  starts : e.req.call.spawns = true → e.req.caller = .hook

def house (base : Trace) (pid : Int) : Contract Ans where
  guar := HouseGuar base pid

namespace Housed
variable {base : Trace} {pid : Int} {extra : List Int} {h h' : Handles} {l : Trace}

/-- An open handle stands for a living process. -/
theorem open_living (H : Housed base pid extra h l) (hopen : h.child.exited = false) :
    processes.Living h.child.pid l := by
  refine H.backed.living (List.mem_append_right _ ?_)
  rw [RawChild.handle, hopen]
  exact List.mem_cons_self ..

/-- While the command is not known to be reaped, it lives. -/
theorem living (H : Housed base pid extra h l) (t : Trace) (hl : l = t ++ base)
    (hreap : reaps pid t = []) : processes.Living pid l := by
  obtain ⟨t', hl', hlog⟩ := H.added
  have hsame : t' = t := List.append_cancel_right (hl'.symm.trans hl)
  have hopen : h.child.exited = false := by
    rw [Bool.eq_false_iff]
    intro hex
    exact hlog.reaped hex (hsame ▸ hreap)
  rw [← H.child_pid]
  exact H.open_living hopen

/-- The log goes on, the handle as it is. -/
theorem grows (H : Housed base pid extra h l) {e : Event} (he : Untold pid e) :
    ∃ t, e :: l = t ++ base ∧ AttemptLog pid h.child.exited t := by
  obtain ⟨t, rfl, hlog⟩ := H.added
  exact ⟨e :: t, rfl, hlog.untold he⟩

/-- An event that starts no process and takes no status. -/
theorem event {e : Event} (H : Housed base pid extra h l) (hb : bornPid e = none)
    (hr : reapedPid e = none) : Housed base pid extra h (e :: l) where
  child_pid := H.child_pid
  backed := H.backed.aside hb hr
  added := H.grows (.of_none pid hr)
  started p := (commands_births hb).trans (H.started p)

/-- The throttle's state is no handle. -/
theorem sameChild (H : Housed base pid extra h l) (hsame : h'.child = h.child) :
    Housed base pid extra h' l := by
  obtain ⟨hpid, hbacked, hadded, hstarted⟩ := H
  rw [← hsame] at hpid hbacked hadded
  exact ⟨hpid, hbacked, hadded, hstarted⟩

/-- What an event of the run owes, if it is about no process that is not ours. -/
theorem guar {q : Req} {a : Ans q} (H : Housed base pid extra h l)
    (hown : signalTo ⟨q, a⟩ = none → ∀ p, q.call.target = some p → processes.Living p l)
    (hstarts : q.call.spawns = true → q.caller = .hook) : HouseGuar base pid ⟨q, a⟩ l :=
  ⟨hown, H.living, hstarts⟩

/-- The command is reaped, and its handle closed. -/
theorem reap {e : Event} {st : RawExitStatus × Rusage} (H : Housed base pid [] h l)
    (hopen : h.child.exited = false) (hb : bornPid e = none) (hr : reapedPid e = some h.child.pid)
    (hreap : reapOf pid e = some st) (hst : waitStatus e = some st.1) :
    Housed base pid [] h.reaped (e :: l) where
  child_pid := H.child_pid
  backed := by
    have hbacked := H.backed
    rw [RawChild.handle, hopen] at hbacked
    exact hbacked.death hb hr
  added := by
    obtain ⟨t, rfl, hlog⟩ := H.added
    exact ⟨e :: t, rfl, hlog.told hreap hst⟩
  started p := (commands_births hb).trans (H.started p)

/-- So is the hook's, while it is open. -/
theorem hook_living {c : RawChild} (H : Housed base pid c.handle h l) (hopen : c.exited = false) :
    processes.Living c.pid l := by
  refine H.backed.living (List.mem_append_left _ ?_)
  rw [RawChild.handle, hopen]
  exact List.mem_cons_self ..

theorem hook_reap {c : RawChild} {call : Call} {a : Ans ⟨.hook, call⟩}
    (H : Housed base pid c.handle h l) (hopen : c.exited = false)
    (hb : bornPid ⟨⟨.hook, call⟩, a⟩ = none) (hr : reapedPid ⟨⟨.hook, call⟩, a⟩ = some c.pid) :
    Housed base pid { c with exited := true : RawChild }.handle h (⟨⟨.hook, call⟩, a⟩ :: l) where
  child_pid := H.child_pid
  backed := by
    have hbacked := H.backed
    rw [RawChild.handle, hopen] at hbacked
    exact hbacked.death hb hr
  added := H.grows (.of_hook pid)
  started p := (commands_births hb).trans (H.started p)

/-- The hook is started, and its handle held. -/
theorem hook_born {call : Call} {a : Ans ⟨.hook, call⟩} {p : Int} (H : Housed base pid [] h l)
    (hb : bornPid ⟨⟨.hook, call⟩, a⟩ = some p) (hr : reapedPid ⟨⟨.hook, call⟩, a⟩ = none) :
    Housed base pid [p] h (⟨⟨.hook, call⟩, a⟩ :: l) where
  child_pid := H.child_pid
  backed := H.backed.birth hb hr
  added := H.grows (.of_hook pid)
  started q := by
    rw [Tenure.births_of_none (by rfl), H.started]

/-- What the hook leaves behind is forgotten. -/
theorem forget (H : Housed base pid extra h l) : Housed base pid [] h l :=
  ⟨H.child_pid, H.backed.forget (List.sublist_append_right _ _), H.added, H.started⟩

/-- A call about no process. -/
theorem asks_aside (H : Housed base pid extra h l) {q : Req} (hq : q.call.aside = true) :
    Asks (house base pid) q l fun _ l' => Housed base pid extra h l' := by
  obtain ⟨htarget, hspawns⟩ := aside_target hq
  intro a _
  refine ⟨H.guar (fun _ p hp => ?_) fun hs => ?_, H.event (bornPid_aside hspawns) (reapedPid_of_target htarget)⟩
  · rw [htarget] at hp
    cases hp
  · rw [hspawns] at hs
    cases hs

/-- A signal, if it is not the hook's own. -/
theorem asks_signal (H : Housed base pid extra h l) {q : Req} (hsig : ∀ a, signalTo ⟨q, a⟩ ≠ none) :
    Asks (house base pid) q l fun _ l' => Housed base pid extra h l' := by
  intro a _
  have hspawns : q.call.spawns = false ∧ reapedPid ⟨q, a⟩ = none := by
    have h := hsig a
    obtain ⟨caller, call⟩ := q
    cases call <;> first | exact ⟨rfl, rfl⟩ | (cases caller <;> exact absurd rfl h)
  refine ⟨H.guar (fun hno => absurd hno (hsig a)) fun hs => ?_, H.event (bornPid_aside hspawns.1) hspawns.2⟩
  rw [hspawns.1] at hs
  cases hs

/-- The monitor waits for the command. -/
theorem asks_wait (H : Housed base pid [] h l) (hopen : h.child.exited = false) :
    Asks (house base pid) ⟨.monitor, .wait4 h.child.pid⟩ l fun r l' => match r with
      | .ok _ => Housed base pid [] h.reaped l'
      | .error _ => Housed base pid [] h l' := by
  intro r _
  refine ⟨H.guar (fun _ p hp => ?_) (by rintro ⟨⟩), ?_⟩
  · cases hp
    exact H.open_living hopen
  · cases r with
    | ok st => exact H.reap hopen rfl rfl (if_pos H.child_pid) rfl
    | error err => exact H.event rfl rfl

theorem asks_poll (H : Housed base pid [] h l) (hopen : h.child.exited = false) :
    Asks (house base pid) ⟨.monitor, .wait4NoHang h.child.pid⟩ l fun r l' => match r with
      | .ok (some _) => Housed base pid [] h.reaped l'
      | _ => Housed base pid [] h l' := by
  intro r _
  refine ⟨H.guar (fun _ p hp => ?_) (by rintro ⟨⟩), ?_⟩
  · cases hp
    exact H.open_living hopen
  · rcases r with err | _ | st
    · exact H.event rfl rfl
    · exact H.event rfl rfl
    · exact H.reap hopen rfl rfl (if_pos H.child_pid) rfl

end Housed

/-! ## The hook -/

section hook
variable {base : Trace} {pid : Int} {h : Handles} {l : Trace} {c : RawChild} {fuel : Nat}

/-- The hook runs: its handle is held beside the command's. -/
abbrev HookHoused (base : Trace) (pid : Int) (h : Handles) (c : RawChild) (l : Trace) : Prop :=
  Housed base pid c.handle h l

/-- Calls about no process keep `J`. -/
def HookAside (base : Trace) (pid : Int) (J : RawChild → Trace → Prop) : Prop :=
  ∀ q c l, q.call.aside = true → J c l → Asks (house base pid) q l fun _ l' => J c l'

theorem HookHoused.aside : HookAside base pid (HookHoused base pid h) :=
  fun _ _ _ hq H => H.asks_aside hq

section aside
variable {J : RawChild → Trace → Prop}

theorem HookAside.nowOr {ε : Type} (hJ : HookAside base pid J) (confine : Confine) (d : Nat) :
    Act.Stays (house base pid) J (nowOr .hook confine d : Act Ans RawChild ε Nat) := by
  refine .exec fun c l H => ?_
  cases confine with
  | wall => exact (hJ ⟨.hook, .wallNow⟩ c l rfl H).mono fun r H' => by cases r <;> exact H'
  | active => exact hJ ⟨.hook, .activeNow⟩ c l rfl H

theorem HookAside.elapsed (hJ : HookAside base pid J) (config : RunConfig) (startNs : Nat) :
    Act.Stays (house base pid) J (hookElapsedMs config startNs : HookAct Nat) :=
  .bind (hJ.nowOr _ _) fun _ => .pure

theorem HookAside.line (hJ : HookAside base pid J) (config : RunConfig) (line : String) :
    Act.Stays (house base pid) J (hookLine config line) :=
  .ite (.bind (.call fun c l H => hJ _ c l rfl H) fun _ => .pure) .pure

end aside

/-- The hook's own wait. -/
theorem hookChildWait_housed (fuel : Nat) :
    Act.Stays (house base pid) (HookHoused base pid h) (hookChildWait fuel) := by
  refine .attempt fun c l H => ?_
  simp only [RawChild.wait, Act.ensures_bind, Act.ensures_get, id]
  refine Act.ensures_ite (fun _ => H) fun hopen => ?_
  have hopen : c.exited = false := by simpa using hopen
  simp only [Act.ensures_bind, Act.ensures_modify, Act.ensures_pure]
  refine Act.ensures_iterate (fun _ s l => s = c ∧ HookHoused base pid h c l) ?_
    (fun _ _ _ _ => trivial) fuel ⟨rfl, H⟩
  rintro _ s l ⟨rfl, H⟩
  simp only [RawChild.waitRound, Act.ensures_bind, Act.ensures_call]
  intro a _
  refine ⟨H.guar (fun _ p hp => ?_) (by rintro ⟨⟩), ?_⟩
  · cases hp
    exact H.hook_living hopen
  cases a with
  | ok st => exact H.hook_reap hopen rfl rfl
  | error err =>
    exact Act.ensures_ite (fun _ => ⟨rfl, H.event rfl rfl⟩) fun _ => H.event rfl rfl

theorem hookChildTryWait_housed :
    Act.Stays (house base pid) (HookHoused base pid h) hookChildTryWait := by
  refine .attempt fun c l H => ?_
  simp only [RawChild.tryWait, Act.ensures_bind, Act.ensures_get, id]
  refine Act.ensures_ite (fun _ => H) fun hopen => ?_
  have hopen : c.exited = false := by simpa using hopen
  simp only [Act.ensures_bind, Act.ensures_call]
  intro a _
  refine ⟨H.guar (fun _ p hp => ?_) (by rintro ⟨⟩), ?_⟩
  · cases hp
    exact H.hook_living hopen
  rcases a with err | _ | st
  · exact H.event rfl rfl
  · exact H.event rfl rfl
  · exact H.hook_reap hopen rfl rfl

theorem hookReap_housed (fuel : Nat) :
    Act.Stays (house base pid) (HookHoused base pid h) (hookReap fuel) := by
  refine .bind (hookChildWait_housed fuel) fun r => ?_
  cases r <;> exact .pure

/-- A call of the hook that is about no process. -/
theorem hookCall_housed {call : Call} (hcall : call.aside = true) :
    Act.Stays (house base pid) (HookHoused base pid h)
      (sys .hook call : HookAct (Ans ⟨.hook, call⟩)) := .call fun _ _ H => H.asks_aside hcall

theorem hookClose_housed (kq : Int) :
    Act.Stays (house base pid) (HookHoused base pid h) (hookClose kq) :=
  .bind (hookCall_housed rfl) fun _ => .pure

theorem hookRound_housed (p kq : Int) (confine : Confine) (deadlineNs : Nat) :
    Act.Stays (house base pid) (HookHoused base pid h)
      (hookRound fuel p kq confine deadlineNs ()) := by
  refine .bind (HookHoused.aside.nowOr confine _) fun nowNs => .ite (.bind (hookClose_housed kq) fun _ => .pure)
    (.bind (hookCall_housed rfl) fun r => ?_)
  cases r with
  | ok ev => exact .pure
  | error err =>
    refine .ite .pure (.ite (.bind (hookClose_housed kq) fun _ => .bind hookChildTryWait_housed
      fun r => ?_) (.bind (hookClose_housed kq) fun _ => .pure))
    rcases r with e | _ | st
    · exact .pure
    · exact .bind (hookReap_housed fuel) fun _ => .pure
    · exact .pure

theorem waitForHook_housed (timeout : Duration) (confine : Confine) :
    Act.Stays (house base pid) (HookHoused base pid h)
      (waitForHookWithKqueue fuel timeout confine) := by
  refine .bind_get fun c l H => Act.Stays.bind (HookHoused.aside.nowOr confine 0) (fun startNs => ?_) c l H
  refine .bind (hookCall_housed rfl) fun r => ?_
  cases r with
  | error errno => exact .pure
  | ok kq =>
    refine .bind (.iterate (fun _ => hookRound_housed _ _ _ _) (fun _ _ _ => trivial) fuel ())
      fun r => ?_
    cases r with
    | inl r => exact .pure
    | inr ev =>
      exact .bind (hookClose_housed kq) fun _ => .ite (.ite (hookReap_housed fuel) .pure)
        (.ite (hookReap_housed fuel) .pure)

/-- The wait found the time to be up. -/
def HookWaitResult.timeUp : HookWaitResult → Bool
  | .timedOut => true
  | _ => false

/-- A wait that took a status, or failed to, does not say that the time is up. -/
theorem hookReap_result (fuel : Nat) (c : RawChild) (l : Trace) :
    (hookReap fuel).Ensures {} c l fun r _ _ => ∀ w, r = .ok w → w.timeUp = false := by
  refine Act.ensures_last (by rintro _ _ ⟨⟩) fun r c l => ?_
  cases r with
  | ok st =>
    rintro _ ⟨⟩
    rfl
  | error e =>
    rintro _ ⟨⟩
    rfl

theorem hookGone_result (fuel : Nat) (c : RawChild) (l : Trace) :
    (hookChildTryWait >>= fun r => match r with
      | .ok (some (status, _)) => pure (.inr (.inl (.exited status)))
      | .ok none => do
        let r ← hookReap fuel
        pure (.inr (.inl r))
      | .error e => pure (.inr (.inl (.error e.display))) :
        HookAct (Unit ⊕ (HookWaitResult ⊕ Kevent))).Ensures {} c l fun r _ _ => ∀ x, r = .ok x →
      ∃ w, x = .inr (.inl w) ∧ w.timeUp = false := by
  refine Act.ensures_last (by rintro _ _ ⟨⟩) fun r c l => ?_
  rcases r with e | _ | st
  · rintro _ ⟨⟩
    exact ⟨_, rfl, rfl⟩
  · rw [Act.ensures_bind]
    refine (hookReap_result fuel c l).mono fun r c' l' hr => ?_
    cases r with
    | error e => cases e
    | ok w =>
      rintro _ ⟨⟩
      exact ⟨w, rfl, hr w rfl⟩
  · rintro _ ⟨⟩
    exact ⟨_, rfl, rfl⟩

theorem hookNow_bind {α : Type} {confine : Confine} {d : Nat} {f : Nat → HookAct α}
    {c : RawChild} {l : Trace} {P : Except Empty α → RawChild → Prop}
    (hf : ∀ n l, (f n).Ensures {} c l fun r c' _ => P r c') :
    (nowOr .hook confine d >>= f).Ensures {} c l fun r c' _ => P r c' := by
  rw [Act.ensures_bind, nowOr, Act.ensures_exec]
  cases confine with
  | wall => exact fun r _ => ⟨trivial, by cases r <;> exact hf _ _⟩
  | active => exact fun t _ => ⟨trivial, hf _ _⟩

theorem hookClose_bind {α : Type} {kq : Int} {f : Unit → HookAct α} {c : RawChild} {l : Trace}
    {Post : Except Empty α → RawChild → Trace → Prop}
    (hf : ∀ l, (f ()).Ensures {} c l Post) : (hookClose kq >>= f).Ensures {} c l Post :=
  Act.ensures_bind.mpr fun _ _ => ⟨trivial, hf _⟩

/-- A round that goes on, hands an event on or finds the time up has waited for nobody. -/
theorem hookRound_untouched (p kq : Int) (confine : Confine) (deadlineNs : Nat) (c : RawChild)
    (l : Trace) :
    (hookRound fuel p kq confine deadlineNs ()).Ensures {} c l fun r c' _ => ∀ x, r = .ok x →
      (∀ w, x = .inr (.inl w) → w.timeUp = true) → c' = c := by
  refine hookNow_bind fun nowNs l => Act.ensures_ite (fun _ => ?_) fun _ => ?_
  · exact hookClose_bind fun l _ _ _ => rfl
  · simp only [Act.ensures_bind, Act.ensures_call]
    intro r _
    refine ⟨trivial, ?_⟩
    cases r with
    | ok ev => exact fun _ _ _ => rfl
    | error err =>
      refine Act.ensures_ite (fun _ _ _ _ => rfl) fun _ => Act.ensures_ite (fun _ => ?_) fun _ => ?_
      · refine hookClose_bind fun l => (hookGone_result fuel c l).mono ?_
        intro r c' l' hr x hx hup
        obtain ⟨w, rfl, hw⟩ := hr x hx
        rw [hup w rfl] at hw
        cases hw
      · exact hookClose_bind fun l _ _ _ => rfl

theorem waitForHook_untouched (timeout : Duration) (confine : Confine) (c : RawChild) (l : Trace) :
    (waitForHookWithKqueue fuel timeout confine).Ensures {} c l fun r c' _ =>
      ∀ w, r = .ok w → w.timeUp = true → c' = c := by
  rw [waitForHookWithKqueue, Act.ensures_bind, Act.ensures_get]
  refine hookNow_bind fun startNs l => ?_
  simp only [Act.ensures_bind, Act.ensures_call]
  intro r _
  refine ⟨trivial, ?_⟩
  cases r with
  | error errno => exact fun _ _ _ => rfl
  | ok kq =>
    refine Act.ensures_bind.mpr ?_
    refine Act.ensures_iterate (fun _ s _ => s = c) ?_ (fun _ _ _ _ => trivial) fuel rfl
    rintro _ s l rfl
    refine (hookRound_untouched s.pid kq confine _ s l).mono fun r c' l' hr => ?_
    rcases r with e | _ | w | ev
    · cases e
    · exact hr _ rfl (by rintro _ ⟨⟩)
    · intro w' hw hup
      cases hw
      exact hr _ rfl fun w' hw' => by cases hw'; exact hup
    · obtain rfl := hr _ rfl (by rintro _ ⟨⟩)
      refine hookClose_bind fun l => ?_
      have hreap : (hookReap fuel).Ensures {} c' l fun r c'' _ => ∀ w, r = .ok w →
          w.timeUp = true → c'' = c' :=
        (hookReap_result fuel c' l).mono fun r _ _ hr w hw hup =>
          absurd ((hr w hw).symm.trans hup) (by decide)
      refine Act.ensures_ite (fun _ => Act.ensures_ite (fun _ => hreap) fun _ _ _ _ => rfl)
        fun _ => Act.ensures_ite (fun _ => hreap) fun _ _ _ _ => rfl

/-- The hook's group is killed only while the hook has not been reaped. -/
theorem superviseHook_housed {config : RunConfig} {startNs : Nat} (H : HookHoused base pid h c l)
    (hopen : c.exited = false) :
    (superviseHook fuel config startNs).Ensures (house base pid) c l fun _ c' l' =>
      HookHoused base pid h c' l' := by
  rw [superviseHook, Act.ensures_bind]
  refine ((waitForHook_housed _ _ c l H).with (waitForHook_untouched _ _ c l)).mono ?_
  rintro r c' l' ⟨H', hsame⟩
  cases r with
  | error e => cases e
  | ok w =>
  cases w with
  | exited status =>
    refine Act.Stays.bind (HookHoused.aside.elapsed config startNs) (fun ms => ?_) c' l' H'
    dsimp only
    cases status.code with
    | none => exact .pure
    | some code => exact .ite (.bind (HookHoused.aside.line config _) fun _ => .pure) .pure
  | error e =>
    refine Act.Stays.bind (HookHoused.aside.elapsed config startNs) (fun ms => ?_) c' l' H'
    exact .bind (HookHoused.aside.line config _) fun _ => .pure
  | timedOut =>
    have hc' : c' = c := hsame _ rfl rfl
    -- until the kill the handle is the one the wait began with
    let J (s : RawChild) (l : Trace) : Prop := s = c ∧ HookHoused base pid h s l
    have hJ : HookAside base pid J := fun q s l hq hJ => (hJ.2.asks_aside hq).mono fun _ H => ⟨hJ.1, H⟩
    have hJ' : J c' l' := ⟨hc', hc' ▸ H'⟩
    dsimp only
    rw [Act.ensures_bind]
    refine (hJ.elapsed config startNs c' l' hJ').mono ?_
    rintro r s l₂ ⟨hs, H₂⟩
    cases r with
    | error e => cases e
    | ok ms =>
    dsimp only
    rw [Act.ensures_bind]
    refine (hJ.line config _ s l₂ ⟨hs, H₂⟩).mono ?_
    rintro r s' l₃ ⟨hs', H₃⟩
    cases r with
    | error e => cases e
    | ok _ =>
    have hopen' : s'.exited = false := by rw [hs', hopen]
    simp only [Act.ensures_bind, Act.ensures_get, Act.ensures_call]
    intro a _
    refine ⟨H₃.guar (fun _ p hp => ?_) (by rintro ⟨⟩), ?_⟩
    · cases hp
      exact H₃.hook_living hopen'
    · exact (hookChildWait_housed fuel s' _ (H₃.event rfl rfl)).mono fun r _ _ H => by
        cases r <;> exact H

/-- **The hook's calls are about the hook's own process.** -/
theorem runOnTimeoutHook_housed {config : RunConfig} (cmd : String) (p : Int)
    (H : Housed base pid [] h l) :
    (runOnTimeoutHook fuel cmd p config).Ensures (house base pid) l fun _ l' =>
      Housed base pid [] h l' := by
  -- what the script does besides the spawn leaves the household as it is
  have hJ : HookAside base pid fun _ l => Housed base pid [] h l :=
    fun _ _ _ hq H => H.asks_aside hq
  have hscript : (hookScript fuel cmd p config).Ensures (house base pid) { pid := 0 } l
      fun _ _ l' => Housed base pid [] h l' := by
    rw [hookScript, Act.ensures_bind]
    refine (hJ.nowOr config.confine 0 _ l H).mono fun r c l H => ?_
    cases r with
    | error e => cases e
    | ok startNs =>
    generalize expandHookCmd cmd p = expandedCmd
    dsimp only
    rw [Act.ensures_bind]
    refine (hJ.line config _ c l H).mono fun r c l H => ?_
    cases r with
    | error e => cases e
    | ok _ =>
    dsimp only
    rw [Act.ensures_bind, Act.ensures_exec]
    -- a hook that does not start adds no process
    have hfailed : ∀ e : SpawnError, ∀ l, Housed base pid [] h l →
        (do
          let errText := e.display
          hookLine config s!"timeout: on-timeout hook failed to start: {errText}"
          let elapsedMs ← hookElapsedMs config startNs
          pure ({ elapsedMs } : HookResult) : HookAct HookResult).Ensures (house base pid) c l
          fun _ _ l' => Housed base pid [] h l' := fun e l H =>
      Act.Stays.bind (hJ.line config _) (fun _ => .bind (hJ.elapsed config startNs) fun _ => .pure)
        c l H
    unfold spawnCommand
    split
    · exact hfailed _ l H
    -- one that starts is in the household until its supervision is done with it
    · intro r _
      refine ⟨H.guar (by rintro _ _ ⟨⟩) fun _ => rfl, ?_⟩
      cases r with
      | error errno => exact hfailed _ _ (H.event rfl rfl)
      | ok q =>
        simp only [Act.ensures_bind, Act.ensures_modify, Prog.Ensures]
        refine (superviseHook_housed (c := { pid := q }) (H.hook_born rfl rfl) rfl).mono
          fun _ c' _ H => ?_
        exact H.forget
  refine Prog.ensures_bind.mpr (Prog.Ensures.mono ?_ hscript)
  rintro ⟨r, c'⟩ l' H
  cases r with
  | error e => cases e
  | ok _ => exact H

end hook

/-! ## One attempt -/

section attempt
variable {base : Trace} {pid : Int} {config : RunConfig} {h : Handles} {l : Trace}
  {ctx : ThrottleContext}

/-- The throttle reads and signals; it starts and reaps nobody. -/
theorem update_housed (nowNs : Nat) (H : Housed base pid [] h l) :
    (CpuThrottleState.update ctx.cfg nowNs).Ensures (house base pid) ctx.state l fun _ st l' =>
      Housed base pid [] { h with throttle := some { ctx with state := st } } l' := by
  have hask : Act.Asking (fun q => q.call.aside = true ∨ ∀ a, signalTo ⟨q, a⟩ ≠ none)
      (CpuThrottleState.update ctx.cfg nowNs) :=
    CpuThrottleState.asking_update (fun _ _ => Or.inr fun _ => Option.some_ne_none _) (fun _ => .inl rfl) ctx.cfg nowNs
  refine (hask.ensures (fun l => Housed base pid [] h l) ?_ (fun _ _ => trivial) H).mono
    fun _ _ _ H => H.sameChild rfl
  rintro q l (hq | hq) H
  · exact H.asks_aside hq
  · exact H.asks_signal hq

theorem resume_housed (H : Housed base pid [] h l) :
    CpuThrottleState.resume.Ensures (house base pid) ctx.state l fun _ st l' =>
      Housed base pid [] { h with throttle := some { ctx with state := st } } l' := by
  rw [CpuThrottleState.ensures_resume]
  split
  · have hasks := H.asks_signal (q := ⟨.throttle, .kill ctx.state.pid SIGCONT⟩)
      fun _ => Option.some_ne_none _
    exact hasks.mono fun _ H => H.sameChild rfl
  · exact H.sameChild rfl

/-- Every call of the monitor keeps the handles backed. -/
theorem housed_upkeep (base : Trace) (pid : Int) (config : RunConfig) :
    Upkeep (house base pid) config pid (Housed base pid []) where
  cut _ _ _ := trivial
  aside _ _ _ hq H := H.asks_aside hq
  wait _ _ H hopen := H.asks_wait hopen
  poll _ _ H hopen := H.asks_poll hopen
  update _ _ _ nowNs H _ := update_housed nowNs H
  child _ _ H := H.child_pid
  signal _ _ _ _ hq H := by
    rcases hq with rfl | rfl <;> exact H.asks_signal fun _ => Option.some_ne_none _
  attach _ _ _ _ H _ := H.sameChild rfl
  resume _ _ _ H _ := resume_housed H
  mark _ _ H := H.sameChild rfl
  hook _ cmd _ _ H := runOnTimeoutHook_housed cmd pid H

/-! ## What the monitor returns -/

section returns
variable {R : RunResult → Prop} {fuel : Nat}

theorem reapAs_gives {result : RawExitStatus → ResourceUsage → RunResult}
    (hresult : ∀ status rusage, R (result status rusage)) : Act.Returns R (reapAs fuel result) :=
  .last fun _ => .last fun _ => .pure (hresult _ _)

theorem killAndReap_gives {result : RawExitStatus → ResourceUsage → RunResult}
    (hresult : ∀ status rusage, R (result status rusage)) :
    Act.Returns R (killAndReap fuel config pid result) :=
  .last fun _ => .last fun _ => reapAs_gives hresult

theorem forwardSignal_gives {sig : Signal}
    (hforward : ∀ sig status rusage, R (.signalForwarded sig status rusage)) :
    Act.Returns R (forwardSignal fuel config pid sig) := by
  refine .last fun _ => .last fun _ => .last fun _ => .last fun r => .last fun _ => ?_
  cases r with
  | ok _ => exact .pure (hforward _ _ _)
  | error _ => exact .pure (hforward _ _ _)

theorem onMemoryLimit_gives {limitBytes actualBytes : Nat}
    (hmemory : ∀ killed status rusage, R (.memoryLimitExceeded config.signal killed (some status)
      (some rusage) limitBytes actualBytes)) :
    Act.Returns R (onMemoryLimit fuel config pid limitBytes actualBytes) := by
  refine .last fun _ => .last fun _ => .last fun _ => ?_
  cases config.killAfter with
  | none => exact reapAs_gives fun _ _ => hmemory _ _ _
  | some killAfter =>
    refine .last fun r => ?_
    cases r with
    | exited _ _ => exact .last fun _ => .pure (hmemory _ _ _)
    | timedOut _ => exact killAndReap_gives fun _ _ => hmemory _ _ _
    | memoryLimitExceeded _ _ => exact killAndReap_gives fun _ _ => hmemory _ _ _
    | receivedSignal _ => exact killAndReap_gives fun _ _ => hmemory _ _ _

theorem afterHook_gives {reason : TimeoutReason} {hook : Option HookResult}
    (htimeout : ∀ killed status rusage, R (.timedOut config.signal killed (some status)
      (some rusage) hook reason))
    (hforward : ∀ sig status rusage, R (.signalForwarded sig status rusage)) :
    Act.Returns R (afterHook fuel config pid reason hook) := by
  refine .last fun _ => .last fun _ => .last fun _ => ?_
  cases config.killAfter with
  | none => exact reapAs_gives fun _ _ => htimeout _ _ _
  | some killAfter =>
    refine .last fun r => ?_
    cases r with
    | exited _ _ => exact .last fun _ => .pure (htimeout _ _ _)
    | receivedSignal sig => exact forwardSignal_gives hforward
    | timedOut _ => exact .last fun _ => killAndReap_gives fun _ _ => htimeout _ _ _
    | memoryLimitExceeded _ _ => exact .last fun _ => killAndReap_gives fun _ _ => htimeout _ _ _

theorem onTimeout_gives {reason : TimeoutReason}
    (htimeout : ∀ killed status rusage hook, R (.timedOut config.signal killed (some status)
      (some rusage) hook reason))
    (hforward : ∀ sig status rusage, R (.signalForwarded sig status rusage)) :
    Act.Returns R (onTimeout fuel config pid reason) := by
  rw [onTimeout_eq]
  exact .last fun _ => .last fun hook => afterHook_gives (fun _ _ _ => htimeout _ _ _ hook) hforward

end returns

/-- A result that may be retried reports a status. -/
def Tells (x : RunResult) : Prop := retriable x = true → x.report.1.isSome = true

theorem monitorWithTimeout_tells {fuel : Nat} :
    Act.Returns Tells (monitorWithTimeout fuel config) := by
  refine .last fun h => .last fun t => .onExit (.last fun _ => .last fun r => ?_)
  cases r with
  | exited _ _ => exact .last fun _ => .pure (by rintro ⟨⟩)
  | receivedSignal sig => exact forwardSignal_gives fun _ _ _ => by rintro ⟨⟩
  | memoryLimitExceeded _ _ => exact onMemoryLimit_gives fun _ _ _ _ => rfl
  | timedOut reason => exact onTimeout_gives (fun _ _ _ _ _ => rfl) fun _ _ _ => by rintro ⟨⟩

end attempt
end Procguard
