import Mathlib

/- `AtomicOnce` (sync.rs): a cell that can be written to only once.

   The cell is an atomic state and a slot; `get`, `set` and `get_or_init` reach it
   from any number of threads. Each thread has a program counter of its own, and one
   step of the system is one access of one thread: a load, a compare-exchange, a
   store, a read or a write of the slot, or a return. A closure of `get_or_init`
   that itself asks something of the cell is one more thread here.

   Over it stands the protocol the comments of the source describe: the slot is
   nobody's, then one thread's, then everybody's to read (`Stage`). Every step of the
   cell is a step of the protocol or changes nothing of it (`step_refines`), and what
   is promised of the cell is read off the stage it has reached. -/
namespace Procguard
namespace AtomicOnce

variable {Tid V : Type}

/-! ## The cell and its steps -/

inductive CellState where
  | uninit
  | initializing
  | initialized
  deriving DecidableEq

inductive Op (V : Type) where
  | get
  | set (value : V)
  | getOrInit

/-- What an operation returns; a `set` with the value it was given. -/
inductive Outcome (V : Type) where
  | got (value : Option V)
  | set (value : V) (result : Except V Unit)
  | inited (value : V)

/-- The next access of a thread. -/
inductive Pc (V : Type) where
  | idle
  | getLoad
  | getRead
  | setCas (value : V)
  | setWrite (value : V)
  | setPublish (value : V)
  | initLoad
  | initCas
  | initRun
  | initWait
  | initWrite (value : V)
  | initPublish (value : V)
  | initSpin
  | initRead
  | returning (out : Outcome V)

inductive Event (Tid V : Type) where
  | invoked (t : Tid) (op : Op V)
  | ran (t : Tid)
  | stored (t : Tid) (value : V)
  | returned (t : Tid) (out : Outcome V)
  | undefined (t : Tid)

/-- The cell, where each thread stands, and what has happened, newest first. -/
structure Cell (Tid V : Type) where
  state : CellState
  value : Option V
  pc : Tid → Pc V
  log : List (Event Tid V)

def new : Cell Tid V := { state := .uninit, value := none, pc := fun _ => .idle, log := [] }

/-- A thread invokes an operation, its closure returns, or it makes its next access. -/
inductive Action (V : Type) where
  | invoke (op : Op V)
  | closure (value : V)
  | advance

def Op.entry : Op V → Pc V
  | .get => .getLoad
  | .set v => .setCas v
  | .getOrInit => .initLoad

def Cell.note (c : Cell Tid V) (e : Event Tid V) : Cell Tid V := { c with log := e :: c.log }

section Steps
variable [DecidableEq Tid]

def Cell.goto (c : Cell Tid V) (t : Tid) (p : Pc V) : Cell Tid V :=
  { c with pc := Function.update c.pc t p }

/-- The next access of thread `t`. -/
def advance (c : Cell Tid V) (t : Tid) : Option (Cell Tid V) :=
  match c.pc t with
  | .idle => none
  | .getLoad =>
    if c.state = .initialized then c.goto t .getRead else c.goto t (.returning (.got none))
  | .getRead => c.goto t (.returning (.got c.value))
  | .setCas v =>
    if c.state = .uninit then { c with state := .initializing }.goto t (.setWrite v)
    else c.goto t (.returning (.set v (.error v)))
  | .setWrite v => ({ c with value := some v }.note (.stored t v)).goto t (.setPublish v)
  | .setPublish v => { c with state := .initialized }.goto t (.returning (.set v (.ok ())))
  | .initLoad => if c.state = .initialized then c.goto t .initRead else c.goto t .initCas
  | .initCas =>
    match c.state with
    | .uninit => { c with state := .initializing }.goto t .initRun
    | .initializing => c.goto t .initSpin
    | .initialized => c.goto t .initRead
  | .initRun => (c.note (.ran t)).goto t .initWait
  | .initWait => none
  | .initWrite v => ({ c with value := some v }.note (.stored t v)).goto t (.initPublish v)
  | .initPublish _ => { c with state := .initialized }.goto t .initRead
  | .initSpin => if c.state = .initializing then c.goto t .initSpin else c.goto t .initRead
  | .initRead =>
    match c.value with
    | some v => c.goto t (.returning (.inited v))
    -- `unwrap_unchecked` of nothing
    | none => (c.note (.undefined t)).goto t .idle
  | .returning out => (c.note (.returned t out)).goto t .idle

def step (c : Cell Tid V) (t : Tid) : Action V → Option (Cell Tid V)
  | .invoke op =>
    match c.pc t with
    | .idle => (c.note (.invoked t op)).goto t op.entry
    | _ => none
  | .closure v =>
    match c.pc t with
    | .initWait => c.goto t (.initWrite v)
    | _ => none
  | .advance => advance c t

/-- Some thread makes some step. -/
def Steps (c c' : Cell Tid V) : Prop := ∃ t a, step c t a = some c'

/-- What any schedule of any threads can bring the new cell to. -/
def Reachable (c : Cell Tid V) : Prop := Relation.ReflTransGen Steps new c

end Steps

/-! ## What the log tells -/

def Event.thread : Event Tid V → Tid
  | .invoked t _ | .ran t | .stored t _ | .returned t _ | .undefined t => t

def Event.stored? : Event Tid V → Option (Tid × V)
  | .stored t v => some (t, v)
  | _ => none

def Event.ran? : Event Tid V → Option Tid
  | .ran t => some t
  | _ => none

def Event.won? : Event Tid V → Option (Tid × V)
  | .returned t (.set v (.ok ())) => some (t, v)
  | _ => none

/-- The value a `get` or a `get_or_init` has returned. -/
def Event.shown? : Event Tid V → Option V
  | .returned _ (.got v) => v
  | .returned _ (.inited v) => some v
  | _ => none

/-- The values stored, each with its writer. -/
def stores (log : List (Event Tid V)) : List (Tid × V) := log.filterMap Event.stored?

/-- The threads whose closures were run, one entry for each run. -/
def runs (log : List (Event Tid V)) : List Tid := log.filterMap Event.ran?

/-- The `set`s that returned `Ok`. -/
def wins (log : List (Event Tid V)) : List (Tid × V) := log.filterMap Event.won?

def shown (log : List (Event Tid V)) : List V := log.filterMap Event.shown?

/-- The log as thread `t` last invoked an operation. -/
def before [DecidableEq Tid] (t : Tid) : List (Event Tid V) → List (Event Tid V)
  | [] => []
  | .invoked u _ :: older => if u = t then older else before t older
  | _ :: older => before t older

theorem shown_before [DecidableEq Tid] {t : Tid} {log : List (Event Tid V)}
    (h : shown log = []) : shown (before t log) = [] := by
  induction log with
  | nil => exact h
  | cons e older ih =>
    have hold : shown older = [] := by
      rw [shown, List.filterMap_cons] at h
      split at h
      · exact h
      · cases h
    cases e with
    | invoked u op =>
      rw [before]
      split
      · exact hold
      · exact ih hold
    | _ => exact ih hold

/-! ## The protocol -/

/-- How far the thread that has won the slot is: it has claimed it, run its closure,
stored its value, or published it without having said so yet. -/
inductive Hold (V : Type) where
  | claimed
  | ran
  | stored (value : V) (byInit : Bool)
  | published (value : V)

/-- The slot is nobody's, one thread's, or everybody's to read. -/
inductive Stage (Tid V : Type) where
  | fresh
  | held (t : Tid) (h : Hold V)
  | settled (t : Tid) (value : V) (byInit : Bool)

inductive Stage.Next : Stage Tid V → Stage Tid V → Prop
  | claim (t : Tid) : Next .fresh (.held t .claimed)
  | run (t : Tid) : Next (.held t .claimed) (.held t .ran)
  | storeSet (t : Tid) (v : V) : Next (.held t .claimed) (.held t (.stored v false))
  | storeInit (t : Tid) (v : V) : Next (.held t .ran) (.held t (.stored v true))
  | publish (t : Tid) (v : V) : Next (.held t (.stored v false)) (.held t (.published v))
  | settle (t : Tid) (v : V) : Next (.held t (.stored v true)) (.settled t v true)
  | tell (t : Tid) (v : V) : Next (.held t (.published v)) (.settled t v false)

/-- What of the cell the protocol is about. -/
structure View (Tid V : Type) where
  state : CellState
  value : Option V
  stores : List (Tid × V)
  runs : List Tid
  wins : List (Tid × V)

def Hold.view (t : Tid) : Hold V → View Tid V
  | .claimed => ⟨.initializing, none, [], [], []⟩
  | .ran => ⟨.initializing, none, [], [t], []⟩
  | .stored v byInit => ⟨.initializing, some v, [(t, v)], if byInit then [t] else [], []⟩
  | .published v => ⟨.initialized, some v, [(t, v)], [], []⟩

def Stage.view : Stage Tid V → View Tid V
  | .fresh => ⟨.uninit, none, [], [], []⟩
  | .held t h => h.view t
  | .settled t v byInit =>
    ⟨.initialized, some v, [(t, v)], if byInit then [t] else [], if byInit then [] else [(t, v)]⟩

/-- **The protocol writes once**: in every stage at most one value is stored, and at most
one closure was run or one `set` returned `Ok`, not both. -/
theorem Stage.view_once (s : Stage Tid V) :
    s.view.stores.length ≤ 1 ∧ s.view.runs.length + s.view.wins.length ≤ 1 ∧
      (∀ w ∈ s.view.wins, s.view.stores = [w]) ∧
      (∀ v, s.view.value = some v → ∃ t, s.view.stores = [(t, v)]) := by
  cases s with
  | fresh => simp [view]
  | held t h =>
    cases h with
    | stored v byInit => cases byInit <;> simp [view, Hold.view]
    | _ => simp [view, Hold.view]
  | settled t v byInit => cases byInit <;> simp [view]

theorem Stage.value_of_initialized {s : Stage Tid V} (h : s.view.state = .initialized) :
    s.view.value.isSome := by
  cases s with
  | fresh => cases h
  | held t hold => cases hold <;> first | rfl | cases h
  | settled t v byInit => rfl

theorem Stage.eq_fresh {s : Stage Tid V} (h : s.view.state = .uninit) : s = .fresh := by
  cases s with
  | fresh => rfl
  | held t hold => cases hold <;> cases h
  | settled => cases h

/-- What is published stays, with its value, and the slot never comes free again. -/
theorem Stage.Next.keeps {s s' : Stage Tid V} (h : s.Next s') :
    s'.view.state ≠ .uninit ∧
      (s.view.state = .initialized →
        s'.view.state = .initialized ∧ s'.view.value = s.view.value) := by
  cases h <;> simp [view, Hold.view]

/-! ## The cell keeps the protocol -/

/-- What a thread that stands there holds of the slot. -/
def Pc.holds : Pc V → Option (Hold V)
  | .setWrite _ | .initRun => some .claimed
  | .initWait | .initWrite _ => some .ran
  | .setPublish v => some (.stored v false)
  | .initPublish v => some (.stored v true)
  | .returning (.set v (.ok ())) => some (.published v)
  | _ => none

def Cell.view (c : Cell Tid V) : View Tid V :=
  ⟨c.state, c.value, stores c.log, runs c.log, wins c.log⟩

/-- The fields of a view, one by one. -/
theorem view_iff {c : Cell Tid V} {v : View Tid V} : c.view = v ↔
    c.state = v.state ∧ c.value = v.value ∧ stores c.log = v.stores ∧
      runs c.log = v.runs ∧ wins c.log = v.wins := by
  rw [Cell.view]
  cases v
  rw [View.mk.injEq]

section Protocol
variable [DecidableEq Tid] {c c' : Cell Tid V} {s s' : Stage Tid V} {t u : Tid} {p : Pc V}

def Stage.holds (s : Stage Tid V) (t : Tid) : Option (Hold V) :=
  match s with
  | .held u h => if u = t then some h else none
  | _ => none

/-- The cell is at a stage: it looks like it, and its threads hold what the stage says. -/
structure AtStage (c : Cell Tid V) (s : Stage Tid V) : Prop where
  view : c.view = s.view
  holds : ∀ t, (c.pc t).holds = s.holds t

@[simp] theorem goto_log : (c.goto t p).log = c.log := rfl
@[simp] theorem goto_pc : (c.goto t p).pc t = p := Function.update_self ..

theorem goto_pc_other (h : u ≠ t) : (c.goto t p).pc u = c.pc u := Function.update_of_ne h ..

/-- What a thread holds tells the stage. -/
theorem Stage.eq_held {h : Hold V} (hs : s.holds t = some h) : s = .held t h := by
  cases s with
  | fresh => cases hs
  | held u h' =>
    rw [holds] at hs
    split at hs
    next hut =>
      cases hs
      rw [hut]
    next => cases hs
  | settled => cases hs

theorem atStage_new : AtStage (new : Cell Tid V) .fresh := ⟨rfl, fun _ => rfl⟩

theorem AtStage.held {h : Hold V} (hs : AtStage c s) (hp : (c.pc t).holds = some h) :
    s = .held t h :=
  Stage.eq_held ((hs.holds t).symm.trans hp)

/-- A thread moves on and the stage with it. -/
theorem AtStage.goto (hs : AtStage c s) {d : Cell Tid V} (hd : d.pc = c.pc)
    (hview : d.view = s'.view) (hp : p.holds = s'.holds t)
    (hothers : ∀ u, u ≠ t → s'.holds u = s.holds u) : AtStage (d.goto t p) s' := by
  refine ⟨hview, fun u => ?_⟩
  by_cases hu : u = t
  · rw [hu, goto_pc]
    exact hp
  · rw [goto_pc_other hu, hd, hs.holds u, hothers u hu]

/-- A thread that holds nothing moves on and still holds nothing. -/
theorem AtStage.look (hs : AtStage c s) {d : Cell Tid V} (hd : d.pc = c.pc)
    (hview : d.view = c.view) (hbefore : (c.pc t).holds = none) (hafter : p.holds = none) :
    AtStage (d.goto t p) s :=
  hs.goto hd (hview.trans hs.view) (by rw [hafter, ← hbefore, hs.holds t]) (fun _ _ => rfl)

theorem Stage.held_other {h : Hold V} (hu : u ≠ t) : (Stage.held t h).holds u = none :=
  if_neg hu.symm

theorem Stage.held_self {h : Hold V} : (Stage.held t h).holds t = some h := if_pos rfl

/-- The slot is free and thread `t` takes it. -/
theorem AtStage.claim (hs : AtStage c s) (hfree : c.state = .uninit)
    (hp : p.holds = some .claimed) :
    ∃ s', AtStage ({ c with state := .initializing }.goto t p) s' ∧ (s' = s ∨ s.Next s') := by
  have hstate : s.view.state = .uninit := by rw [← hs.view]; exact hfree
  have hfresh : s = .fresh := Stage.eq_fresh hstate
  subst hfresh
  refine ⟨.held t .claimed, hs.goto rfl ?_ ?_ ?_, Or.inr (.claim t)⟩
  · obtain ⟨-, hrest⟩ := view_iff.mp hs.view
    exact view_iff.mpr ⟨rfl, hrest⟩
  · rw [hp, Stage.held_self]
  · intro u hu
    exact Stage.held_other hu

/-- The thread that holds the slot goes on holding it. -/
theorem AtStage.hold {h h' : Hold V} {d : Cell Tid V} (hs : AtStage c s)
    (hbefore : (c.pc t).holds = some h) (hafter : p.holds = some h') (hd : d.pc = c.pc)
    (hview : c.view = h.view t → d.view = h'.view t)
    (hnext : Stage.Next (.held t h) (.held t h')) :
    ∃ s', AtStage (d.goto t p) s' ∧ (s' = s ∨ s.Next s') := by
  have hheld : s = .held t h := hs.held hbefore
  subst hheld
  refine ⟨.held t h', hs.goto hd (hview hs.view) ?_ ?_, Or.inr hnext⟩
  · rw [hafter, Stage.held_self]
  · intro u hu
    rw [Stage.held_other hu, Stage.held_other hu]

/-- The thread that holds the slot lets go of it. -/
theorem AtStage.release {h : Hold V} {d : Cell Tid V} {v : V} {byInit : Bool} (hs : AtStage c s)
    (hbefore : (c.pc t).holds = some h) (hafter : p.holds = none) (hd : d.pc = c.pc)
    (hview : c.view = h.view t → d.view = (Stage.settled t v byInit).view)
    (hnext : Stage.Next (.held t h) (.settled t v byInit)) :
    ∃ s', AtStage (d.goto t p) s' ∧ (s' = s ∨ s.Next s') := by
  have hheld : s = .held t h := hs.held hbefore
  subst hheld
  refine ⟨.settled t v byInit, hs.goto hd (hview hs.view) ?_ ?_, Or.inr hnext⟩
  · exact hafter
  · intro u hu
    rw [Stage.held_other hu]
    rfl

/-- A thread that holds nothing leaves the stage as it is. -/
theorem AtStage.pass {d : Cell Tid V} (hs : AtStage c s) (hd : d.pc = c.pc)
    (hview : d.view = c.view) (hbefore : (c.pc t).holds = none) (hafter : p.holds = none) :
    ∃ s', AtStage (d.goto t p) s' ∧ (s' = s ∨ s.Next s') :=
  ⟨s, hs.look hd hview hbefore hafter, Or.inl rfl⟩

/-- **One access refines the protocol**: it makes one step of it, or none. -/
theorem advance_refines (hs : AtStage c s) (h : advance c t = some c') :
    ∃ s', AtStage c' s' ∧ (s' = s ∨ s.Next s') := by
  rw [advance] at h
  cases hp : c.pc t with
  | idle => simp [hp] at h
  | getLoad =>
    simp only [hp] at h
    split at h <;> cases h <;> exact hs.pass rfl rfl (by rw [hp]; rfl) rfl
  | getRead =>
    simp only [hp] at h
    cases h
    exact hs.pass rfl rfl (by rw [hp]; rfl) rfl
  -- the exchange claims the slot, or finds it taken and changes nothing
  | setCas v =>
    simp only [hp] at h
    split at h
    next hfree =>
      cases h
      exact hs.claim hfree rfl
    next =>
      cases h
      exact hs.pass rfl rfl (by rw [hp]; rfl) rfl
  -- the writer holds the slot, so its steps are steps of the protocol
  | setWrite v =>
    simp only [hp] at h
    cases h
    refine hs.hold (by rw [hp]; rfl) rfl rfl ?_ (.storeSet t v)
    intro hview
    obtain ⟨hstate, -, hstores, hruns, hwins⟩ := view_iff.mp hview
    exact view_iff.mpr ⟨hstate, rfl, congrArg ((t, v) :: ·) hstores, hruns, hwins⟩
  | setPublish v =>
    simp only [hp] at h
    cases h
    refine hs.hold (by rw [hp]; rfl) rfl rfl ?_ (.publish t v)
    intro hview
    exact view_iff.mpr ⟨rfl, (view_iff.mp hview).2⟩
  | initLoad =>
    simp only [hp] at h
    split at h <;> cases h <;> exact hs.pass rfl rfl (by rw [hp]; rfl) rfl
  | initCas =>
    simp only [hp] at h
    split at h
    next hfree =>
      cases h
      exact hs.claim hfree rfl
    all_goals
      cases h
      exact hs.pass rfl rfl (by rw [hp]; rfl) rfl
  | initRun =>
    simp only [hp] at h
    cases h
    refine hs.hold (by rw [hp]; rfl) rfl rfl ?_ (.run t)
    intro hview
    obtain ⟨hstate, hvalue, hstores, hruns, hwins⟩ := view_iff.mp hview
    exact view_iff.mpr ⟨hstate, hvalue, hstores, congrArg (t :: ·) hruns, hwins⟩
  | initWait => simp [hp] at h
  | initWrite v =>
    simp only [hp] at h
    cases h
    refine hs.hold (by rw [hp]; rfl) rfl rfl ?_ (.storeInit t v)
    intro hview
    obtain ⟨hstate, -, hstores, hruns, hwins⟩ := view_iff.mp hview
    exact view_iff.mpr ⟨hstate, rfl, congrArg ((t, v) :: ·) hstores, hruns, hwins⟩
  -- with the value published the slot is given up
  | initPublish v =>
    simp only [hp] at h
    cases h
    refine hs.release (by rw [hp]; rfl) rfl rfl ?_ (.settle t v)
    intro hview
    exact view_iff.mpr ⟨rfl, (view_iff.mp hview).2⟩
  -- the waiters look, and change nothing
  | initSpin =>
    simp only [hp] at h
    split at h <;> cases h <;> exact hs.pass rfl rfl (by rw [hp]; rfl) rfl
  | initRead =>
    simp only [hp] at h
    split at h <;> cases h <;> exact hs.pass rfl rfl (by rw [hp]; rfl) rfl
  | returning out =>
    simp only [hp] at h
    cases h
    by_cases hwon : ∃ v, out = .set v (.ok ())
    · obtain ⟨v, rfl⟩ := hwon
      refine hs.release (by rw [hp]; rfl) rfl rfl ?_ (.tell t v)
      intro hview
      obtain ⟨hstate, hvalue, hstores, hruns, hwins⟩ := view_iff.mp hview
      exact view_iff.mpr ⟨hstate, hvalue, hstores, hruns, congrArg ((t, v) :: ·) hwins⟩
    · -- only a `set` that won returns holding the slot
      have hlost : (Pc.returning out).holds = none ∧
          (Event.returned t out : Event Tid V).won? = none := by
        cases out with
        | set v result =>
          cases result with
          | error w => exact ⟨rfl, rfl⟩
          | ok w => exact absurd ⟨v, rfl⟩ hwon
        | _ => exact ⟨rfl, rfl⟩
      have hwins : wins (.returned t out :: c.log) = wins c.log := by
        rw [wins, List.filterMap_cons, hlost.2]
        rfl
      refine hs.pass rfl ?_ (by rw [hp]; exact hlost.1) rfl
      exact view_iff.mpr ⟨rfl, rfl, rfl, rfl, hwins⟩

/-- **Every step refines the protocol.** -/
theorem step_refines {a : Action V} (hs : AtStage c s) (h : step c t a = some c') :
    ∃ s', AtStage c' s' ∧ (s' = s ∨ s.Next s') := by
  cases a with
  | advance => exact advance_refines hs h
  | invoke op =>
    rw [step] at h
    split at h
    next hp =>
      cases h
      refine hs.pass rfl rfl (by rw [hp]; rfl) ?_
      cases op <;> rfl
    next => cases h
  | closure v =>
    rw [step] at h
    split at h
    next hp =>
      cases h
      refine ⟨s, hs.goto rfl hs.view ?_ (fun _ _ => rfl), Or.inl rfl⟩
      rw [← hs.holds t, hp]
      rfl
    next => cases h

/-! ## What each thread may rely on -/

/-- What holds where a thread stands: who is about to read the slot may read it, and
who is about to return has something true to say. -/
def Pc.Ready (p : Pc V) (c : Cell Tid V) (t : Tid) : Prop :=
  match p with
  | .getRead | .initRead => c.state = .initialized
  | .initSpin => c.state ≠ .uninit
  | .returning (.got none) => shown (before t c.log) = []
  | .returning (.got (some v)) | .returning (.inited v) =>
    c.state = .initialized ∧ c.value = some v
  | .returning (.set v (.error w)) => w = v
  | _ => True

/-- What an event says is true of the log before it. -/
def Event.Sound (e : Event Tid V) (older : List (Event Tid V)) : Prop :=
  match e with
  | .returned t (.got none) => shown (before t older) = []
  | .returned _ (.set v (.error w)) => w = v
  | .undefined _ => False
  | _ => True

def Sound : List (Event Tid V) → Prop
  | [] => True
  | e :: older => e.Sound older ∧ Sound older

structure Inv (c : Cell Tid V) (s : Stage Tid V) : Prop where
  stage : AtStage c s
  ready : ∀ t, (c.pc t).Ready c t
  seen : ∀ v ∈ shown c.log, c.state = .initialized ∧ c.value = some v
  sound : Sound c.log

theorem Sound.event {newer older : List (Event Tid V)} {e : Event Tid V}
    (h : Sound (newer ++ e :: older)) : e.Sound older := by
  induction newer with
  | nil => exact h.1
  | cons _ newer ih => exact ih h.2

theorem inv_new : Inv (new : Cell Tid V) .fresh where
  stage := atStage_new
  ready _ := trivial
  seen _ hv := by cases hv
  sound := trivial

/-- Another thread's event leaves what a thread started from. -/
theorem before_note {e : Event Tid V} (he : e.thread ≠ t) (log : List (Event Tid V)) :
    before t (e :: log) = before t log := by
  cases e with
  | invoked u op => exact if_neg he
  | _ => rfl

/-- A step of thread `t` puts it at `p` and does the rest to `d`: it leaves the other
threads where they are, and what it notes in the log is its own and is true. -/
structure Moved (c : Cell Tid V) (t : Tid) (d : Cell Tid V) (p : Pc V) : Prop where
  pc : d.pc = c.pc
  log : d.log = c.log ∨ ∃ e, d.log = e :: c.log ∧ e.thread = t ∧ e.Sound c.log ∧
    ∀ v, e.shown? = some v → c.state = .initialized ∧ c.value = some v
  ready : p.Ready d t

/-- A step that notes nothing. -/
theorem Moved.silent {d : Cell Tid V} (hpc : d.pc = c.pc) (hlog : d.log = c.log)
    (hready : p.Ready d t) : Moved c t d p := ⟨hpc, Or.inl hlog, hready⟩

/-- A step that notes something other than a return. -/
theorem Moved.noted {d : Cell Tid V} {e : Event Tid V} (hpc : d.pc = c.pc)
    (hlog : d.log = e :: c.log) (ht : e.thread = t) (hsound : e.Sound c.log)
    (hshown : e.shown? = none) (hready : p.Ready d t) : Moved c t d p :=
  ⟨hpc, Or.inr ⟨e, hlog, ht, hsound, fun v hv => by rw [hshown] at hv; cases hv⟩, hready⟩

/-- Before the cell is initialized nothing has been shown. -/
theorem Inv.unseen (hi : Inv c s) (h : c.state ≠ .initialized) : shown c.log = [] := by
  apply List.eq_nil_iff_forall_not_mem.mpr
  intro v hv
  exact h (hi.seen v hv).1

theorem Inv.value_of_initialized (hi : Inv c s) (h : c.state = .initialized) :
    ∃ v, c.value = some v := by
  have hstate : s.view.state = .initialized := (view_iff.mp hi.stage.view).1.symm.trans h
  have hvalue : c.value = s.view.value := (view_iff.mp hi.stage.view).2.1
  rw [hvalue]
  exact Option.isSome_iff_exists.mp (Stage.value_of_initialized hstate)

/-- What a thread is about to return is true, so its return may be noted. -/
theorem Moved.returned {out : Outcome V} (hready : (Pc.returning out).Ready c t) :
    Moved c t (c.note (.returned t out)) .idle := by
  refine ⟨rfl, Or.inr ⟨.returned t out, rfl, rfl, ?_, ?_⟩, trivial⟩
  · cases out with
    | got value =>
      cases value with
      | none => exact hready
      | some v => trivial
    | set v result =>
      cases result with
      | error w => exact hready
      | ok w => trivial
    | inited v => trivial
  · intro v hv
    cases out with
    | got value =>
      cases hv
      exact hready
    | set w result =>
      cases result <;> cases hv
    | inited w =>
      cases hv
      exact hready

theorem advance_moved (hi : Inv c s) (h : advance c t = some c') :
    ∃ d p, c' = d.goto t p ∧ Moved c t d p := by
  have hready := hi.ready t
  rw [advance] at h
  cases hp : c.pc t with
  | idle => simp [hp] at h
  | getLoad =>
    simp only [hp] at h
    split at h
    next hinit =>
      cases h
      exact ⟨c, _, rfl, Moved.silent rfl rfl hinit⟩
    next hinit =>
      cases h
      exact ⟨c, _, rfl, Moved.silent rfl rfl (shown_before (hi.unseen hinit))⟩
  | getRead =>
    simp only [hp] at h hready
    cases h
    obtain ⟨v, hv⟩ := hi.value_of_initialized hready
    refine ⟨c, _, rfl, Moved.silent rfl rfl ?_⟩
    rw [hv]
    exact ⟨hready, hv⟩
  | setCas v =>
    simp only [hp] at h
    split at h <;> cases h
    · exact ⟨_, _, rfl, Moved.silent rfl rfl trivial⟩
    · exact ⟨c, _, rfl, Moved.silent rfl rfl rfl⟩
  | setWrite v =>
    simp only [hp] at h
    cases h
    exact ⟨_, _, rfl, Moved.noted rfl rfl rfl trivial rfl trivial⟩
  | setPublish v =>
    simp only [hp] at h
    cases h
    exact ⟨_, _, rfl, Moved.silent rfl rfl trivial⟩
  | initLoad =>
    simp only [hp] at h
    split at h
    next hinit =>
      cases h
      exact ⟨c, _, rfl, Moved.silent rfl rfl hinit⟩
    next =>
      cases h
      exact ⟨c, _, rfl, Moved.silent rfl rfl trivial⟩
  | initCas =>
    simp only [hp] at h
    split at h
    next =>
      cases h
      exact ⟨_, _, rfl, Moved.silent rfl rfl trivial⟩
    next hbusy =>
      cases h
      refine ⟨c, _, rfl, Moved.silent rfl rfl ?_⟩
      intro hfree
      rw [hbusy] at hfree
      cases hfree
    next hinit =>
      cases h
      exact ⟨c, _, rfl, Moved.silent rfl rfl hinit⟩
  | initRun =>
    simp only [hp] at h
    cases h
    exact ⟨_, _, rfl, Moved.noted rfl rfl rfl trivial rfl trivial⟩
  | initWait => simp [hp] at h
  | initWrite v =>
    simp only [hp] at h
    cases h
    exact ⟨_, _, rfl, Moved.noted rfl rfl rfl trivial rfl trivial⟩
  | initPublish v =>
    simp only [hp] at h
    cases h
    exact ⟨_, _, rfl, Moved.silent rfl rfl rfl⟩
  | initSpin =>
    simp only [hp] at h hready
    split at h
    next =>
      cases h
      exact ⟨c, _, rfl, Moved.silent rfl rfl hready⟩
    next hdone =>
      cases h
      refine ⟨c, _, rfl, Moved.silent rfl rfl ?_⟩
      -- the spin ends at a cell that is neither free nor being initialized
      change c.state ≠ .uninit at hready
      change c.state = .initialized
      cases hstate : c.state with
      | uninit => exact absurd hstate hready
      | initializing => exact absurd hstate hdone
      | initialized => rfl
  | initRead =>
    simp only [hp] at h hready
    obtain ⟨v, hv⟩ := hi.value_of_initialized hready
    rw [hv] at h
    cases h
    exact ⟨c, _, rfl, Moved.silent rfl rfl ⟨hready, hv⟩⟩
  | returning out =>
    simp only [hp] at h hready
    cases h
    exact ⟨_, _, rfl, Moved.returned hready⟩

theorem step_moved {a : Action V} (hi : Inv c s) (h : step c t a = some c') :
    ∃ d p, c' = d.goto t p ∧ Moved c t d p := by
  cases a with
  | advance => exact advance_moved hi h
  | invoke op =>
    rw [step] at h
    split at h
    next =>
      cases h
      refine ⟨_, _, rfl, Moved.noted rfl rfl rfl trivial rfl ?_⟩
      cases op <;> trivial
    next => cases h
  | closure v =>
    rw [step] at h
    split at h
    next =>
      cases h
      exact ⟨c, _, rfl, Moved.silent rfl rfl trivial⟩
    next => cases h

/-! ## Every schedule -/

/-- What a thread relies on stays true while another one moves. -/
theorem Pc.Ready.stable {d : Cell Tid V} (hr : p.Ready c u)
    (hfree : c.state ≠ .uninit → d.state ≠ .uninit)
    (hinit : c.state = .initialized → d.state = .initialized ∧ d.value = c.value)
    (hbefore : before u d.log = before u c.log) : p.Ready d u := by
  have hshows : ∀ v, c.state = .initialized ∧ c.value = some v →
      d.state = .initialized ∧ d.value = some v := by
    intro v ⟨hstate, hvalue⟩
    exact ⟨(hinit hstate).1, (hinit hstate).2.trans hvalue⟩
  cases p with
  | getRead => exact (hinit hr).1
  | initRead => exact (hinit hr).1
  | initSpin => exact hfree hr
  | returning out =>
    cases out with
    | got value =>
      cases value with
      | none =>
        change shown (before u d.log) = []
        rw [hbefore]
        exact hr
      | some v => exact hshows v hr
    | set v result =>
      cases result with
      | error w => exact hr
      | ok w => trivial
    | inited v => exact hshows v hr
  | _ => trivial

/-- **One step keeps the invariant**, at the stage it brings the protocol to. -/
theorem Inv.step {a : Action V} (hi : Inv c s) (h : step c t a = some c') :
    ∃ s', Inv c' s' := by
  obtain ⟨s', hs', hmove⟩ := step_refines hi.stage h
  obtain ⟨d, p, rfl, hm⟩ := step_moved hi h
  have hview := view_iff.mp hi.stage.view
  have hview' := view_iff.mp hs'.view
  -- the protocol never goes back to uninitialised, nor changes a value that is set
  have hkeeps : (s.view.state ≠ .uninit → s'.view.state ≠ .uninit) ∧
      (s.view.state = .initialized →
        s'.view.state = .initialized ∧ s'.view.value = s.view.value) := by
    rcases hmove with rfl | hnext
    · exact ⟨id, fun h => ⟨h, rfl⟩⟩
    · exact ⟨fun _ => hnext.keeps.1, hnext.keeps.2⟩
  rw [← hview.1, ← hview.2.1, ← hview'.1, ← hview'.2.1] at hkeeps
  obtain ⟨hfree, hinit⟩ := hkeeps
  refine ⟨s', hs', ?_, ?_, ?_⟩
  -- the thread that moved is ready by its own step, the others were not touched
  · intro u
    by_cases hu : u = t
    · subst hu
      rw [goto_pc]
      exact hm.ready
    · rw [goto_pc_other hu, hm.pc]
      refine (hi.ready u).stable hfree hinit ?_
      rcases hm.log with hlog | ⟨e, hlog, he, -⟩
      · rw [goto_log, hlog]
      · rw [goto_log, hlog]
        exact before_note (fun heu => hu (heu.symm.trans he)) c.log
  -- what has been shown is what the cell holds, before the step and after it
  · intro v hv
    have hold : c.state = .initialized ∧ c.value = some v := by
      rcases hm.log with hlog | ⟨e, hlog, -, -, hshown⟩
      · rw [goto_log, hlog] at hv
        exact hi.seen v hv
      · rw [goto_log, hlog, shown, List.mem_filterMap] at hv
        obtain ⟨e', he', hv⟩ := hv
        rcases List.mem_cons.mp he' with rfl | hmem
        · exact hshown v hv
        · exact hi.seen v (List.mem_filterMap.mpr ⟨e', hmem, hv⟩)
    exact ⟨(hinit hold.1).1, (hinit hold.1).2.trans hold.2⟩
  · rcases hm.log with hlog | ⟨e, hlog, -, hsound, -⟩
    · rw [goto_log, hlog]
      exact hi.sound
    · rw [goto_log, hlog]
      exact ⟨hsound, hi.sound⟩

/-- **Every reachable cell keeps the invariant.** -/
theorem Reachable.inv (h : Reachable c) : ∃ s, Inv c s := by
  induction h with
  | refl => exact ⟨.fresh, inv_new⟩
  | tail _ hstep ih =>
    obtain ⟨s, hi⟩ := ih
    obtain ⟨t, a, hstep⟩ := hstep
    exact hi.step hstep

/-- **The slot is never read beside a write, nor written by two**: this is what makes the
unsynchronized accesses to it safe. -/
theorem Reachable.no_race (h : Reachable c) (hwrite : (c.pc u).holds = some .claimed ∨
    (c.pc u).holds = some .ran) :
    (∀ t, c.pc t ≠ .getRead ∧ c.pc t ≠ .initRead) ∧ ∀ t, t ≠ u → (c.pc t).holds = none := by
  obtain ⟨s, hi⟩ := h.inv
  have hbusy : c.state = .initializing ∧ ∀ t, t ≠ u → (c.pc t).holds = none := by
    rcases hwrite with hold | hold
    all_goals
      have hs := hi.stage.held hold
      subst hs
      refine ⟨(view_iff.mp hi.stage.view).1, fun t ht => ?_⟩
      rw [hi.stage.holds t, Stage.held_other ht]
  refine ⟨fun t => ?_, hbusy.2⟩
  have hready := hi.ready t
  constructor
  all_goals
    intro hp
    rw [hp] at hready
    cases hbusy.1.symm.trans hready

/-- What is promised of the cell, as its log tells it. -/
structure WriteOnce (c : Cell Tid V) : Prop where
  /-- At most one value is ever stored. -/
  one_store : (stores c.log).length ≤ 1
  /-- At most one closure is run, and if one was, no `set` returns `Ok`. -/
  one_winner : (runs c.log).length + (wins c.log).length ≤ 1
  /-- A `set` returns its own value back, unless its value is the one stored. -/
  set_result : ∀ t v result, .returned t (.set v result) ∈ c.log →
    result = .error v ∨ result = .ok () ∧ stores c.log = [(t, v)]
  /-- A value that is returned is the one stored. -/
  shows_stored : ∀ v ∈ shown c.log, ∃ t, stores c.log = [(t, v)]
  /-- A `get` that returns nothing was invoked before any value had been returned. -/
  some_stays : ∀ t newer older, c.log = newer ++ .returned t (.got none) :: older →
    shown (before t older) = []
  /-- Who is about to read the slot finds a value in it. -/
  read_some : ∀ t, c.pc t = .getRead ∨ c.pc t = .initRead → c.value.isSome
  /-- Nothing was ever unwrapped unchecked. -/
  defined : ∀ t, .undefined t ∉ c.log

/-- **The cell is written once, under every schedule of any number of threads.** -/
theorem write_once (h : Reachable c) : WriteOnce c := by
  obtain ⟨s, hi⟩ := h.inv
  obtain ⟨-, hvalue, hstores, hruns, hwins⟩ := view_iff.mp hi.stage.view
  obtain ⟨hone, hwinner, hwon, hstored⟩ := s.view_once
  -- the log tells the history that the protocol allows only once
  rw [← hstores] at hone hwon hstored
  rw [← hwins] at hwinner hwon
  rw [← hruns] at hwinner
  rw [← hvalue] at hstored
  refine ⟨hone, hwinner, ?_, ?_, ?_, ?_, ?_⟩
  · intro t v result hmem
    cases result with
    | error w =>
      obtain ⟨newer, older, hlog⟩ := List.append_of_mem hmem
      have hsound := hi.sound
      rw [hlog] at hsound
      have hw : w = v := hsound.event
      exact Or.inl (by rw [hw])
    | ok done =>
      have hwins : (t, v) ∈ wins c.log := List.mem_filterMap.mpr ⟨_, hmem, rfl⟩
      exact Or.inr ⟨rfl, hwon (t, v) hwins⟩
  · intro v hv
    exact hstored v (hi.seen v hv).2
  · intro t newer older hlog
    have hsound := hi.sound
    rw [hlog] at hsound
    exact hsound.event
  · intro t hp
    have hready := hi.ready t
    have hinit : c.state = .initialized := by
      rcases hp with hp | hp
      all_goals
        rw [hp] at hready
        exact hready
    obtain ⟨v, hv⟩ := hi.value_of_initialized hinit
    rw [hv]
    rfl
  · intro t hmem
    obtain ⟨newer, older, hlog⟩ := List.append_of_mem hmem
    have hsound := hi.sound
    rw [hlog] at hsound
    exact hsound.event

/-- A schedule: who makes which step. -/
def run (c : Cell Tid V) : List (Tid × Action V) → Option (Cell Tid V)
  | [] => some c
  | (t, a) :: rest => do run (← step c t a) rest

theorem run_reachable {schedule : List (Tid × Action V)} (h : Reachable c)
    (hrun : run c schedule = some c') : Reachable c' := by
  induction schedule generalizing c with
  | nil =>
    cases hrun
    exact h
  | cons move rest ih =>
    obtain ⟨d, hd, hrest⟩ := Option.bind_eq_some_iff.mp hrun
    exact ih (h.tail ⟨move.1, move.2, hd⟩) hrest

/-- Two `set`s race, a third thread spins meanwhile, and a fourth looks before and after. -/
def race : List (Nat × Action Nat) :=
  [(3, .invoke .get), (0, .invoke (.set 7)), (1, .invoke (.set 8)), (2, .invoke .getOrInit),
    (1, .advance), (3, .advance), (0, .advance), (2, .advance), (2, .advance), (2, .advance),
    (1, .advance), (0, .advance), (2, .advance), (3, .advance), (1, .advance), (2, .advance),
    (2, .advance), (2, .advance), (3, .invoke .get), (3, .advance), (3, .advance), (3, .advance),
    (1, .advance)]

theorem write_once_race : ∃ c, run new race = some c ∧ stores c.log = [(1, 8)] ∧
    shown c.log = [8, 8] ∧ WriteOnce c := by
  refine ⟨(run new race).get rfl, (Option.some_get _).symm, by decide, by decide, ?_⟩
  exact write_once (run_reachable .refl (Option.some_get _).symm)

end Protocol
end AtomicOnce
end Procguard
