import Procguard.Ownership
import Procguard.Process

/- `posix_spawn` and the objects it takes (`process.rs`). `spawn_command` makes an attribute
   object, then file actions, and gives both to `posix_spawnp`; each is destroyed when its
   scope ends, the file actions first, whether the call or a step of the set-up failed. A
   run of the monitor asks for all of it with one request: `spawn_scoped` says what becomes
   of the objects, and that the answer of that one request is what the calls told. -/
namespace Procguard
open Interact

inductive SpawnReq where
  | attrInit
  | attrSetFlags (attr : Nat) (flags : Int)
  | attrSetPgroup (attr : Nat) (pgroup : Int)
  | attrDestroy (attr : Nat)
  | actionsInit
  | actionsDestroy (actions : Nat)
  | posixSpawnp (command : String) (actions attr : Nat) (argv : List String)

/-- The result of a destroy is not looked at. -/
@[reducible] def SpawnReq.Ans : SpawnReq → Type
  | .attrInit | .actionsInit => Except Int Nat
  | .attrSetFlags _ _ | .attrSetPgroup _ _ => Except Int Unit
  | .attrDestroy _ | .actionsDestroy _ => Unit
  | .posixSpawnp _ _ _ _ => Except Int Int

abbrev SpawnLog := Log SpawnReq.Ans
abbrev SpawnWorld := Env SpawnReq.Ans
abbrev SpawnAct := Act SpawnReq.Ans Unit SpawnError

def POSIX_SPAWN_SETPGROUP : Int := 0x0002

/-- `.map_err(SpawnError::Spawn)?`. -/
def orSpawnError {α : Type} : Except Int α → SpawnAct α
  | .ok a => pure a
  | .error ret => Act.throw (.spawn ret)

namespace SpawnAttr

def new : SpawnAct Nat := Act.call (A := SpawnReq.Ans) .attrInit >>= orSpawnError

def setFlags (attr : Nat) (flags : Int) : SpawnAct Unit :=
  Act.call (A := SpawnReq.Ans) (.attrSetFlags attr flags) >>= orSpawnError

def setPgroup (attr : Nat) (pgroup : Int) : SpawnAct Unit :=
  Act.call (A := SpawnReq.Ans) (.attrSetPgroup attr pgroup) >>= orSpawnError

def drop (attr : Nat) : Prog SpawnReq.Ans Unit := .ask (.attrDestroy attr) fun _ => .done ()

end SpawnAttr

namespace SpawnFileActions

def new : SpawnAct Nat := Act.call (A := SpawnReq.Ans) .actionsInit >>= orSpawnError

def drop (actions : Nat) : Prog SpawnReq.Ans Unit :=
  .ask (.actionsDestroy actions) fun _ => .done ()

end SpawnFileActions

/-- Set the process group if requested. -/
def groupAttr (attr : Nat) (useProcessGroup : Bool) : SpawnAct Unit :=
  if useProcessGroup then do
    SpawnAttr.setFlags attr POSIX_SPAWN_SETPGROUP
    SpawnAttr.setPgroup attr 0
  else pure ()

def spawnWith (command : String) (args : List String) (attr actions : Nat) : SpawnAct RawChild := do
  match ← Act.call (A := SpawnReq.Ans) (.posixSpawnp command actions attr (command :: args)) with
  | .ok pid => pure { pid }
  | .error ret => Act.throw (spawnErrorOf command ret)

/-- `spawn_command`, call by call. -/
def spawnCommandCalls (command : String) (args : List String) (useProcessGroup : Bool) :
    SpawnAct RawChild :=
  if hasNul command || args.any hasNul then Act.throw .invalidArg
  else Act.scope SpawnAttr.new SpawnAttr.drop fun attr => do
    groupAttr attr useProcessGroup
    Act.scope SpawnFileActions.new SpawnFileActions.drop fun actions =>
      spawnWith command args attr actions

/-! ## The objects -/

def attrTouch : Ev SpawnReq.Ans → Option (Touch Nat)
  | ⟨.attrInit, .ok attr⟩ => some (.opens attr)
  | ⟨.attrSetFlags attr _, _⟩ | ⟨.attrSetPgroup attr _, _⟩ | ⟨.posixSpawnp _ _ attr _, _⟩ =>
    some (.uses attr)
  | ⟨.attrDestroy attr, _⟩ => some (.closes attr)
  | _ => none

def actionsTouch : Ev SpawnReq.Ans → Option (Touch Nat)
  | ⟨.actionsInit, .ok actions⟩ => some (.opens actions)
  | ⟨.posixSpawnp _ actions _ _, _⟩ => some (.uses actions)
  | ⟨.actionsDestroy actions, _⟩ => some (.closes actions)
  | _ => none

/-- The attribute object puts the child in a group of its own. -/
def GroupSet (attr : Nat) (l : SpawnLog) : Prop :=
  ⟨.attrSetFlags attr POSIX_SPAWN_SETPGROUP, .ok ()⟩ ∈ l ∧ ⟨.attrSetPgroup attr 0, .ok ()⟩ ∈ l

/-- Inside the scopes: the file actions live and end while the attribute object is held, and
    `posix_spawnp` gets both, set up as asked. -/
def InScope (command : String) (args : List String) (useProcessGroup : Bool)
    (e : Ev SpawnReq.Ans) (l : SpawnLog) : Prop :=
  match e.req with
  | .actionsInit | .actionsDestroy _ => ∃ attr, owner attrTouch l = .held attr
  | .attrDestroy _ => GivenBack actionsTouch l
  | .posixSpawnp c actions attr argv => c = command ∧ argv = command :: args ∧
      owner attrTouch l = .held attr ∧ owner actionsTouch l = .held actions ∧
      (GroupSet attr l ↔ useProcessGroup = true)
  | .attrInit | .attrSetFlags _ _ | .attrSetPgroup _ _ => True

/-! ## What the calls tell -/

/-- The error that a step of the set-up reports. -/
def setUpError : Ev SpawnReq.Ans → Option Int
  | ⟨.attrInit, .error e⟩ | ⟨.attrSetFlags _ _, .error e⟩ | ⟨.attrSetPgroup _ _, .error e⟩
  | ⟨.actionsInit, .error e⟩ => some e
  | _ => none

def spawnReply : Ev SpawnReq.Ans → Option (Except Int Int)
  | ⟨.posixSpawnp _ _ _ _, r⟩ => some r
  | _ => none

/-- The answer of the one request for all the calls: the first error, or the reply of
    `posix_spawnp`. -/
def spawnTold (l : SpawnLog) : Option (Except Int Int) :=
  match l.findSome? setUpError with
  | some e => some (.error e)
  | none => l.findSome? spawnReply

/-- The error numbers of `posix_spawnp` that are about the command. -/
def AboutCommand (e : Int) : Prop := e = ENOENT ∨ e = EACCES ∨ e = EPERM

/-- The calls end as the one request does when it is answered what they told; only a set-up
    that fails with a number about the command keeps its number, where the request would name
    the command. -/
def EndsAs (caller : Caller) (command : String) (args : List String) (useProcessGroup : Bool)
    (r : Except SpawnError RawChild) (l : SpawnLog) : Prop :=
  (l = [] ∧ ∀ W : World, (spawnCommand caller command args useProcessGroup).run W [] = (some r, [])) ∨
  ∃ told, spawnTold l = some told ∧
    ((∀ W : World, W [] ⟨caller, .posixSpawnp command args useProcessGroup⟩ = told →
        ((spawnCommand caller command args useProcessGroup).run W []).1 = some r) ∨
      ∃ e, l.findSome? setUpError = some e ∧ AboutCommand e ∧ r = .error (.spawn e))

section ends
variable {caller : Caller} {command : String} {args : List String} {useProcessGroup : Bool}
  {l : SpawnLog}

/-- What the reply of `posix_spawnp` makes of the command. -/
def spawnResult (command : String) : Except Int Int → Except SpawnError RawChild
  | .ok pid => .ok { pid }
  | .error errno => .error (spawnErrorOf command errno)

theorem run_spawnCommand (W : World) (hnul : (hasNul command || args.any hasNul) = false) :
    ((spawnCommand caller command args useProcessGroup).run W []).1 =
      some (spawnResult command (W [] ⟨caller, .posixSpawnp command args useProcessGroup⟩)) := by
  rw [spawnCommand, hnul, if_neg Bool.false_ne_true]
  simp only [Prog.run]
  cases W [] ⟨caller, .posixSpawnp command args useProcessGroup⟩ <;> rfl

theorem endsAs_setUp (hnul : (hasNul command || args.any hasNul) = false) {e : Int}
    (he : l.findSome? setUpError = some e) :
    EndsAs caller command args useProcessGroup (.error (.spawn e)) l := by
  refine .inr ⟨.error e, by rw [spawnTold, he], ?_⟩
  by_cases habout : AboutCommand e
  · exact .inr ⟨e, he, habout, rfl⟩
  · left
    intro W hW
    have herror : spawnErrorOf command e = .spawn e := by
      rw [AboutCommand, not_or] at habout
      rw [spawnErrorOf, if_neg habout.1, if_neg habout.2]
    rw [run_spawnCommand W hnul, hW, spawnResult, herror]

theorem endsAs_spawned (hnul : (hasNul command || args.any hasNul) = false)
    (hset : l.findSome? setUpError = none) {told : Except Int Int}
    (htold : l.findSome? spawnReply = some told) :
    EndsAs caller command args useProcessGroup (spawnResult command told) l := by
  refine .inr ⟨told, by rw [spawnTold, hset, htold], .inl ?_⟩
  intro W hW
  rw [run_spawnCommand W hnul, hW]

end ends

/-! ## Runs -/

/-- What a run of the calls leaves. -/
structure Balanced (caller : Caller) (command : String) (args : List String)
    (useProcessGroup : Bool) (r : Except SpawnError RawChild) (l : SpawnLog) : Prop where
  attr : GivenBack attrTouch l
  actions : GivenBack actionsTouch l
  ends : EndsAs caller command args useProcessGroup r l

/-- Every call is made in its scope, and no run is cut off. -/
def spawning (command : String) (args : List String) (useProcessGroup : Bool) :
    Contract SpawnReq.Ans where
  guar := InScope command args useProcessGroup
  cut _ := False

section runs
variable (caller : Caller) {command : String} {args : List String} {useProcessGroup : Bool}
  {l : SpawnLog}

/-- The attribute object is held, set up as asked and without an error so far; the file actions
    are not made yet. -/
structure AttrReady (attr : Nat) (useProcessGroup : Bool) (l : SpawnLog) : Prop where
  held : owner attrTouch l = .held attr
  unmade : owner actionsTouch l = .unopened
  group : GroupSet attr l ↔ useProcessGroup = true
  clean : l.findSome? setUpError = none

/-- The inner scope: the file actions are made and destroyed while the attribute object is held. -/
theorem innerScope_ensures (hnul : (hasNul command || args.any hasNul) = false) {attr : Nat}
    (h : AttrReady attr useProcessGroup l) :
    (Act.scope SpawnFileActions.new SpawnFileActions.drop fun actions =>
      spawnWith command args attr actions).Ensures (spawning command args useProcessGroup) () l
      fun r _ l' => owner attrTouch l' = .held attr ∧ GivenBack actionsTouch l' ∧
        EndsAs caller command args useProcessGroup r (⟨.attrDestroy attr, ()⟩ :: l') := by
  rw [Act.ensures_scope, SpawnFileActions.new, Act.ensures_bind, Act.ensures_call]
  intro made _
  refine ⟨⟨attr, h.held⟩, ?_⟩
  cases made with
  -- without file actions there is no spawn, and the attribute object is still held
  | error e =>
    refine ⟨?_, .inl ?_, endsAs_setUp hnul rfl⟩
    · exact (owner_cons _ rfl).trans h.held
    · exact (owner_cons _ rfl).trans h.unmade
  | ok actions =>
    have hattr : owner attrTouch (⟨.actionsInit, .ok actions⟩ :: l) = .held attr :=
      (owner_cons _ rfl).trans h.held
    have hactions : owner actionsTouch (⟨.actionsInit, .ok actions⟩ :: l) = .held actions :=
      Owner.after_eq_held.mpr (.inl ⟨h.unmade, rfl⟩)
    have hgroup : GroupSet attr (⟨.actionsInit, .ok actions⟩ :: l) ↔ useProcessGroup = true := by
      rw [← h.group]
      simp [GroupSet]
    simp only [orSpawnError, Act.ensures_pure, spawnWith, Act.ensures_bind, Act.ensures_call]
    intro reply _
    refine ⟨⟨rfl, rfl, hattr, hactions, hgroup⟩, ?_⟩
    -- the spawn uses both objects
    have hattr' : owner attrTouch (⟨.posixSpawnp command actions attr (command :: args), reply⟩ ::
        ⟨.actionsInit, .ok actions⟩ :: l) = .held attr :=
      Owner.after_eq_held.mpr (.inr ⟨hattr, .inr rfl⟩)
    have hactions' : owner actionsTouch (⟨.posixSpawnp command actions attr (command :: args),
        reply⟩ :: ⟨.actionsInit, .ok actions⟩ :: l) = .held actions :=
      Owner.after_eq_held.mpr (.inr ⟨hactions, .inr rfl⟩)
    have hends : EndsAs caller command args useProcessGroup (spawnResult command reply)
        (⟨.attrDestroy attr, ()⟩ :: ⟨.actionsDestroy actions, ()⟩ ::
          ⟨.posixSpawnp command actions attr (command :: args), reply⟩ ::
          ⟨.actionsInit, .ok actions⟩ :: l) :=
      endsAs_spawned hnul (by exact h.clean) rfl
    -- the file actions go before the attribute object, whatever the spawn answered
    have hdrop : (SpawnFileActions.drop actions).Ensures (spawning command args useProcessGroup)
        (⟨.posixSpawnp command actions attr (command :: args), reply⟩ ::
          ⟨.actionsInit, .ok actions⟩ :: l)
        fun _ l' => owner attrTouch l' = .held attr ∧ GivenBack actionsTouch l' ∧
          EndsAs caller command args useProcessGroup (spawnResult command reply)
            (⟨.attrDestroy attr, ()⟩ :: l') := by
      intro _ _
      refine ⟨⟨attr, hattr'⟩, (owner_cons _ rfl).trans hattr', .inr ⟨actions, ?_⟩, hends⟩
      exact Owner.after_eq_closed.mpr (.inl ⟨hactions', rfl⟩)
    cases reply with
    | error ret => exact hdrop
    | ok pid => exact hdrop

/-- The set-up of the attribute object. -/
theorem groupAttr_ensures (hnul : (hasNul command || args.any hasNul) = false) (attr : Nat) :
    (groupAttr attr useProcessGroup).Ensures (spawning command args useProcessGroup) ()
      [⟨.attrInit, .ok attr⟩] fun r _ l' => match r with
      | .ok () => AttrReady attr useProcessGroup l'
      | .error e => owner attrTouch l' = .held attr ∧ GivenBack actionsTouch l' ∧
          EndsAs caller command args useProcessGroup (.error e) (⟨.attrDestroy attr, ()⟩ :: l') := by
  cases useProcessGroup with
  -- nothing is asked for, so the object is ready as it is
  | false => exact ⟨rfl, rfl, by simp [GroupSet], rfl⟩
  | true =>
    have hflags : owner attrTouch ([⟨.attrSetFlags attr POSIX_SPAWN_SETPGROUP, .ok ()⟩,
        ⟨.attrInit, .ok attr⟩] : SpawnLog) = .held attr :=
      Owner.after_eq_held.mpr (.inr ⟨rfl, .inr rfl⟩)
    simp only [groupAttr, if_pos, Act.ensures_bind, SpawnAttr.setFlags, SpawnAttr.setPgroup,
      Act.ensures_call]
    intro flagged _
    refine ⟨trivial, ?_⟩
    cases flagged with
    | error e =>
      exact ⟨Owner.after_eq_held.mpr (.inr ⟨rfl, .inr rfl⟩), .inl rfl, endsAs_setUp hnul rfl⟩
    | ok _ =>
      intro grouped _
      refine ⟨trivial, ?_⟩
      cases grouped with
      | error e =>
        exact ⟨Owner.after_eq_held.mpr (.inr ⟨hflags, .inr rfl⟩), .inl rfl, endsAs_setUp hnul rfl⟩
      | ok _ =>
        refine ⟨Owner.after_eq_held.mpr (.inr ⟨hflags, .inr rfl⟩), rfl, ?_, rfl⟩
        simp [GroupSet]

/-- The outer scope: whatever is made is destroyed, in the order of the scopes. -/
theorem spawnCommandCalls_ensures :
    (spawnCommandCalls command args useProcessGroup).Ensures
      (spawning command args useProcessGroup) () []
      fun r _ l => Balanced caller command args useProcessGroup r l := by
  unfold spawnCommandCalls
  cases hnul : hasNul command || args.any hasNul with
  | true =>
    refine ⟨.inl rfl, .inl rfl, .inl ⟨rfl, fun W => ?_⟩⟩
    rw [spawnCommand, hnul]
    rfl
  | false =>
    rw [if_neg Bool.false_ne_true, Act.ensures_scope, SpawnAttr.new, Act.ensures_bind,
      Act.ensures_call]
    intro made _
    refine ⟨trivial, ?_⟩
    cases made with
    | error e => exact ⟨.inl rfl, .inl rfl, endsAs_setUp hnul rfl⟩
    | ok attr =>
      -- destroying the attribute object is the last call of each way through its scope
      have hlast : ∀ (r : Except SpawnError RawChild) (l : SpawnLog),
          owner attrTouch l = .held attr → GivenBack actionsTouch l →
          EndsAs caller command args useProcessGroup r (⟨.attrDestroy attr, ()⟩ :: l) →
          (SpawnAttr.drop attr).Ensures (spawning command args useProcessGroup) l fun _ l' =>
            Balanced caller command args useProcessGroup r l' := by
        intro r l hattr hactions hends _ _
        refine ⟨hactions, .inr ⟨attr, Owner.after_eq_closed.mpr (.inl ⟨hattr, rfl⟩)⟩, ?_, hends⟩
        have hkeep : owner actionsTouch (⟨.attrDestroy attr, ()⟩ :: l) = owner actionsTouch l :=
          owner_cons _ rfl
        unfold GivenBack
        rw [hkeep]
        exact hactions
      simp only [orSpawnError, Act.ensures_pure, Act.ensures_bind]
      refine (groupAttr_ensures caller hnul attr).mono fun r _ l hr => ?_
      cases r with
      | error e => exact hlast _ _ hr.1 hr.2.1 hr.2.2
      | ok _ =>
        refine (innerScope_ensures caller hnul hr).mono fun r _ l hr => ?_
        exact hlast _ _ hr.1 hr.2.1 hr.2.2

/-- **The objects of a spawn are given back**: every run of the calls returns; the attribute
    object and the file actions are each made once at most, used in between only and destroyed
    once if they were made, the file actions first, and `posix_spawnp` gets both, set up as
    asked; and the run ends as the one request for all of it does when it is answered what the
    calls told. -/
theorem spawn_scoped (W : SpawnWorld) (command : String) (args : List String)
    (useProcessGroup : Bool) :
    ∃ r l, (spawnCommandCalls command args useProcessGroup ()).run W [] = (some (r, ()), l) ∧
      (Untouched attrTouch l ∨ ∃ attr, Interact.Closed attrTouch attr l) ∧
      (Untouched actionsTouch l ∨ ∃ actions, Interact.Closed actionsTouch actions l) ∧
      Always (InScope command args useProcessGroup) l ∧
      EndsAs caller command args useProcessGroup r l := by
  have hensures : (spawnCommandCalls command args useProcessGroup).Ensures
      (spawning command args useProcessGroup) () [] fun r _ l =>
      Balanced caller command args useProcessGroup r l := spawnCommandCalls_ensures caller
  obtain ⟨hscope, hreturned, hcut⟩ :=
    Prog.Ensures.sound W hensures trivial (Always.of_forall (fun _ _ => trivial) _)
  rcases hrun : (spawnCommandCalls command args useProcessGroup ()).run W [] with ⟨_ | ⟨r, u⟩, l⟩
  · rw [hrun] at hcut
    exact absurd rfl hcut
  · rw [hrun] at hscope hreturned
    obtain ⟨hattr, hactions, hends⟩ := hreturned (r, u) rfl
    have hclosed : ∀ touch : Ev SpawnReq.Ans → Option (Touch Nat), GivenBack touch l →
        Untouched touch l ∨ ∃ d, Interact.Closed touch d l := by
      intro touch h
      exact h.imp owner_unopened fun ⟨d, hd⟩ => ⟨d, owner_closed hd⟩
    exact ⟨r, l, rfl, hclosed _ hattr, hclosed _ hactions, hscope, hends⟩

end runs

end Procguard
