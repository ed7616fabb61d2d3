import Procguard.Interact

/- Calls that can be interrupted between any two of their requests. A machine answers
   the requests of a program from a state, which they change. While a call is under way,
   or between two calls, an interrupt that is enabled may come in: its handler runs to
   its end before what it interrupted goes on, and may be interrupted itself.

   `Keeps` is the rule for such machines, for handlers that leave the state as they
   found it. Whatever is true of the state before every request of a call has to let
   the handlers that are enabled there run; then every call keeps its contract, under
   every interleaving, and every request a handler makes is as promised. -/
namespace Interact

variable {Q : Type} {A : Q → Type} {L σ I C α β : Type} {R : C → Type} {q : Q}

instance : Monad (Prog A) where
  pure := Prog.done
  bind := Prog.bind

/-- A request as a program. -/
def Prog.request (q : Q) : Prog A (A q) := .ask q .done

/-- The answer to a request, with the state after it, and what the interrupts and the
calls run. `L` decides what the state does not. -/
structure Machine (A : Q → Type) (L σ I : Type) {C : Type} (R : C → Type) where
  answer : (q : Q) → L → σ → A q × σ
  enabled : I → σ → Bool
  handler : I → Prog A Unit
  program : (c : C) → Prog A (R c)

/-- A call under way: where it began, what it was answered, and what is left of it. -/
structure Running (A : Q → Type) (σ : Type) {C : Type} (R : C → Type) where
  call : C
  before : σ
  log : Log A
  rest : Prog A (R call)

/-- A call that has returned. -/
structure Returned (A : Q → Type) (σ : Type) {C : Type} (R : C → Type) where
  call : C
  before : σ
  log : Log A
  result : R call
  after : σ

/-- The state, what is left of the handlers, the innermost first, and the calls. -/
structure Config (A : Q → Type) (σ : Type) {C : Type} (R : C → Type) where
  state : σ
  frames : List (Prog A Unit) := []
  current : Option (Running A σ R) := none
  history : List (Returned A σ R) := []

/-- An interrupt comes in, a call is made, or what is on top goes on. -/
inductive Move (L I C : Type) where
  | arrive (i : I)
  | call (c : C)
  | go (luck : L)

namespace Machine
variable (M : Machine A L σ I R)

/-- The innermost handler goes on. -/
def goHandler (c : Config A σ R) (luck : L) (rest : List (Prog A Unit)) :
    Prog A Unit → Option (Config A σ R)
  | .done _ => some { c with frames := rest }
  | .spin => none
  | .ask q k => some { c with state := (M.answer q luck c.state).2
                              frames := k (M.answer q luck c.state).1 :: rest }

/-- The call goes on; nothing interrupts it now. -/
def goCall (c : Config A σ R) (luck : L) (r : Running A σ R) : Option (Config A σ R) :=
  match r with
  | ⟨call, before, log, .done a⟩ =>
    some { c with current := none, history := ⟨call, before, log, a, c.state⟩ :: c.history }
  | ⟨_, _, _, .spin⟩ => none
  | ⟨call, before, log, .ask q k⟩ =>
    some { c with state := (M.answer q luck c.state).2
                  current := some ⟨call, before, ⟨q, (M.answer q luck c.state).1⟩ :: log,
                    k (M.answer q luck c.state).1⟩ }

def step (c : Config A σ R) : Move L I C → Option (Config A σ R)
  | .arrive i =>
    if M.enabled i c.state then some { c with frames := M.handler i :: c.frames } else none
  | .call x =>
    match c.frames, c.current with
    | [], none => some { c with current := some ⟨x, c.state, [], M.program x⟩ }
    | _, _ => none
  | .go luck =>
    match c.frames with
    | f :: rest => M.goHandler c luck rest f
    | [] =>
      match c.current with
      | some r => M.goCall c luck r
      | none => none

/-- What any interleaving of interrupts with any sequence of calls can bring `c` to. -/
def Reaches : Config A σ R → Config A σ R → Prop :=
  Relation.ReflTransGen fun c c' => ∃ m, M.step c m = some c'

def run (c : Config A σ R) : List (Move L I C) → Option (Config A σ R)
  | [] => some c
  | m :: rest => (M.step c m).bind fun c' => run c' rest

theorem reaches_of_run {c c' : Config A σ R} {moves : List (Move L I C)}
    (h : M.run c moves = some c') : M.Reaches c c' := by
  induction moves generalizing c with
  | nil =>
    cases h
    exact .refl
  | cons m rest ih =>
    obtain ⟨d, hd, hrest⟩ := Option.bind_eq_some_iff.mp h
    exact .head ⟨m, hd⟩ (ih hrest)

/-! ## Contracts -/

variable (safe : Q → σ → Prop)

/-- A handler that leaves the state as it is, each request of it safe. -/
def Observes (s : σ) : Prog A Unit → Prop
  | .done _ => True
  | .spin => True
  | .ask q k => safe q s ∧ ∀ luck, (M.answer q luck s).2 = s ∧ Observes s (k (M.answer q luck s).1)

/-- Whatever is enabled may come in. -/
def Steady (s : σ) : Prop := ∀ i, M.enabled i s = true → M.Observes safe s (M.handler i)

/-- The program may be interrupted before each request and at its end, and ends in `Post`. -/
def Meets (Post : α → Log A → σ → Prop) : Prog A α → Log A → σ → Prop
  | .done a, l, s => M.Steady safe s ∧ Post a l s
  | .spin, _, s => M.Steady safe s
  | .ask q k, l, s => M.Steady safe s ∧ ∀ luck,
      Meets Post (k (M.answer q luck s).1) (⟨q, (M.answer q luck s).1⟩ :: l) (M.answer q luck s).2

section rules
variable {M safe} {s : σ} {l : Log A}

theorem Meets.steady {Post : α → Log A → σ → Prop} {p : Prog A α} (h : M.Meets safe Post p l s) :
    M.Steady safe s := by
  cases p with
  | done a => exact h.1
  | spin => exact h
  | ask q k => exact h.1

theorem meets_done {Post : α → Log A → σ → Prop} {a : α} :
    M.Meets safe Post (pure a) l s ↔ M.Steady safe s ∧ Post a l s := Iff.rfl

theorem meets_bind {Post : β → Log A → σ → Prop} {p : Prog A α} {f : α → Prog A β} :
    M.Meets safe Post (p >>= f) l s ↔
      M.Meets safe (fun a l s => M.Meets safe Post (f a) l s) p l s := by
  change M.Meets safe Post (p.bind f) l s ↔ _
  induction p generalizing l s with
  | done a => exact ⟨fun h => ⟨h.steady, h⟩, And.right⟩
  | spin => exact Iff.rfl
  | ask q k ih => exact and_congr_right fun _ => forall_congr' fun luck => ih _

/-- A request: what comes after it has to hold whatever is answered. -/
theorem meets_request {Post : A q → Log A → σ → Prop} (hs : M.Steady safe s)
    (h : ∀ luck, M.Steady safe (M.answer q luck s).2 ∧
      Post (M.answer q luck s).1 (⟨q, (M.answer q luck s).1⟩ :: l) (M.answer q luck s).2) :
    M.Meets safe Post (Prog.request q) l s := ⟨hs, h⟩

end rules

/-- Every call, begun in `J`, may be interrupted at every point, and ends in `J` and in
its own postcondition. -/
structure Keeps (J : σ → Prop) (Post : (x : C) → σ → R x → Log A → σ → Prop) : Prop where
  idle : ∀ s, J s → M.Steady safe s
  call : ∀ x s, J s →
    M.Meets safe (fun a l s' => J s' ∧ Post x s a l s') (M.program x) [] s

/-- What holds of a machine that keeps its contracts, between any two steps. -/
structure Kept (J : σ → Prop) (Post : (x : C) → σ → R x → Log A → σ → Prop)
    (c : Config A σ R) : Prop where
  frames : ∀ f ∈ c.frames, M.Observes safe c.state f
  history : ∀ r ∈ c.history, J r.before ∧ J r.after ∧ Post r.call r.before r.result r.log r.after
  idle : c.current = none → J c.state
  current : ∀ r, c.current = some r → J r.before ∧
    M.Meets safe (fun a l s' => J s' ∧ Post r.call r.before a l s') r.rest r.log c.state

section soundness
variable {M safe} {J : σ → Prop} {Post : (x : C) → σ → R x → Log A → σ → Prop}
  {c c' : Config A σ R} {luck : L}

theorem Kept.steady (hk : M.Keeps safe J Post) (h : M.Kept safe J Post c) :
    M.Steady safe c.state := by
  cases hcur : c.current with
  | none => exact hk.idle _ (h.idle hcur)
  | some r => exact (h.current r hcur).2.steady

/-- A handler that goes on leaves everything but itself as it is. -/
theorem Kept.goHandler {f : Prog A Unit} {rest : List (Prog A Unit)} (h : M.Kept safe J Post c)
    (hframes : c.frames = f :: rest) (hstep : M.goHandler c luck rest f = some c') :
    M.Kept safe J Post c' := by
  have hf : M.Observes safe c.state f := h.frames f (by rw [hframes]; exact List.mem_cons_self ..)
  have hrest : ∀ g ∈ rest, M.Observes safe c.state g := by
    intro g hg
    exact h.frames g (by rw [hframes]; exact List.mem_cons_of_mem f hg)
  cases f with
  | done a =>
    cases hstep
    exact ⟨hrest, h.history, h.idle, h.current⟩
  | spin => cases hstep
  | ask q k =>
    obtain ⟨-, hgo⟩ := hf
    obtain ⟨hsame, hk⟩ := hgo luck
    rw [Machine.goHandler, hsame] at hstep
    cases hstep
    refine ⟨?_, h.history, h.idle, h.current⟩
    intro g hg
    rcases List.mem_cons.mp hg with rfl | hg
    · exact hk
    · exact hrest g hg

/-- A call that goes on keeps its contract, and one that returns has kept it. -/
theorem Kept.goCall {r : Running A σ R} (h : M.Kept safe J Post c) (hframes : c.frames = [])
    (hcur : c.current = some r) (hstep : M.goCall c luck r = some c') : M.Kept safe J Post c' := by
  obtain ⟨hbefore, hmeets⟩ := h.current r hcur
  obtain ⟨x, before, log, rest⟩ := r
  cases rest with
  | done a =>
    cases hstep
    obtain ⟨-, hafter, hpost⟩ := hmeets
    refine ⟨h.frames, ?_, fun _ => hafter, (fun _ hr => nomatch hr)⟩
    intro r hr
    rcases List.mem_cons.mp hr with rfl | hr
    · exact ⟨hbefore, hafter, hpost⟩
    · exact h.history r hr
  | spin => cases hstep
  | ask q k =>
    cases hstep
    obtain ⟨-, hgo⟩ := hmeets
    refine ⟨?_, h.history, (fun hnone => nomatch hnone), ?_⟩
    · intro f hf
      rw [hframes] at hf
      cases hf
    · intro r hr
      cases hr
      exact ⟨hbefore, hgo luck⟩

/-- **One step keeps every contract.** -/
theorem Kept.step (hk : M.Keeps safe J Post) {m : Move L I C} (h : M.Kept safe J Post c)
    (hstep : M.step c m = some c') : M.Kept safe J Post c' := by
  cases m with
  | arrive i =>
    rw [Machine.step] at hstep
    split at hstep
    next henabled =>
      cases hstep
      refine ⟨?_, h.history, h.idle, h.current⟩
      intro f hf
      rcases List.mem_cons.mp hf with rfl | hf
      · exact h.steady hk i henabled
      · exact h.frames f hf
    next => cases hstep
  | call x =>
    rw [Machine.step] at hstep
    split at hstep
    next hframes hcur =>
      cases hstep
      have hJ : J c.state := h.idle hcur
      refine ⟨h.frames, h.history, (fun hnone => nomatch hnone), ?_⟩
      intro r hr
      cases hr
      exact ⟨hJ, hk.call x c.state hJ⟩
    next => cases hstep
  | go luck =>
    rw [Machine.step] at hstep
    split at hstep
    next f rest hframes => exact h.goHandler hframes hstep
    next hframes =>
      split at hstep
      next r hcur => exact h.goCall hframes hcur hstep
      next => cases hstep

/-- **Every interleaving keeps every contract.** -/
theorem Keeps.reaches (hk : M.Keeps safe J Post) (h : M.Kept safe J Post c)
    (hreach : M.Reaches c c') : M.Kept safe J Post c' := by
  induction hreach with
  | refl => exact h
  | tail _ hstep ih =>
    obtain ⟨m, hm⟩ := hstep
    exact ih.step hk hm

theorem kept_start {s : σ} (hJ : J s) : M.Kept safe J Post { state := s } where
  frames _ hf := by cases hf
  history _ hr := by cases hr
  idle _ := hJ
  current _ hr := by cases hr

end soundness
end Machine
end Interact
