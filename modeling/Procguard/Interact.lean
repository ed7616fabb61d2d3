import Mathlib

/- Programs that talk to an environment they do not control. A program `Prog` is
   a tree of requests: `ask q k` hands request `q` out and goes on with whatever
   answer comes back, `spin` is a loop that ran out of fuel. An environment
   answers from the whole log so far, so that "for every environment" ranges over
   every order of answers. The log is kept newest first: a suffix of it is an
   earlier log of the same run.

   `Prog.Ensures K p l Post` is the rule of pre- and postconditions: run from log
   `l`, as long as the answers keep the rely of `K`, every event keeps its
   guarantee and the run ends in `Post` (or is cut off in `K.cut`).
   `Act` adds a state and an error exit that leaves the state behind, and
   `iterate` the loop, whose rule is the induction every loop below uses. -/
namespace Interact

variable {Q : Type} {A : Q → Type} {σ τ ε ε' α β : Type}

/-- One request and the answer it got. -/
structure Ev (A : Q → Type) where
  req : Q
  ans : A req

/-- A log, newest event first. -/
abbrev Log (A : Q → Type) := List (Ev A)

/-- An environment answers each request from the log so far. -/
abbrev Env (A : Q → Type) := Log A → (q : Q) → A q

inductive Prog (A : Q → Type) (α : Type) where
  | done (a : α)
  | spin
  | ask (q : Q) (k : A q → Prog A α)

namespace Prog

def bind : Prog A α → (α → Prog A β) → Prog A β
  | .done a, f => f a
  | .spin, _ => .spin
  | .ask q k, f => .ask q (fun a => (k a).bind f)

/-- The run under `env` from log `l`: the value (`none` when cut off) and the log. -/
def run (env : Env A) : Prog A α → Log A → Option α × Log A
  | .done a, l => (some a, l)
  | .spin, l => (none, l)
  | .ask q k, l => (k (env l q)).run env (⟨q, env l q⟩ :: l)

theorem run_bind (env : Env A) (f : α → Prog A β) : ∀ (p : Prog A α) (l : Log A),
    (p.bind f).run env l = match p.run env l with
      | (some a, l') => (f a).run env l'
      | (none, l') => (none, l')
  | .done _, _ => rfl
  | .spin, _ => rfl
  | .ask q k, l => by simp only [bind, run]; exact run_bind env f (k (env l q)) _

theorem run_extends (env : Env A) : ∀ (p : Prog A α) (l : Log A), l <:+ (p.run env l).2
  | .done _, l => List.suffix_refl l
  | .spin, l => List.suffix_refl l
  | .ask q k, l => (List.suffix_cons _ l).trans (run_extends env (k (env l q)) _)

end Prog

/-! ## Properties of every event of a log -/

/-- `P` holds of every event of the log, given the log before it. -/
def Always (P : Ev A → Log A → Prop) : Log A → Prop
  | [] => True
  | e :: l => P e l ∧ Always P l

namespace Always
variable {P P' : Ev A → Log A → Prop}

@[simp] theorem nil : Always P ([] : Log A) := trivial

@[simp] theorem cons {e : Ev A} {l : Log A} : Always P (e :: l) ↔ P e l ∧ Always P l := Iff.rfl

instance dec [∀ e l, Decidable (P e l)] : ∀ l : Log A, Decidable (Always P l)
  | [] => inferInstanceAs (Decidable True)
  | e :: l => @instDecidableAnd _ _ (inferInstanceAs (Decidable (P e l))) (dec l)

theorem mono (h : ∀ e l, P e l → P' e l) : ∀ {l : Log A}, Always P l → Always P' l
  | [], _ => trivial
  | _ :: _, hl => ⟨h _ _ hl.1, mono h hl.2⟩

theorem of_forall (h : ∀ e l, P e l) : ∀ l : Log A, Always P l
  | [] => trivial
  | e :: l => ⟨h e l, of_forall h l⟩

theorem and : ∀ {l : Log A}, Always P l → Always P' l → Always (fun e l => P e l ∧ P' e l) l
  | [], _, _ => trivial
  | _ :: _, h, h' => ⟨⟨h.1, h'.1⟩, and h.2 h'.2⟩

theorem suffix {l l' : Log A} (hs : l <:+ l') (h : Always P l') : Always P l := by
  obtain ⟨t, rfl⟩ := hs
  induction t with
  | nil => exact h
  | cons e t ih => exact ih h.2

theorem at_event {l : Log A} (h : Always P l) {l₂ l₁ : Log A} {e : Ev A}
    (hl : l = l₂ ++ e :: l₁) : P e l₁ :=
  (suffix (l := e :: l₁) ⟨l₂, hl.symm⟩ h).1

end Always

/-- `P` holds of some event of the log, given the log before it. -/
def Ever (P : Ev A → Log A → Prop) : Log A → Prop
  | [] => False
  | e :: l => P e l ∨ Ever P l

namespace Ever
variable {P P' : Ev A → Log A → Prop}

@[simp] theorem nil : ¬ Ever P ([] : Log A) := id

@[simp] theorem cons {e : Ev A} {l : Log A} : Ever P (e :: l) ↔ P e l ∨ Ever P l := Iff.rfl

instance dec [∀ e l, Decidable (P e l)] : ∀ l : Log A, Decidable (Ever P l)
  | [] => inferInstanceAs (Decidable False)
  | e :: l => @instDecidableOr _ _ (inferInstanceAs (Decidable (P e l))) (dec l)

theorem mono (h : ∀ e l, P e l → P' e l) : ∀ {l : Log A}, Ever P l → Ever P' l
  | _ :: _, .inl he => .inl (h _ _ he)
  | _ :: _, .inr hl => .inr (mono h hl)

theorem later {l l' : Log A} (hs : l <:+ l') (h : Ever P l) : Ever P l' := by
  obtain ⟨t, rfl⟩ := hs
  induction t with
  | nil => exact h
  | cons e t ih => exact .inr ih

theorem exists_iff {ι : Type} {P : ι → Ev A → Log A → Prop} :
    ∀ {l : Log A}, Ever (fun e l => ∃ i, P i e l) l ↔ ∃ i, Ever (P i) l
  | [] => ⟨nofun, fun ⟨_, h⟩ => h⟩
  | e :: l => by
    simp only [cons, exists_or]
    exact or_congr_right exists_iff

/-- The event that has `P`, and the log around it. -/
theorem witness : ∀ {l : Log A}, Ever P l → ∃ later e before, l = later ++ e :: before ∧ P e before
  | _ :: _, .inl he => ⟨[], _, _, rfl, he⟩
  | e :: _, .inr hl => by
    obtain ⟨later, e', before, rfl, he⟩ := witness hl
    exact ⟨e :: later, e', before, rfl, he⟩

theorem not_iff : ∀ {l : Log A}, ¬ Ever P l ↔ Always (fun e l => ¬ P e l) l
  | [] => ⟨fun _ => trivial, fun _ => id⟩
  | e :: l => by rw [cons, Always.cons, not_or, not_iff]

end Ever

/-- The log goes on by requests that satisfy `P`. -/
def Grown (P : Q → Prop) (l l' : Log A) : Prop := ∃ t, l' = t ++ l ∧ ∀ e ∈ t, P e.req

namespace Grown
variable {P P' : Q → Prop} {l l₁ l₂ : Log A}

theorem refl (l : Log A) : Grown P l l := ⟨[], rfl, List.forall_mem_nil _⟩

theorem trans (h : Grown P l l₁) (h' : Grown P l₁ l₂) : Grown P l l₂ := by
  obtain ⟨t, rfl, ht⟩ := h
  obtain ⟨t', rfl, ht'⟩ := h'
  refine ⟨t' ++ t, (List.append_assoc t' t l).symm, fun e he => ?_⟩
  exact (List.mem_append.mp he).elim (ht' e) (ht e)

theorem event {q : Q} (a : A q) (l : Log A) (hq : P q) : Grown P l (⟨q, a⟩ :: l) :=
  ⟨[⟨q, a⟩], rfl, fun e he => by rw [List.mem_singleton.mp he]; exact hq⟩

theorem mono (h : ∀ q, P q → P' q) (hl : Grown P l l₁) : Grown P' l l₁ := by
  obtain ⟨t, rfl, ht⟩ := hl
  exact ⟨t, rfl, fun e he => h e.req (ht e he)⟩

theorem suffix (h : Grown P l l₁) : l <:+ l₁ := by
  obtain ⟨t, rfl, -⟩ := h
  exact List.suffix_append t l

/-- An event of the added part. -/
theorem at_event (h : Grown P l l₁) {later before : Log A} {e : Ev A}
    (hl : l₁ = later ++ e :: before) (hbefore : l <:+ before) : P e.req := by
  obtain ⟨t, rfl, ht⟩ := h
  obtain ⟨t', rfl⟩ := hbefore
  have hsplit : t = later ++ e :: t' :=
    List.append_cancel_right (hl.trans (List.append_assoc later (e :: t') l).symm)
  exact ht e (by rw [hsplit]; exact List.mem_append_right _ (List.mem_cons_self ..))

/-- Around one event the log grows by requests with `P`: an event without `P` is that one. -/
theorem at_only {e₀ : Ev A} (h₁ : Grown P l l₁) (h₂ : Grown P (e₀ :: l₁) l₂)
    {later before : Log A} {e : Ev A} (hl : l₂ = later ++ e :: before) (hbefore : l <:+ before)
    (he : ¬ P e.req) : e = e₀ ∧ before = l₁ := by
  have hsuf : (e :: before) <:+ l₂ := ⟨later, hl.symm⟩
  rcases Nat.lt_trichotomy (e :: before).length (e₀ :: l₁).length with hlt | heq | hgt
  · have hin : (e :: before) <:+ l₁ :=
      List.suffix_of_suffix_length_le hsuf ((List.suffix_cons e₀ l₁).trans h₂.suffix)
        (Nat.le_of_lt_succ hlt)
    obtain ⟨later', hl'⟩ := hin
    exact absurd (h₁.at_event hl'.symm hbefore) he
  · have hsame : e :: before = e₀ :: l₁ :=
      (List.suffix_of_suffix_length_le hsuf h₂.suffix (Nat.le_of_eq heq)).eq_of_length heq
    exact List.cons.inj hsame
  · have hin : (e₀ :: l₁) <:+ before :=
      List.suffix_of_suffix_length_le h₂.suffix ((List.suffix_cons e before).trans hsuf)
        (Nat.le_of_lt_succ hgt)
    exact absurd (h₂.at_event hl hin) he

end Grown

/-! ## Rely, guarantee and postcondition -/

/-- What a program may assume of the answers, what it promises of each event, and
    what it promises of the log when a loop is cut off. -/
structure Contract (A : Q → Type) where
  rely : Ev A → Log A → Prop := fun _ _ => True
  guar : Ev A → Log A → Prop := fun _ _ => True
  cut : Log A → Prop := fun _ => True

/-- What one request has to keep: its guarantee, and `P` of the log it leaves. -/
@[reducible] def Asks (K : Contract A) (q : Q) (l : Log A) (P : A q → Log A → Prop) : Prop :=
  ∀ a, K.rely ⟨q, a⟩ l → K.guar ⟨q, a⟩ l ∧ P a (⟨q, a⟩ :: l)

theorem Asks.mono {K : Contract A} {q : Q} {l : Log A} {P P' : A q → Log A → Prop}
    (hq : Asks K q l P) (h : ∀ a, P a (⟨q, a⟩ :: l) → P' a (⟨q, a⟩ :: l)) : Asks K q l P' :=
  fun a hr => ⟨(hq a hr).1, h a (hq a hr).2⟩

def Prog.Ensures (K : Contract A) : Prog A α → Log A → (α → Log A → Prop) → Prop
  | .done a, l, Post => Post a l
  | .spin, l, _ => K.cut l
  | .ask q k, l, Post => ∀ a, K.rely ⟨q, a⟩ l →
      K.guar ⟨q, a⟩ l ∧ (k a).Ensures K (⟨q, a⟩ :: l) Post

namespace Prog
variable {K : Contract A}

theorem Ensures.mono {Post Post' : α → Log A → Prop} (h : ∀ a l, Post a l → Post' a l) :
    ∀ {p : Prog A α} {l : Log A}, p.Ensures K l Post → p.Ensures K l Post'
  | .done a, l, hp => h a l hp
  | .spin, _, hp => hp
  | .ask _ _, _, hp => fun a hr => ⟨(hp a hr).1, Ensures.mono h (hp a hr).2⟩

theorem ensures_bind {Post : β → Log A → Prop} {f : α → Prog A β} :
    ∀ {p : Prog A α} {l : Log A},
      (p.bind f).Ensures K l Post ↔ p.Ensures K l (fun a l' => (f a).Ensures K l' Post)
  | .done _, _ => Iff.rfl
  | .spin, _ => Iff.rfl
  | .ask q k, l => by
    simp only [bind, Ensures]
    exact forall_congr' fun a => imp_congr_right fun _ => and_congr_right fun _ => ensures_bind

/-- What holds whatever is answered can be added to a postcondition. -/
theorem Ensures.with {Post Post' : α → Log A → Prop} :
    ∀ {p : Prog A α} {l : Log A}, p.Ensures K l Post → p.Ensures {} l Post' →
      p.Ensures K l fun a l' => Post a l' ∧ Post' a l'
  | .done _, _, h, h' => ⟨h, h'⟩
  | .spin, _, h, _ => h
  | .ask _ _, _, h, h' => fun a hr => ⟨(h a hr).1, Ensures.with (h a hr).2 (h' a trivial).2⟩

/-- A contract that promises nothing holds of every program. -/
theorem ensures_of_forall {Post : α → Log A → Prop} (hg : ∀ e l, K.guar e l) (hc : ∀ l, K.cut l)
    (hp : ∀ a l, Post a l) : ∀ (p : Prog A α) (l : Log A), p.Ensures K l Post
  | .done a, l => hp a l
  | .spin, l => hc l
  | .ask _ k, l => fun a _ => ⟨hg _ l, ensures_of_forall hg hc hp (k a) _⟩

/-- A program only adds to the log. -/
theorem ensures_extends : ∀ (p : Prog A α) (l : Log A), p.Ensures {} l fun _ l' => l <:+ l'
  | .done _, l => List.suffix_refl l
  | .spin, _ => trivial
  | .ask _ k, l => fun a _ => ⟨trivial, (ensures_extends (k a) _).mono fun _ _ hl =>
      (List.suffix_cons _ l).trans hl⟩

/-- The contract's promises hold of every run whose answers kept the rely. -/
theorem Ensures.sound {Post : α → Log A → Prop} (env : Env A) {p : Prog A α} {l : Log A}
    (hp : p.Ensures K l Post) (hg : Always K.guar l) (hr : Always K.rely (p.run env l).2) :
    Always K.guar (p.run env l).2 ∧
      (∀ a, (p.run env l).1 = some a → Post a (p.run env l).2) ∧
      ((p.run env l).1 = none → K.cut (p.run env l).2) := by
  induction p generalizing l with
  | done a =>
    refine ⟨hg, ?_, nofun⟩
    rintro b ⟨⟩
    exact hp
  | spin => exact ⟨hg, nofun, fun _ => hp⟩
  | ask q k ih =>
    have hr₁ : K.rely ⟨q, env l q⟩ l :=
      (hr.suffix (run_extends env (k (env l q)) (⟨q, env l q⟩ :: l))).1
    obtain ⟨hg₁, hk⟩ := hp (env l q) hr₁
    exact ih (env l q) hk ⟨hg₁, hg⟩ hr

/-- The postcondition without the promises made on the way. -/
theorem Ensures.forget {Post : α → Log A → Prop} : ∀ {p : Prog A α} {l : Log A},
    p.Ensures K l Post → p.Ensures { rely := K.rely } l Post
  | .done _, _, hp => hp
  | .spin, _, _ => trivial
  | .ask _ _, _, hp => fun a hr => ⟨trivial, (hp a hr).2.forget⟩

/-- A run that returns is in the postcondition, whatever the log before it held. -/
theorem Ensures.returns {Post : α → Log A → Prop} (env : Env A) {p : Prog A α} {l : Log A}
    (hp : p.Ensures K l Post) (hr : Always K.rely (p.run env l).2) {a : α}
    (ha : (p.run env l).1 = some a) : Post a (p.run env l).2 :=
  (hp.forget.sound env (Always.of_forall (fun _ _ => trivial) l) hr).2.1 a ha

/-- The guarantee of each event of the run itself, whatever the log before it held. -/
theorem Ensures.event {Post : α → Log A → Prop} (env : Env A) {p : Prog A α} {l : Log A}
    (hp : p.Ensures K l Post) (hr : Always K.rely (p.run env l).2) {later before : Log A} {e : Ev A}
    (hl : (p.run env l).2 = later ++ e :: before) (hbefore : l <:+ before) : K.guar e before := by
  have hnot : ∀ l' : Log A, l' = later ++ e :: before → l'.length ≠ l.length := by
    intro l' hl' hlen
    have h₁ := congrArg List.length hl'
    have h₂ := hbefore.length_le
    simp only [List.length_append, List.length_cons] at h₁
    omega
  induction p generalizing l with
  | done a => exact absurd rfl (hnot _ hl)
  | spin => exact absurd rfl (hnot _ hl)
  | ask q k ih =>
    have hext := run_extends env (k (env l q)) (⟨q, env l q⟩ :: l)
    obtain ⟨hg, hk⟩ := hp (env l q) (hr.suffix hext).1
    by_cases hlen : before.length = l.length
    · have hsame : l = before := hbefore.eq_of_length hlen.symm
      subst hsame
      have hsuf : (e :: l) <:+ ((Prog.ask q k).run env l).2 := ⟨later, hl.symm⟩
      have heq : ⟨q, env l q⟩ :: l = e :: l :=
        (List.suffix_of_suffix_length_le hext hsuf (Nat.le_refl _)).eq_of_length rfl
      rw [← (List.cons.inj heq).1]
      exact hg
    · have hsuf : (⟨q, env l q⟩ :: l) <:+ before := by
        refine List.suffix_of_suffix_length_le hext ((List.suffix_cons e before).trans ⟨later, hl.symm⟩) ?_
        have := hbefore.length_le
        rw [List.length_cons]
        omega
      refine ih (env l q) hk hr hl hsuf fun l' hl' h => ?_
      have h₁ := congrArg List.length hl'
      have h₂ := hsuf.length_le
      simp only [List.length_append, List.length_cons] at h h₁ h₂
      omega

/-- The contract that fixes every answer to the environment's. -/
def answers (env : Env A) : Contract A where
  rely e l := e.ans = env l e.req
  cut _ := False

/-- A run only holds the environment's own answers. -/
theorem run_answers (env : Env A) : ∀ (p : Prog A α) {l : Log A}, Always (answers env).rely l →
    Always (answers env).rely (p.run env l).2
  | .done _, _, hl => hl
  | .spin, _, hl => hl
  | .ask q k, l, hl => run_answers env (k (env l q)) ⟨rfl, hl⟩

/-- Under the environment's own answers a program without an endless loop returns,
    in its postcondition. -/
theorem Ensures.on_run {env : Env A} {Post : α → Log A → Prop} {p : Prog A α} {l : Log A}
    (hp : p.Ensures (answers env) l Post) :
    ∃ a, (p.run env l).1 = some a ∧ Post a (p.run env l).2 := by
  induction p generalizing l with
  | done a => exact ⟨a, rfl, hp⟩
  | spin => exact hp.elim
  | ask q k ih => exact ih (env l q) (hp (env l q) rfl).2

/-- A log with the environment's own answers comes from the environment's run. -/
theorem ensures_replay (env : Env A) : ∀ (p : Prog A α) (l : Log A),
    p.Ensures {} l fun a l' => Always (answers env).rely l' → p.run env l = (some a, l')
  | .done _, _ => fun _ => rfl
  | .spin, _ => trivial
  | .ask q k, l => by
    intro a _
    refine ⟨trivial, ((ensures_replay env (k a) _).with (ensures_extends (k a) _)).mono ?_⟩
    rintro x l' ⟨hrun, hs⟩ hr
    have ha : a = env l q := (hr.suffix hs).1
    rw [run, ← ha]
    exact hrun hr

/-- Every request the program can make satisfies `P`. -/
def Asking (P : Q → Prop) : Prog A α → Prop
  | .done _ => True
  | .spin => True
  | .ask q k => P q ∧ ∀ a, (k a).Asking P

theorem asking_bind {P : Q → Prop} {f : α → Prog A β} :
    ∀ {p : Prog A α}, p.Asking P → (∀ a, (f a).Asking P) → (p.bind f).Asking P
  | .done a, _, hf => hf a
  | .spin, _, _ => trivial
  | .ask _ _, hp, hf => ⟨hp.1, fun a => asking_bind (hp.2 a) hf⟩

/-- The rest only has to be known for what the first part can return. -/
theorem asking_bind_returns {P : Q → Prop} {R : α → Prop} {f : α → Prog A β} :
    ∀ {p : Prog A α} {l : Log A}, p.Asking P → p.Ensures {} l (fun a _ => R a) →
      (∀ a, R a → (f a).Asking P) → (p.bind f).Asking P
  | .done a, _, _, h, hf => hf a h
  | .spin, _, _, _, _ => trivial
  | .ask _ _, _, hp, h, hf =>
    ⟨hp.1, fun a => asking_bind_returns (hp.2 a) (h a trivial).2 hf⟩

theorem Asking.mono {P P' : Q → Prop} (h : ∀ q, P q → P' q) :
    ∀ {p : Prog A α}, p.Asking P → p.Asking P'
  | .done _, _ => trivial
  | .spin, _ => trivial
  | .ask _ _, hp => ⟨h _ hp.1, fun a => Asking.mono h (hp.2 a)⟩

/-- Such a program adds such requests to the log. -/
theorem Asking.grown {P : Q → Prop} (env : Env A) : ∀ {p : Prog A α}, p.Asking P →
    ∀ l : Log A, Grown P l (p.run env l).2
  | .done _, _, l => .refl l
  | .spin, _, l => .refl l
  | .ask q _, hp, l => (Grown.event (env l q) l hp.1).trans (Asking.grown env (hp.2 (env l q)) _)

/-- An invariant that every such request keeps is kept by the program. -/
theorem Asking.ensures {P : Q → Prop} (J : Log A → Prop)
    (hq : ∀ q l, P q → J l → Asks K q l fun _ l' => J l') (hcut : ∀ l, J l → K.cut l) :
    ∀ {p : Prog A α} {l : Log A}, p.Asking P → J l → p.Ensures K l fun _ l' => J l'
  | .done _, _, _, hJ => hJ
  | .spin, _, _, hJ => hcut _ hJ
  | .ask q _, l, hp, hJ => fun a hr =>
    ⟨(hq q l hp.1 hJ a hr).1, Asking.ensures J hq hcut (hp.2 a) (hq q l hp.1 hJ a hr).2⟩

end Prog

/-! ## Programs with a state and an error exit -/

/-- A program over a state; an error leaves the state as it is at that point. -/
def Act (A : Q → Type) (σ ε α : Type) : Type := σ → Prog A (Except ε α × σ)

namespace Act

def bind (m : Act A σ ε α) (f : α → Act A σ ε β) : Act A σ ε β := fun s =>
  (m s).bind fun r => match r.1 with
    | .ok a => f a r.2
    | .error e => .done (.error e, r.2)

instance : Monad (Act A σ ε) where
  pure a := fun s => .done (.ok a, s)
  bind := bind

def call (q : Q) : Act A σ ε (A q) := fun s => .ask q fun a => .done (.ok a, s)

def throw (e : ε) : Act A σ ε α := fun s => .done (.error e, s)

def get : Act A σ ε σ := fun s => .done (.ok s, s)

def modify (f : σ → σ) : Act A σ ε Unit := fun s => .done (.ok (), f s)

theorem run_bind (env : Env A) (m : Act A σ ε α) (f : α → Act A σ ε β) (s : σ) (l : Log A) :
    ((m >>= f) s).run env l = match (m s).run env l with
      | (some (.ok a, s'), l') => (f a s').run env l'
      | (some (.error e, s'), l') => (some (.error e, s'), l')
      | (none, l') => (none, l') := by
  show ((m s).bind _).run env l = _
  rw [Prog.run_bind]
  rcases (m s).run env l with ⟨_ | ⟨_ | a, s'⟩, l'⟩ <;> rfl

/-- The run of the first part is an earlier log of the whole run. -/
theorem run_bind_suffix {env : Env A} {m : Act A σ ε α} {f : α → Act A σ ε β} {s : σ} {l l' : Log A}
    {r : Option (Except ε β × σ)} (h : ((m >>= f) s).run env l = (r, l')) :
    ((m s).run env l).2 <:+ l' := by
  have hl : (((m >>= f) s).run env l).2 = l' := congrArg Prod.snd h
  rw [run_bind] at hl
  revert hl
  rcases (m s).run env l with ⟨_ | ⟨_ | a, s'⟩, l₁⟩ <;> intro hl
  · exact ⟨[], hl⟩
  · exact ⟨[], hl⟩
  · exact (Prog.run_extends env (f a s') l₁).trans ⟨[], hl⟩

/-- A program that returns a result: an error is thrown. -/
def lift (p : Prog A (Except ε α)) : Act A σ ε α := fun s => p.bind fun r => .done (r, s)

/-- A program that returns a value. -/
def exec (p : Prog A α) : Act A σ ε α := fun s => p.bind fun a => .done (.ok a, s)

/-- Run `m` on a part of the state and hand its result over, error or not. -/
def attempt (view : σ → τ) (put : τ → σ → σ) (m : Act A τ ε' α) : Act A σ ε (Except ε' α) :=
  fun s => (m (view s)).bind fun r => .done (.ok r.1, put r.2 s)

/-- Run `m` on a part of the state; an error of `m` is an error of the whole. -/
def focus (view : σ → τ) (put : τ → σ → σ) (m : Act A τ ε α) : Act A σ ε α :=
  fun s => (m (view s)).bind fun r => .done (r.1, put r.2 s)

/-- `m`, then `f` on the state whichever way `m` ended. -/
def onExit (m : Act A σ ε α) (f : σ → Prog A σ) : Act A σ ε α := fun s =>
  (m s).bind fun r => (f r.2).bind fun s' => .done (r.1, s')

/-- Run `body` from `x` until it yields a value, at most `n` times. -/
def iterate (body : α → Act A σ ε (α ⊕ β)) : Nat → α → Act A σ ε β
  | 0, _ => fun _ => .spin
  | n + 1, x => body x >>= fun r => match r with
    | .inl x' => iterate body n x'
    | .inr b => pure b

def Ensures (K : Contract A) (m : Act A σ ε α) (s : σ) (l : Log A)
    (Post : Except ε α → σ → Log A → Prop) : Prop :=
  (m s).Ensures K l fun r l' => Post r.1 r.2 l'

variable {K : Contract A} {s : σ} {l : Log A}

theorem Ensures.mono {m : Act A σ ε α} {Post Post' : Except ε α → σ → Log A → Prop}
    (h : m.Ensures K s l Post) (hp : ∀ r s' l', Post r s' l' → Post' r s' l') :
    m.Ensures K s l Post' :=
  Prog.Ensures.mono (fun (r : Except ε α × σ) l' => hp r.1 r.2 l') h

theorem Ensures.with {m : Act A σ ε α} {Post Post' : Except ε α → σ → Log A → Prop}
    (h : m.Ensures K s l Post) (h' : m.Ensures {} s l Post') :
    m.Ensures K s l fun r s' l' => Post r s' l' ∧ Post' r s' l' :=
  Prog.Ensures.with h h'

theorem ensures_extends (m : Act A σ ε α) (s : σ) (l : Log A) :
    m.Ensures {} s l fun _ _ l' => l <:+ l' := Prog.ensures_extends (m s) l

section rules
variable {Post : Except ε α → σ → Log A → Prop} {Postβ : Except ε β → σ → Log A → Prop}

@[simp] theorem ensures_pure {a : α} :
    (pure a : Act A σ ε α).Ensures K s l Post ↔ Post (.ok a) s l := Iff.rfl

@[simp] theorem ensures_throw {e : ε} :
    (throw e : Act A σ ε α).Ensures K s l Post ↔ Post (.error e) s l := Iff.rfl

@[simp] theorem ensures_call {q : Q} {P : Except ε (A q) → σ → Log A → Prop} :
    (call q : Act A σ ε (A q)).Ensures K s l P ↔
      Asks K q l fun a l' => P (.ok a) s l' := Iff.rfl

@[simp] theorem ensures_get {P : Except ε σ → σ → Log A → Prop} :
    (get : Act A σ ε σ).Ensures K s l P ↔ P (.ok s) s l := Iff.rfl

@[simp] theorem ensures_modify {f : σ → σ} {P : Except ε Unit → σ → Log A → Prop} :
    (modify f : Act A σ ε Unit).Ensures K s l P ↔ P (.ok ()) (f s) l := Iff.rfl

theorem ensures_bind {m : Act A σ ε α} {f : α → Act A σ ε β} :
    (m >>= f).Ensures K s l Postβ ↔ m.Ensures K s l (fun r s' l' => match r with
      | .ok a => (f a).Ensures K s' l' Postβ
      | .error e => Postβ (.error e) s' l') := by
  show ((m s).bind _).Ensures K l _ ↔ _
  rw [Prog.ensures_bind]
  refine ⟨Prog.Ensures.mono ?_, Prog.Ensures.mono ?_⟩ <;>
  · rintro ⟨r, s'⟩ l' h
    cases r <;> exact h

/-- What the last part returns, whatever the parts before it do. -/
theorem ensures_last {m : Act A σ ε α} {f : α → Act A σ ε β} {P : Except ε β → Prop}
    (herr : ∀ e, P (.error e)) (h : ∀ a s l, (f a).Ensures {} s l fun r _ _ => P r) :
    (m >>= f).Ensures {} s l fun r _ _ => P r := by
  rw [ensures_bind]
  refine Prog.ensures_of_forall (fun _ _ => trivial) (fun _ => trivial) (fun r l' => ?_) (m s) l
  obtain ⟨r, s'⟩ := r
  cases r with
  | ok a => exact h a s' l'
  | error e => exact herr e

theorem ensures_lift {p : Prog A (Except ε α)} :
    (lift p : Act A σ ε α).Ensures K s l Post ↔ p.Ensures K l (fun r l' => Post r s l') := by
  simp only [Ensures, lift, Prog.ensures_bind]; rfl

theorem ensures_exec {p : Prog A α} :
    (exec p : Act A σ ε α).Ensures K s l Post ↔ p.Ensures K l (fun a l' => Post (.ok a) s l') := by
  simp only [Ensures, exec, Prog.ensures_bind]; rfl

theorem ensures_attempt {view : σ → τ} {put : τ → σ → σ} {m : Act A τ ε' α}
    {P : Except ε (Except ε' α) → σ → Log A → Prop} :
    (attempt view put m : Act A σ ε _).Ensures K s l P ↔
      m.Ensures K (view s) l (fun r t l' => P (.ok r) (put t s) l') := by
  simp only [Ensures, attempt, Prog.ensures_bind]; rfl

theorem ensures_focus {view : σ → τ} {put : τ → σ → σ} {m : Act A τ ε α} :
    (focus view put m).Ensures K s l Post ↔
      m.Ensures K (view s) l (fun r t l' => Post r (put t s) l') := by
  simp only [Ensures, focus, Prog.ensures_bind]; rfl

theorem ensures_onExit {m : Act A σ ε α} {f : σ → Prog A σ} :
    (m.onExit f).Ensures K s l Post ↔
      m.Ensures K s l (fun r s' l' => (f s').Ensures K l' (fun s'' l'' => Post r s'' l'')) := by
  simp only [Ensures, onExit, Prog.ensures_bind]; rfl

theorem ensures_ite {c : Prop} [Decidable c] {m m' : Act A σ ε α}
    (h : c → m.Ensures K s l Post) (h' : ¬c → m'.Ensures K s l Post) :
    (if c then m else m').Ensures K s l Post := by
  by_cases hc : c
  · rw [if_pos hc]; exact h hc
  · rw [if_neg hc]; exact h' hc

end rules

/-- Every request of the program satisfies `P`. -/
def Asking (P : Q → Prop) (m : Act A σ ε α) : Prop := ∀ s, (m s).Asking P

namespace Asking
variable {P : Q → Prop}

theorem mono {P' : Q → Prop} (h : ∀ q, P q → P' q) {m : Act A σ ε α} (hm : Asking P m) :
    Asking P' m := fun s => (hm s).mono h

theorem pure {a : α} : Asking P (pure a : Act A σ ε α) := fun _ => trivial

theorem throw {e : ε} : Asking P (throw e : Act A σ ε α) := fun _ => trivial

theorem call {q : Q} (h : P q) : Asking P (call q : Act A σ ε (A q)) :=
  fun _ => ⟨h, fun _ => trivial⟩

theorem get : Asking P (get : Act A σ ε σ) := fun _ => trivial

theorem modify {f : σ → σ} : Asking P (modify f : Act A σ ε Unit) := fun _ => trivial

theorem bind {m : Act A σ ε α} {f : α → Act A σ ε β} (hm : Asking P m)
    (hf : ∀ a, Asking P (f a)) : Asking P (m >>= f) := by
  intro s
  refine Prog.asking_bind (hm s) ?_
  rintro ⟨r, s'⟩
  cases r with
  | ok a => exact hf a s'
  | error e => exact trivial

theorem bind_returns {R : α → Prop} {m : Act A σ ε α} {f : α → Act A σ ε β} (hm : Asking P m)
    (hr : ∀ s, m.Ensures {} s [] fun r _ _ => ∀ a, r = .ok a → R a)
    (hf : ∀ a, R a → Asking P (f a)) : Asking P (m >>= f) := by
  intro s
  refine Prog.asking_bind_returns (hm s) (hr s) ?_
  rintro ⟨r, s'⟩ hR
  cases r with
  | ok a => exact hf a (hR a rfl) s'
  | error e => exact trivial

theorem exec {p : Prog A α} (h : p.Asking P) : Asking P (exec p : Act A σ ε α) :=
  fun _ => Prog.asking_bind h fun _ => trivial

theorem focus {view : σ → τ} {put : τ → σ → σ} {m : Act A τ ε α} (h : Asking P m) :
    Asking P (focus view put m) :=
  fun s => Prog.asking_bind (h (view s)) fun _ => trivial

theorem attempt {view : σ → τ} {put : τ → σ → σ} {m : Act A τ ε' α} (h : Asking P m) :
    Asking P (attempt view put m : Act A σ ε (Except ε' α)) :=
  fun s => Prog.asking_bind (h (view s)) fun _ => trivial

theorem ite {c : Prop} [Decidable c] {m m' : Act A σ ε α} (h : Asking P m) (h' : Asking P m') :
    Asking P (if c then m else m') := by
  by_cases hc : c
  · rw [if_pos hc]; exact h
  · rw [if_neg hc]; exact h'

theorem iterate {body : α → Act A σ ε (α ⊕ β)} (h : ∀ x, Asking P (body x)) :
    ∀ n x, Asking P (iterate body n x)
  | 0, _ => fun _ => trivial
  | n + 1, x => bind (h x) fun r => match r with
    | .inl x' => iterate h n x'
    | .inr _ => pure

/-- An invariant that every such request keeps is kept by the program. -/
theorem ensures {m : Act A σ ε α} (h : Asking P m) (J : Log A → Prop)
    (hq : ∀ q l, P q → J l → Asks K q l fun _ l' => J l') (hcut : ∀ l, J l → K.cut l)
    (hJ : J l) : m.Ensures K s l fun _ _ l' => J l' :=
  Prog.Asking.ensures J hq hcut (h s) hJ

end Asking

/-- Such a program adds such requests to the log. -/
theorem Asking.ensures_grown {P : Q → Prop} {m : Act A σ ε α} (h : Asking P m) (s : σ) (l : Log A) :
    m.Ensures {} s l fun _ _ l' => Grown P l l' :=
  h.ensures (fun l' => Grown P l l')
    (fun _ l' hq hl a _ => ⟨trivial, hl.trans (.event a l' hq)⟩) (fun _ _ => trivial) (.refl l)

/-- The loop rule. `J n x s l` holds at the loop head with `n` rounds of fuel left;
    a round either keeps it or ends in the postcondition. -/
theorem ensures_iterate_count {body : α → Act A σ ε (α ⊕ β)}
    {Post : Except ε β → σ → Log A → Prop} (J : Nat → α → σ → Log A → Prop)
    (hbody : ∀ n x s l, J (n + 1) x s l → (body x).Ensures K s l (fun r s' l' => match r with
      | .ok (.inl x') => J n x' s' l'
      | .ok (.inr b) => Post (.ok b) s' l'
      | .error e => Post (.error e) s' l'))
    (hcut : ∀ x s l, J 0 x s l → K.cut l) :
    ∀ n x s l, J n x s l → (iterate body n x).Ensures K s l Post := by
  intro n
  induction n with
  | zero => intro x s l hJ; exact hcut x s l hJ
  | succ n ih =>
    intro x s l hJ
    rw [iterate, ensures_bind]
    refine (hbody n x s l hJ).mono fun r s' l' hr => ?_
    match r, hr with
    | .ok (.inl x'), hr => exact ih x' s' l' hr
    | .ok (.inr b), hr => exact hr
    | .error e, hr => exact hr

/-- The loop rule without the fuel count. -/
theorem ensures_iterate {body : α → Act A σ ε (α ⊕ β)}
    {Post : Except ε β → σ → Log A → Prop} (J : α → σ → Log A → Prop)
    (hbody : ∀ x s l, J x s l → (body x).Ensures K s l (fun r s' l' => match r with
      | .ok (.inl x') => J x' s' l'
      | .ok (.inr b) => Post (.ok b) s' l'
      | .error e => Post (.error e) s' l'))
    (hcut : ∀ x s l, J x s l → K.cut l) (n : Nat) {x : α} (hJ : J x s l) :
    (iterate body n x).Ensures K s l Post :=
  ensures_iterate_count (fun _ => J) (fun _ => hbody) hcut n x s l hJ

/-- The loop heads a run of the loop passes through. -/
inductive Reaches (env : Env A) (body : α → Act A σ ε (α ⊕ β)) (x₀ : α) (s₀ : σ) (l₀ : Log A) :
    α → σ → Log A → Prop
  | start : Reaches env body x₀ s₀ l₀ x₀ s₀ l₀
  | round {x x' : α} {s s' : σ} {l l' : Log A} (h : Reaches env body x₀ s₀ l₀ x s l)
      (hb : (body x s).run env l = (some (.ok (.inl x'), s'), l')) :
      Reaches env body x₀ s₀ l₀ x' s' l'

theorem Reaches.extends {env : Env A} {body : α → Act A σ ε (α ⊕ β)} {x₀ : α} {s₀ : σ}
    {l₀ : Log A} {x : α} {s : σ} {l : Log A} (h : Reaches env body x₀ s₀ l₀ x s l) :
    l₀ <:+ l := by
  induction h with
  | start => exact List.suffix_refl _
  | @round x x' s s' l l' h hb ih =>
    have hsuf := Prog.run_extends env (body x s) l
    rw [hb] at hsuf
    exact ih.trans hsuf

/-- What holds at the first loop head and is kept by a round holds at every one. -/
theorem Reaches.invariant {env : Env A} {body : α → Act A σ ε (α ⊕ β)} {x₀ : α} {s₀ : σ}
    {l₀ : Log A} (J : α → σ → Log A → Prop)
    (hbody : ∀ x s l, J x s l → (body x).Ensures K s l (fun r s' l' => match r with
      | .ok (.inl x') => J x' s' l'
      | _ => True))
    (h₀ : J x₀ s₀ l₀) (hg₀ : Always K.guar l₀) {x : α} {s : σ} {l : Log A}
    (h : Reaches env body x₀ s₀ l₀ x s l) (hr : Always K.rely l) :
    J x s l ∧ Always K.guar l := by
  induction h with
  | start => exact ⟨h₀, hg₀⟩
  | @round x x' s s' l l' h hb ih =>
    have hsuf : l <:+ l' := by
      have := Prog.run_extends env (body x s) l
      rw [hb] at this
      exact this
    obtain ⟨hJ, hg⟩ := ih (hr.suffix hsuf)
    have hs := Prog.Ensures.sound env (hbody x s l hJ) hg (by rw [hb]; exact hr)
    rw [hb] at hs
    exact ⟨hs.2.1 _ rfl, hs.1⟩

/-- Every request of the program satisfies `P`, and it throws no error. -/
structure Unfailing (P : Q → Prop) (m : Act A σ ε α) : Prop where
  asking : Asking P m
  ok : ∀ s l, m.Ensures {} s l fun r _ _ => ∃ a, r = .ok a

namespace Unfailing
variable {P : Q → Prop}

theorem mono {P' : Q → Prop} (h : ∀ q, P q → P' q) {m : Act A σ ε α} (hm : Unfailing P m) :
    Unfailing P' m := ⟨hm.asking.mono h, hm.ok⟩

theorem pure {a : α} : Unfailing P (pure a : Act A σ ε α) := ⟨.pure, fun _ _ => ⟨a, rfl⟩⟩

theorem call {q : Q} (h : P q) : Unfailing P (call q : Act A σ ε (A q)) :=
  ⟨.call h, fun _ _ a _ => ⟨trivial, a, rfl⟩⟩

theorem bind {m : Act A σ ε α} {f : α → Act A σ ε β} (hm : Unfailing P m)
    (hf : ∀ a, Unfailing P (f a)) : Unfailing P (m >>= f) := by
  refine ⟨hm.asking.bind fun a => (hf a).asking, fun s l => ensures_bind.mpr ?_⟩
  refine (hm.ok s l).mono fun r s' l' hr => ?_
  obtain ⟨a, rfl⟩ := hr
  exact (hf a).ok s' l'

theorem ite {c : Prop} [Decidable c] {m m' : Act A σ ε α} (h : Unfailing P m)
    (h' : Unfailing P m') : Unfailing P (if c then m else m') :=
  ⟨h.asking.ite h'.asking, fun s l => ensures_ite (fun _ => h.ok s l) fun _ => h'.ok s l⟩

theorem iterate {body : α → Act A σ ε (α ⊕ β)} (h : ∀ x, Unfailing P (body x)) (n : Nat) (x : α) :
    Unfailing P (iterate body n x) := by
  refine ⟨.iterate (fun x => (h x).asking) n x, fun s l => ?_⟩
  refine ensures_iterate (fun _ _ _ => True) (fun x s l _ => ?_) (fun _ _ _ _ => trivial) n trivial
  refine ((h x).ok s l).mono fun r s' l' hr => ?_
  obtain ⟨x' | b, rfl⟩ := hr
  · exact trivial
  · exact ⟨b, rfl⟩

/-- How a run of such a program ends, if it is not cut off. -/
theorem run_ok {m : Act A σ ε α} (hm : Unfailing P m) (env : Env A) (s : σ) (l : Log A)
    {r : Except ε α} {s' : σ} (hr : ((m s).run env l).1 = some (r, s')) : ∃ a, r = .ok a :=
  (hm.ok s l).returns env (Always.of_forall (fun _ _ => trivial) _) hr

end Unfailing

end Act
end Interact
