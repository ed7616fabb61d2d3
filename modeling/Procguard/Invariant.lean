import Procguard.Interact

/- Invariants of a state and a log, and runs that start in the middle of a log.

   `Act.Stays K J m` says that `m` keeps `J` whichever way it ends, every event of it
   keeping the guarantee of `K`; it is put together step by step, as `Act.Asking` is, but
   may speak of the state. `Contract.and` joins what two proofs say of one run, and
   `Contract.above` moves a proof about a run from the empty log to a run that starts at
   the log `base`. What holds in every environment holds whatever is answered
   (`ensures_of_answers`). -/
namespace Interact

variable {Q : Type} {A : Q → Type} {σ τ ε ε' α β : Type}

namespace Contract

/-- Both contracts at once. -/
def and (K K' : Contract A) : Contract A where
  rely e l := K.rely e l ∧ K'.rely e l
  guar e l := K.guar e l ∧ K'.guar e l
  cut l := K.cut l ∧ K'.cut l

/-- The contract read of what has been added to `base`. -/
def above (K : Contract A) (base : Log A) : Contract A where
  rely e l := ∀ t, l = t ++ base → K.rely e t
  guar e l := ∃ t, l = t ++ base ∧ K.guar e t
  cut l := ∃ t, l = t ++ base ∧ K.cut t

end Contract

namespace Prog
variable {K K' : Contract A} {p : Prog A α} {l : Log A} {Post Post' : α → Log A → Prop}

/-- Two proofs about one program. -/
theorem Ensures.both (h : p.Ensures K l Post) (h' : p.Ensures K' l Post') :
    p.Ensures (K.and K') l fun a l' => Post a l' ∧ Post' a l' := by
  induction p generalizing l with
  | done a => exact ⟨h, h'⟩
  | spin => exact ⟨h, h'⟩
  | ask q k ih =>
    intro a hr
    obtain ⟨hg, hk⟩ := h a hr.1
    obtain ⟨hg', hk'⟩ := h' a hr.2
    exact ⟨⟨hg, hg'⟩, ih a hk hk'⟩

/-- A weaker contract: more may be relied on, less is promised. -/
theorem Ensures.weaken (h : p.Ensures K l Post) (hrely : ∀ e l, K'.rely e l → K.rely e l)
    (hguar : ∀ e l, K'.rely e l → K.guar e l → K'.guar e l) (hcut : ∀ l, K.cut l → K'.cut l) :
    p.Ensures K' l Post := by
  induction p generalizing l with
  | done a => exact h
  | spin => exact hcut l h
  | ask q k ih =>
    intro a hr
    obtain ⟨hg, hk⟩ := h a (hrely _ _ hr)
    exact ⟨hguar _ _ hr hg, ih a hk⟩

/-- What another proof says of the program is known besides. -/
theorem Ensures.beside (h : p.Ensures K l Post) (h' : p.Ensures K' l Post')
    (hrely : ∀ e l, K'.rely e l → K.rely e l) : p.Ensures K' l fun a l' => Post a l' ∧ Post' a l' :=
  (h.both h').weaken (fun e l hr => ⟨hrely e l hr, hr⟩) (fun _ _ _ hg => hg.2) fun _ hc => hc.2

/-- A program does not know what was in the log before it. -/
theorem Ensures.above {t : Log A} (h : p.Ensures K t Post) (base : Log A) :
    p.Ensures (K.above base) (t ++ base) fun a l' => ∃ t', l' = t' ++ base ∧ Post a t' := by
  induction p generalizing t with
  | done a => exact ⟨t, rfl, h⟩
  | spin => exact ⟨t, rfl, h⟩
  | ask q k ih =>
    intro a hr
    obtain ⟨hg, hk⟩ := h a (hr t rfl)
    exact ⟨⟨t, rfl, hg⟩, ih a hk⟩

/-- Only what an environment answers from here on matters. -/
theorem Ensures.answers_congr {W W' : Env A} (h : p.Ensures (answers W) l Post)
    (hsame : ∀ l' q, l <:+ l' → W l' q = W' l' q) : p.Ensures (answers W') l Post := by
  induction p generalizing l with
  | done a => exact h
  | spin => exact h
  | ask q k ih =>
    intro a ha
    have ha' : a = W l q := ha.trans (hsame l q (List.suffix_refl l)).symm
    refine ⟨trivial, ih a (h a ha').2 fun l' q' hs => hsame l' q' ?_⟩
    exact (List.suffix_cons _ l).trans hs

open Classical in
/-- What holds in every environment holds whatever is answered. What the runs that end tell
    of every log before may be promised on the way. -/
theorem ensures_of_answers [Nonempty (Env A)] {N : Log A → Prop}
    (h : ∀ W, p.Ensures (answers W) l Post) (hpost : ∀ a l', Post a l' → N l')
    (hback : ∀ l₁ l₂, l₁ <:+ l₂ → N l₂ → N l₁) (hguar : ∀ e l, N (e :: l) → K.guar e l) :
    p.Ensures K l Post := by
  induction p generalizing l with
  | done a => exact Nonempty.elim inferInstance h
  | spin => exact Nonempty.elim inferInstance fun W => (h W).elim
  | ask q k ih =>
    intro a _
    have hrest : ∀ W, (k a).Ensures (answers W) (⟨q, a⟩ :: l) Post := by
      intro W
      -- the environment that answers this one request with `a`, and the later ones as `W`
      let W' : Env A := fun l' q' =>
        if heq : q' = q ∧ l' = l then cast (by rw [heq.1]) a else W l' q'
      have hanswer : a = W' l q := by simp [W']
      refine (h W' a hanswer).2.answers_congr fun l' q' hs => dif_neg ?_
      rintro ⟨-, rfl⟩
      exact absurd hs.length_le (Nat.not_succ_le_self _)
    refine ⟨?_, ih a hrest⟩
    obtain ⟨W⟩ : Nonempty (Env A) := inferInstance
    obtain ⟨b, -, hb⟩ := (hrest W).on_run
    exact hguar _ _ (hback _ _ (run_extends W (k a) _) (hpost b _ hb))

end Prog

namespace Act
variable {K : Contract A} {J : σ → Log A → Prop}

/-- `m` keeps `J`, whichever way it ends. -/
def Stays (K : Contract A) (J : σ → Log A → Prop) (m : Act A σ ε α) : Prop :=
  ∀ s l, J s l → m.Ensures K s l fun _ s' l' => J s' l'

namespace Stays

theorem pure {a : α} : Stays K J (pure a : Act A σ ε α) := fun _ _ hJ => hJ

theorem throw {e : ε} : Stays K J (throw e : Act A σ ε α) := fun _ _ hJ => hJ

theorem call {q : Q} (h : ∀ s l, J s l → Asks K q l fun _ l' => J s l') :
    Stays K J (call q : Act A σ ε (A q)) := fun s l hJ => h s l hJ

theorem modify {f : σ → σ} (h : ∀ s l, J s l → J (f s) l) :
    Stays K J (modify f : Act A σ ε Unit) := fun s l hJ => h s l hJ

/-- What follows only has to keep `J` where the first part leads. -/
theorem bind {m : Act A σ ε α} {f : α → Act A σ ε β} (hm : Stays K J m)
    (hf : ∀ a, Stays K J (f a)) : Stays K J (m >>= f) := by
  intro s l hJ
  rw [ensures_bind]
  refine (hm s l hJ).mono fun r s' l' hr => ?_
  cases r with
  | ok a => exact hf a s' l' hr
  | error e => exact hr

/-- What follows a look at the state runs in that state. -/
theorem bind_get {f : σ → Act A σ ε β}
    (hf : ∀ s l, J s l → (f s).Ensures K s l fun _ s' l' => J s' l') :
    Stays K J (get >>= f) := by
  intro s l hJ
  rw [ensures_bind]
  exact hf s l hJ

theorem ite {c : Prop} [Decidable c] {m m' : Act A σ ε α} (h : Stays K J m)
    (h' : Stays K J m') : Stays K J (if c then m else m') :=
  fun s l hJ => ensures_ite (fun _ => h s l hJ) fun _ => h' s l hJ

/-- The loop: every round keeps `J`. -/
theorem iterate {body : α → Act A σ ε (α ⊕ β)} (h : ∀ x, Stays K J (body x))
    (hcut : ∀ s l, J s l → K.cut l) (n : Nat) (x : α) : Stays K J (iterate body n x) := by
  intro s l hJ
  refine ensures_iterate (fun _ => J) (fun x s l hJ => ?_) (fun _ s l hJ => hcut s l hJ) n hJ
  refine (h x s l hJ).mono fun r s' l' hr => ?_
  rcases r with _ | (_ | _) <;> exact hr

/-- A part of the state, of which the invariant is another one. -/
theorem focus {view : σ → τ} {put : τ → σ → σ} {m : Act A τ ε α}
    (h : ∀ s l, J s l → m.Ensures K (view s) l fun _ t l' => J (put t s) l') :
    Stays K J (focus view put m) := by
  intro s l hJ
  rw [ensures_focus]
  exact h s l hJ

theorem attempt {view : σ → τ} {put : τ → σ → σ} {m : Act A τ ε' α}
    (h : ∀ s l, J s l → m.Ensures K (view s) l fun _ t l' => J (put t s) l') :
    Stays K J (attempt view put m : Act A σ ε _) := by
  intro s l hJ
  rw [ensures_attempt]
  exact h s l hJ

theorem exec {p : Prog A α} (h : ∀ s l, J s l → p.Ensures K l fun _ l' => J s l') :
    Stays K J (exec p : Act A σ ε α) := by
  intro s l hJ
  rw [ensures_exec]
  exact h s l hJ

theorem lift {p : Prog A (Except ε α)} (h : ∀ s l, J s l → p.Ensures K l fun _ l' => J s l') :
    Stays K J (lift p) := by
  intro s l hJ
  rw [ensures_lift]
  exact h s l hJ

end Stays

/-- Every result `m` returns satisfies `R`, whatever is answered. -/
def Returns (R : α → Prop) (m : Act A σ ε α) : Prop :=
  ∀ s l, m.Ensures {} s l fun r _ _ => ∀ x, r = .ok x → R x

namespace Returns
variable {R : α → Prop}

theorem pure {a : α} (h : R a) : Returns R (pure a : Act A σ ε α) := by
  rintro s l _ ⟨⟩
  exact h

theorem throw {e : ε} : Returns R (throw e : Act A σ ε α) := by rintro s l _ ⟨⟩

/-- The last step decides. -/
theorem last {m : Act A σ ε β} {f : β → Act A σ ε α} (h : ∀ b, Returns R (f b)) :
    Returns R (m >>= f) := fun _ _ => ensures_last (by rintro _ _ ⟨⟩) fun b s l => h b s l

theorem ite {c : Prop} [Decidable c] {m m' : Act A σ ε α} (h : Returns R m)
    (h' : Returns R m') : Returns R (if c then m else m') :=
  fun s l => ensures_ite (fun _ => h s l) fun _ => h' s l

/-- What is done on the way out changes no result. -/
theorem onExit {m : Act A σ ε α} {f : σ → Prog A σ} (h : Returns R m) :
    Returns R (onExit m f) := by
  intro s l
  rw [ensures_onExit]
  exact (h s l).mono fun _ _ _ hr => Prog.ensures_of_forall (fun _ _ => trivial)
    (fun _ => trivial) (fun _ _ => hr) _ _

end Returns
end Act
end Interact
