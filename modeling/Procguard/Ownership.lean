import Procguard.Interact

/- One resource that a program opens, uses and closes, seen in the log of its requests.

   `owner` runs along the log and says where the resource stands. Whatever does not fit (a
   second opening, a use of another resource, anything after the close) leaves it misused for
   good, so a program that keeps `owner` off `misused` and ends with it closed has opened
   once, closed once, and used the resource in between only (`owner_closed`). -/
namespace Interact

/-- What an event does to the resource `d`. -/
inductive Touch (δ : Type) where
  | opens (d : δ)
  | uses (d : δ)
  | closes (d : δ)

inductive Owner (δ : Type) where
  | unopened
  | held (d : δ)
  | closed (d : δ)
  | misused

variable {Q : Type} {A : Q → Type} {δ : Type} [DecidableEq δ]

def Owner.after : Owner δ → Option (Touch δ) → Owner δ
  | s, none => s
  | .unopened, some (.opens d) => .held d
  | .held d, some (.uses d') => if d' = d then .held d else .misused
  | .held d, some (.closes d') => if d' = d then .closed d else .misused
  | _, some _ => .misused

def owner (touch : Ev A → Option (Touch δ)) : Log A → Owner δ
  | [] => .unopened
  | e :: l => (owner touch l).after (touch e)

namespace Owner
variable {s : Owner δ} {t : Option (Touch δ)} {d : δ}

theorem after_eq_unopened : s.after t = .unopened ↔ s = .unopened ∧ t = none := by
  cases s <;> rcases t with _ | _ | _ | _ <;> simp only [after] <;>
    first | (split <;> simp) | simp

theorem after_eq_held : s.after t = .held d ↔
    s = .unopened ∧ t = some (.opens d) ∨ s = .held d ∧ (t = none ∨ t = some (.uses d)) := by
  cases s <;> rcases t with _ | _ | _ | _ <;> simp only [after] <;>
    first | (split <;> simp_all) | simp
  case held.some.uses.isFalse e e' h =>
    intro he he'
    exact h (he'.trans he.symm)

theorem after_eq_closed : s.after t = .closed d ↔
    s = .held d ∧ t = some (.closes d) ∨ s = .closed d ∧ t = none := by
  cases s <;> rcases t with _ | _ | _ | _ <;> simp only [after] <;>
    first | (split <;> simp_all) | simp
  case held.some.closes.isFalse e e' h =>
    intro he he'
    exact h (he'.trans he.symm)

end Owner

/-! ## What the states mean -/

/-- The events leave the resource alone. -/
def Untouched (touch : Ev A → Option (Touch δ)) (l : Log A) : Prop := ∀ e ∈ l, touch e = none

/-- `d` is opened once, and after that only used. -/
def Opened (touch : Ev A → Option (Touch δ)) (d : δ) (l : Log A) : Prop :=
  ∃ later opening before, l = later ++ opening :: before ∧ touch opening = some (.opens d) ∧
    Untouched touch before ∧ ∀ e ∈ later, touch e = none ∨ touch e = some (.uses d)

/-- `d` is opened once, then closed once, and left alone from there on. -/
def Closed (touch : Ev A → Option (Touch δ)) (d : δ) (l : Log A) : Prop :=
  ∃ later closing before, l = later ++ closing :: before ∧ touch closing = some (.closes d) ∧
    Opened touch d before ∧ Untouched touch later

variable {touch : Ev A → Option (Touch δ)} {d : δ} {l : Log A}

theorem owner_unopened (h : owner touch l = .unopened) : Untouched touch l := by
  induction l with
  | nil => exact List.forall_mem_nil _
  | cons e l ih =>
    obtain ⟨hl, he⟩ := Owner.after_eq_unopened.mp h
    exact List.forall_mem_cons.mpr ⟨he, ih hl⟩

theorem owner_held (h : owner touch l = .held d) : Opened touch d l := by
  induction l with
  | nil => cases h
  | cons e l ih =>
    rcases Owner.after_eq_held.mp h with ⟨hl, he⟩ | ⟨hl, he⟩
    · exact ⟨[], e, l, rfl, he, owner_unopened hl, List.forall_mem_nil _⟩
    · obtain ⟨later, opening, before, rfl, hopen, hbefore, hlater⟩ := ih hl
      exact ⟨e :: later, opening, before, rfl, hopen, hbefore,
        List.forall_mem_cons.mpr ⟨he, hlater⟩⟩

/-- A resource that ends closed has had the life it should have. -/
theorem owner_closed (h : owner touch l = .closed d) : Closed touch d l := by
  induction l with
  | nil => cases h
  | cons e l ih =>
    rcases Owner.after_eq_closed.mp h with ⟨hl, he⟩ | ⟨hl, he⟩
    · exact ⟨[], e, l, rfl, he, owner_held hl, List.forall_mem_nil _⟩
    · obtain ⟨later, closing, before, rfl, hclose, hbefore, hlater⟩ := ih hl
      exact ⟨e :: later, closing, before, rfl, hclose, hbefore,
        List.forall_mem_cons.mpr ⟨he, hlater⟩⟩

/-! ## Programs -/

/-- No answer to the request touches the resource. -/
def Aside (touch : Ev A → Option (Touch δ)) (q : Q) : Prop := ∀ a, touch ⟨q, a⟩ = none

/-- Whatever the answers, the resource is not misused, also where a loop is cut off. -/
def owning (touch : Ev A → Option (Touch δ)) (rely : Ev A → Log A → Prop) : Contract A where
  rely := rely
  cut l := owner touch l ≠ .misused

variable {rely : Ev A → Log A → Prop} {q : Q} {s : Owner δ}

theorem owner_cons (e : Ev A) (h : touch e = none) : owner touch (e :: l) = owner touch l := by
  show (owner touch l).after (touch e) = _
  rw [h]
  cases owner touch l <;> rfl

theorem asks_uses {d : δ} (hq : ∀ a, touch ⟨q, a⟩ = some (.uses d))
    (hs : owner touch l = .held d) :
    Asks (owning touch rely) q l fun _ l' => owner touch l' = .held d :=
  fun a _ => ⟨trivial, Owner.after_eq_held.mpr (.inr ⟨hs, .inr (hq a)⟩)⟩

theorem asks_closes {d : δ} (hq : ∀ a, touch ⟨q, a⟩ = some (.closes d))
    (hs : owner touch l = .held d) :
    Asks (owning touch rely) q l fun _ l' => owner touch l' = .closed d :=
  fun a _ => ⟨trivial, Owner.after_eq_closed.mpr (.inl ⟨hs, hq a⟩)⟩

/-- A request aside leaves the resource where it is. -/
theorem asks_aside (hq : Aside touch q) (hs : owner touch l = s) :
    Asks (owning touch rely) q l fun _ l' => owner touch l' = s :=
  fun a _ => ⟨trivial, (owner_cons _ (hq a)).trans hs⟩

/-- So does a program of such requests. -/
theorem Act.Asking.keeps_owner {σ ε α : Type} {m : Act A σ ε α} (hm : Asking (Aside touch) m)
    (hs : owner touch l = s) (hproper : s ≠ .misused) (st : σ) :
    m.Ensures (owning touch rely) st l fun _ _ l' => owner touch l' = s :=
  hm.ensures (fun l' => owner touch l' = s) (fun _ _ hq hl => asks_aside hq hl)
    (fun _ hl => by rw [← hl] at hproper; exact hproper) hs

/-! ## Runs -/

/-- The resource is given back: it was never opened, or has been closed. -/
def GivenBack (touch : Ev A → Option (Touch δ)) (l : Log A) : Prop :=
  owner touch l = .unopened ∨ ∃ d, owner touch l = .closed d

/-- What a run leaves: once it has returned, the resource was never touched or has been
    closed once and left alone since; before that it may also be open still. -/
def NoLeak {α : Type} (touch : Ev A → Option (Touch δ)) (run : Option α × Log A) : Prop :=
  Untouched touch run.2 ∨ ∃ d, Closed touch d run.2 ∨ run.1.isNone ∧ Opened touch d run.2

theorem Prog.Ensures.noLeak {α : Type} {p : Prog A α} (env : Env A)
    (hp : p.Ensures (owning touch rely) [] fun _ l => GivenBack touch l)
    (hrely : Always rely (p.run env []).2) : NoLeak touch (p.run env []) := by
  obtain ⟨-, hreturned, hcut⟩ := hp.sound env trivial hrely
  rcases hrun : (p.run env []).1 with _ | a
  · cases howner : owner touch (p.run env []).2 with
    | unopened => exact .inl (owner_unopened howner)
    | held d => exact .inr ⟨d, .inr ⟨by rw [hrun]; rfl, owner_held howner⟩⟩
    | closed d => exact .inr ⟨d, .inl (owner_closed howner)⟩
    | misused => exact absurd howner (hcut hrun)
  · rcases hreturned a hrun with howner | ⟨d, howner⟩
    · exact .inl (owner_unopened howner)
    · exact .inr ⟨d, .inl (owner_closed howner)⟩

/-! ## Scopes -/

section scope
variable {σ ε α κ : Type}

/-- A value with a scope: made, handed to the body, and dropped whichever way the body ends.
    What could not be made is not dropped. -/
def Act.scope (new : Act A σ ε κ) (drop : κ → Prog A Unit) (body : κ → Act A σ ε α) :
    Act A σ ε α :=
  new >>= fun d => (body d).onExit fun s => (drop d).bind fun _ => .done s

theorem Act.ensures_scope {K : Contract A} {new : Act A σ ε κ} {drop : κ → Prog A Unit}
    {body : κ → Act A σ ε α} {s : σ} {l : Log A} {Post : Except ε α → σ → Log A → Prop} :
    (scope new drop body).Ensures K s l Post ↔ new.Ensures K s l fun r s' l' => match r with
      | .ok d => (body d).Ensures K s' l' fun r s'' l'' =>
          (drop d).Ensures K l'' fun _ l₃ => Post r s'' l₃
      | .error e => Post (.error e) s' l' := by
  rw [scope, ensures_bind]
  refine ⟨fun h => h.mono ?_, fun h => h.mono ?_⟩ <;>
  · intro r s' l' hr
    cases r with
    | error e => exact hr
    | ok d => simpa only [ensures_onExit, Prog.ensures_bind, Prog.Ensures] using hr

end scope

end Interact
