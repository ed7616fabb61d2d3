import Procguard.Interact

/- Programs in layers. A handler carries out every request of an upper program by a program
   over a lower interface; `Prog.handle` puts the two together. A proof about the upper
   program is used below it (`Ensures.handle`) once a relation between the two logs is kept
   by every request that is carried out. Where the lower log shows the upper one as it is,
   a proof is read through that view (`Ensures.through`). -/
namespace Interact

variable {Q R : Type} {A : Q → Type} {B : R → Type} {α β : Type}

/-- How the requests of one interface are carried out over another. -/
abbrev Handler (A : Q → Type) (B : R → Type) := (q : Q) → Prog B (A q)

/-- The program with its requests carried out. -/
def Prog.handle (H : Handler A B) : Prog A α → Prog B α
  | .done a => .done a
  | .spin => .spin
  | .ask q k => (H q).bind fun a => (k a).handle H

namespace Prog
variable {H : Handler A B} {K : Contract A} {K' : Contract B} {L : Log A} {l : Log B}
  {Post : α → Log A → Prop}

theorem asking_of_forall {P : Q → Prop} (h : ∀ q, P q) : ∀ p : Prog A α, p.Asking P
  | .done _ => trivial
  | .spin => trivial
  | .ask q k => ⟨h q, fun a => asking_of_forall h (k a)⟩

theorem Asking.handle {P : Q → Prop} {P' : R → Prop} (hH : ∀ q, P q → (H q).Asking P') :
    ∀ {p : Prog A α}, p.Asking P → (p.handle H).Asking P'
  | .done _, _ => trivial
  | .spin, _ => trivial
  | .ask q _, hp => asking_bind (hH q hp.1) fun a => Asking.handle hH (hp.2 a)

/-- Refinement: what carrying out each request keeps, carrying out the program keeps. A
    request may count on the promise the upper program makes for it. -/
theorem Ensures.handle {J : Log A → Log B → Prop} {p : Prog A α} (hp : p.Ensures K L Post)
    (hH : ∀ q L l, J L l → (∀ a, K.rely ⟨q, a⟩ L → K.guar ⟨q, a⟩ L) →
      (H q).Ensures K' l fun a l' => K.rely ⟨q, a⟩ L ∧ J (⟨q, a⟩ :: L) l')
    (hcut : ∀ L l, J L l → K.cut L → K'.cut l) (hJ : J L l) :
    (p.handle H).Ensures K' l fun x l' => ∃ L', J L' l' ∧ Post x L' := by
  induction p generalizing L l with
  | done x => exact ⟨L, hJ, hp⟩
  | spin => exact hcut L l hJ hp
  | ask q k ih =>
    rw [Prog.handle, ensures_bind]
    refine (hH q L l hJ fun a hr => (hp a hr).1).mono ?_
    rintro a l' ⟨hrely, hJ'⟩
    exact ih a (hp a hrely).2 hJ'

end Prog

/-! ## Views -/

/-- What the lower log shows of the upper one. -/
def seen (view : Ev B → Option (Ev A)) (l : Log B) : Log A := l.filterMap view

/-- A contract about the events a view shows. -/
def Contract.through (view : Ev B → Option (Ev A)) (K : Contract A) : Contract B where
  rely e l := ∀ e', view e = some e' → K.rely e' (seen view l)
  guar e l := ∀ e', view e = some e' → K.guar e' (seen view l)
  cut l := K.cut (seen view l)

/-- Each request is handed down as one request that the view shows again. -/
def Handler.Shown (H : Handler A B) (view : Ev B → Option (Ev A)) : Prop :=
  ∀ q, ∃ (r : R) (f : B r → A q), H q = .ask r (fun b => .done (f b)) ∧
    ∀ b, view ⟨r, b⟩ = some ⟨q, f b⟩

section through
variable {view : Ev B → Option (Ev A)} {H : Handler A B} {K : Contract A} {l : Log B}
  {Post : α → Log A → Prop}

theorem seen_cons {e : Ev B} {e' : Ev A} (h : view e = some e') :
    seen view (e :: l) = e' :: seen view l := by
  rw [seen, List.filterMap_cons_some h]
  rfl

theorem seen_cons_none {e : Ev B} (h : view e = none) : seen view (e :: l) = seen view l := by
  rw [seen, List.filterMap_cons_none h]
  rfl

/-- What holds of every event a view shows holds of every event it sees. -/
theorem Always.seen {P : Ev A → Log A → Prop} :
    ∀ {l : Log B}, Always (fun e l => ∀ e', view e = some e' → P e' (Interact.seen view l)) l →
      Always P (Interact.seen view l)
  | [], _ => trivial
  | e :: l, h => by
    cases hview : view e with
    | none =>
      rw [seen_cons_none hview]
      exact Always.seen h.2
    | some e' =>
      rw [seen_cons hview]
      exact ⟨h.1 e' hview, Always.seen h.2⟩

/-- A proof about a program holds of it as it is carried out below. -/
theorem Prog.Ensures.through {p : Prog A α} (hH : H.Shown view)
    (hp : p.Ensures K (seen view l) Post) :
    (p.handle H).Ensures (K.through view) l fun x l' => Post x (seen view l') := by
  have hrequest : ∀ q L l, seen view l = L → (∀ a, K.rely ⟨q, a⟩ L → K.guar ⟨q, a⟩ L) →
      (H q).Ensures (K.through view) l fun a l' =>
        K.rely ⟨q, a⟩ L ∧ seen view l' = ⟨q, a⟩ :: L := by
    rintro q _ l rfl hguar
    obtain ⟨r, f, hH, hview⟩ := hH q
    rw [hH]
    intro b hrely
    have hb : K.rely ⟨q, f b⟩ (seen view l) := hrely _ (hview b)
    refine ⟨fun e' he' => ?_, hb, seen_cons (hview b)⟩
    rw [hview b] at he'
    cases he'
    exact hguar (f b) hb
  refine (hp.handle hrequest ?_ rfl).mono ?_
  · rintro _ l rfl hcut
    exact hcut
  · rintro x l' ⟨_, rfl, hpost⟩
    exact hpost

end through

/-! ## What lasts -/

/-- What every event keeps holds through any program, and may be promised at each event. -/
theorem Prog.ensures_lasting {K : Contract A} {M : Log A → Prop} (hM : ∀ e l, M l → M (e :: l))
    (hguar : ∀ e l, M l → K.guar e l) (hcut : ∀ l, M l → K.cut l) :
    ∀ (p : Prog A α) {l : Log A}, M l → p.Ensures K l fun _ l' => M l'
  | .done _, _, h => h
  | .spin, _, h => hcut _ h
  | .ask _ k, l, h => fun a _ =>
    ⟨hguar _ l h, ensures_lasting hM hguar hcut (k a) (hM _ l h)⟩

end Interact
