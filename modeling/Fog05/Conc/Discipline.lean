import Fog05.Conc.Solo

/-! Disciplines: what a program may do, as an automaton over its commands. A
discipline says in each of its states which commands and calls are allowed and
how their answers move it; an answer with no successor is ruled out. That a
program follows a discipline is read off its text, and holds under whatever
interference keeps the answers within the rules. -/

namespace Conc

open Relation

structure Discipline {C P : Type} (R : C → Type) (A : P → Type) (ε Q : Type) where
  allows : Q → C → Prop
  next : Q → (c : C) → R c → Q → Prop
  calls : Q → P → Prop
  back : Q → (p : P) → Except ε (A p) → Q → Prop

variable {C P : Type} {R : C → Type} {A : P → Type} {ε S Q α β : Type}

/-- Started in `q`, the program stays within the discipline and is in `Φ` when
it is over. -/
def Prog.Follows (D : Discipline R A ε Q) (Φ : Except ε α → Q → Prop) : Prog R A ε α → Q → Prop
  | .ret a, q => Φ (.ok a) q
  | .err e, q => Φ (.error e) q
  | .act c k, q => D.allows q c ∧ ∀ r q', D.next q c r q' → (k r).Follows D Φ q'
  | .call p k, q => D.calls q p ∧ ∀ o q', D.back q p o q' → (k o).Follows D Φ q'

/-- Every procedure that may be called keeps the promise its callers rely on. -/
def Discipline.Sound (D : Discipline R A ε Q) (body : (p : P) → Prog R A ε (A p)) : Prop :=
  ∀ q p, D.calls q p → (body p).Follows D (D.back q p) q

def Discipline.restrict (D : Discipline R A ε Q) (C' : C → Prop) : Discipline R A ε Q :=
  { D with allows := fun q c => D.allows q c ∧ C' c }

namespace Prog

variable {D : Discipline R A ε Q} {Φ Ψ : Except ε α → Q → Prop}

@[simp] theorem follows_ret (a : α) (q : Q) :
    (ret a : Prog R A ε α).Follows D Φ q ↔ Φ (.ok a) q := Iff.rfl

@[simp] theorem follows_err (e : ε) (q : Q) :
    (err e : Prog R A ε α).Follows D Φ q ↔ Φ (.error e) q := Iff.rfl

@[simp] theorem follows_act (c : C) (k : R c → Prog R A ε α) (q : Q) :
    (act c k).Follows D Φ q ↔ D.allows q c ∧ ∀ r q', D.next q c r q' → (k r).Follows D Φ q' :=
  Iff.rfl

@[simp] theorem follows_call (p : P) (k : Except ε (A p) → Prog R A ε α) (q : Q) :
    (call p k).Follows D Φ q ↔ D.calls q p ∧ ∀ o q', D.back q p o q' → (k o).Follows D Φ q' :=
  Iff.rfl

@[simp] theorem follows_final (o : Except ε α) (q : Q) :
    (final o : Prog R A ε α).Follows D Φ q ↔ Φ o q := by
  cases o <;> rfl

theorem Follows.mono {p : Prog R A ε α} {q : Q} (h : p.Follows D Ψ q)
    (hΨ : ∀ o q', Ψ o q' → Φ o q') : p.Follows D Φ q := by
  induction p generalizing q with
  | ret a => exact hΨ _ _ h
  | err e => exact hΨ _ _ h
  | act c k ih => exact ⟨h.1, fun r q' hn => ih r (h.2 r q' hn)⟩
  | call p k ih => exact ⟨h.1, fun o q' hb => ih o (h.2 o q' hb)⟩

@[simp] theorem follows_bindE {Φ : Except ε β → Q → Prop} (k : Except ε α → Prog R A ε β)
    (p : Prog R A ε α) (q : Q) :
    (p.bindE k).Follows D Φ q ↔ p.Follows D (fun o q' => (k o).Follows D Φ q') q := by
  induction p generalizing q with
  | ret a => rfl
  | err e => rfl
  | act c f ih => simp only [bindE_act, follows_act, ih]
  | call p f ih => simp only [bindE_call, follows_call, ih]

theorem Follows.enter {body : (p : P) → Prog R A ε (A p)} (hD : D.Sound body) {p : P}
    {k : Except ε (A p) → Prog R A ε α} {q : Q} (h : (call p k).Follows D Φ q) :
    ((body p).bindE k).Follows D Φ q :=
  (follows_bindE k (body p) q).2 ((hD q p h.1).mono h.2)

end Prog

theorem Prog.follows_retry {D : Discipline R A ε Q} {p : P} {c : C}
    {f : R c → Option (Except ε (A p))} {Φ : Except ε (A p) → Q → Prop} {q : Q}
    (hc : D.allows q c)
    (hagain : ∀ r q', D.next q c r q' → (invoke p : Prog R A ε (A p)).Follows D Φ q')
    (hdone : ∀ r q' o, D.next q c r q' → f r = some o → Φ o q') :
    (retry p c f).Follows D Φ q := by
  refine ⟨hc, fun r q' hn => ?_⟩
  change ((f r).elim (invoke p) final).Follows D Φ q'
  cases h : f r with
  | none => exact hagain r q' hn
  | some o => exact (follows_final o q').2 (hdone r q' o hn h)

/-- Every command of the program is among `C`, and every call among `K`. -/
def Prog.Within (C' : C → Prop) (K : P → Prop) : Prog R A ε α → Prop
  | .ret _ | .err _ => True
  | .act c k => C' c ∧ ∀ r, (k r).Within C' K
  | .call p k => K p ∧ ∀ o, (k o).Within C' K

namespace Prog

variable {C₁ C₂ : C → Prop} {K K' : P → Prop}

theorem Within.mono {p : Prog R A ε α} (h : p.Within C₁ K) (hC : ∀ c, C₁ c → C₂ c)
    (hK : ∀ q, K q → K' q) : p.Within C₂ K' := by
  induction p with
  | ret a => trivial
  | err e => trivial
  | act c k ih => exact ⟨hC c h.1, fun r => ih r (h.2 r)⟩
  | call q k ih => exact ⟨hK q h.1, fun o => ih o (h.2 o)⟩

theorem Within.bindE {p : Prog R A ε α} {k : Except ε α → Prog R A ε β} (h : p.Within C₁ K)
    (hk : ∀ o, (k o).Within C₁ K) : (p.bindE k).Within C₁ K := by
  induction p with
  | ret a => exact hk _
  | err e => exact hk _
  | act c f ih => exact ⟨h.1, fun r => ih r (h.2 r)⟩
  | call q f ih => exact ⟨h.1, fun o => ih o (h.2 o)⟩

theorem Within.bind {p : Prog R A ε α} {f : α → Prog R A ε β} (h : p.Within C₁ K)
    (hf : ∀ a, (f a).Within C₁ K) : (p >>= f).Within C₁ K := by
  apply h.bindE
  intro o
  cases o with
  | ok a => exact hf a
  | error e => trivial

theorem within_final (o : Except ε α) : (final o : Prog R A ε α).Within C₁ K := by
  cases o <;> trivial

theorem within_retry {q : P} {c : C} {f : R c → Option (Except ε (A q))} (hc : C₁ c) (hq : K q) :
    (retry q c f).Within C₁ K := by
  refine ⟨hc, fun r => ?_⟩
  change ((f r).elim (invoke q) final).Within C₁ K
  cases f r with
  | none => exact ⟨hq, within_final⟩
  | some o => exact within_final o

theorem Within.follows {D : Discipline R A ε Q} {J : Q → Prop}
    (hC : ∀ q c, J q → C₁ c → D.allows q c ∧ ∀ x q', D.next q c x q' → J q')
    (hK : ∀ q p, J q → K p → D.calls q p ∧ ∀ o q', D.back q p o q' → J q')
    {p : Prog R A ε α} (h : p.Within C₁ K) {q : Q} (hq : J q) :
    p.Follows D (fun _ q' => J q') q := by
  induction p generalizing q with
  | ret a => exact hq
  | err e => exact hq
  | act c k ih =>
    obtain ⟨hallow, hnext⟩ := hC q c hq h.1
    exact ⟨hallow, fun x q' hn => ih x (h.2 x) (hnext x q' hn)⟩
  | call p k ih =>
    obtain ⟨hcalls, hback⟩ := hK q p hq h.1
    exact ⟨hcalls, fun o q' hb => ih o (h.2 o) (hback o q' hb)⟩

theorem Follows.of_restrict {D : Discipline R A ε Q} {Φ : Except ε α → Q → Prop}
    {p : Prog R A ε α} {q : Q} (h : p.Follows (D.restrict C₁) Φ q) : p.Follows D Φ q := by
  induction p generalizing q with
  | ret a => exact h
  | err e => exact h
  | act c k ih => exact ⟨h.1.1, fun x q' hn => ih x (h.2 x q' hn)⟩
  | call p k ih => exact ⟨h.1, fun o q' hb => ih o (h.2 o q' hb)⟩

theorem Within.allowed {D : Discipline R A ε Q} (hC : ∀ q c, C₁ c → D.allows q c)
    (hK : ∀ q p, K p → D.calls q p) {p : Prog R A ε α} (h : p.Within C₁ K) {q : Q} :
    p.Follows D (fun _ _ => True) q :=
  h.follows (fun q c _ hc => ⟨hC q c hc, fun _ _ _ => trivial⟩)
    (fun q p _ hp => ⟨hK q p hp, fun _ _ _ => trivial⟩) trivial

theorem Within.grows {D : Discipline R A ε Q} {G : Q → Q → Prop}
    (htrans : ∀ q q' q'', G q q' → G q' q'' → G q q'')
    (hC : ∀ q c, C₁ c → D.allows q c ∧ ∀ x q', D.next q c x q' → G q q')
    (hK : ∀ q p, K p → D.calls q p ∧ ∀ o q', D.back q p o q' → G q q')
    {p : Prog R A ε α} (h : p.Within C₁ K) {q : Q} (hq : G q q) : p.Follows D (fun _ q' => G q q') q :=
  h.follows
    (fun q₁ c hJ hc => ⟨(hC q₁ c hc).1, fun x q' hn => htrans q q₁ q' hJ ((hC q₁ c hc).2 x q' hn)⟩)
    (fun q₁ p hJ hp => ⟨(hK q₁ p hp).1, fun o q' hb => htrans q q₁ q' hJ ((hK q₁ p hp).2 o q' hb)⟩) hq

end Prog

variable {D : Discipline R A ε Q} {M : System R A ε S} {Φ : Except ε α → Q → Prop}

/-- A program that follows a sound discipline keeps every invariant that the
allowed commands and the environment keep. -/
theorem System.ensures_of_follows (hD : D.Sound M.body) (I : Q → S → Prop)
    (henv : ∀ q s s', I q s → M.env s s' → I q s')
    (hact : ∀ q c s r s', I q s → D.allows q c → M.act c s r s' →
      ∃ q', D.next q c r q' ∧ I q' s')
    {p : Prog R A ε α} {q : Q} {s : S} (hp : p.Follows D Φ q) (hI : I q s) :
    M.Ensures False p s fun o s' => ∃ q', Φ o q' ∧ I q' s' := by
  refine ⟨fun n s' o hr => ?_, False.elim⟩
  generalize ho : Prog.final o = p' at hr
  induction hr generalizing q with
  | refl s p =>
    subst ho
    exact ⟨q, (Prog.follows_final o q).1 hp, hI⟩
  | act ha _ ih =>
    obtain ⟨q', hn, hI'⟩ := hact q _ _ _ _ hI hp.1 ha
    exact ih (hp.2 _ q' hn) hI' ho
  | call _ ih => exact ih (hp.enter hD) hI ho
  | env _ he _ ih => exact ih hp (henv q _ _ hI he) ho

end Conc
