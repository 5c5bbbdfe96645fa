import Fog05.Conc.Solo

/-! Triples over views. A view is what a group of results has to know of a state; the
environment may change the rest of it at any time. `Triple` is about all runs of a program,
`May` about some run. -/

namespace Conc

open Relation

variable {C P : Type} {R : C → Type} {A : P → Type} {ε S W α β : Type}

/-- The states that are as a view says; the environment leaves them so. -/
structure View (M : System R A ε S) (W : Type) where
  At : W → S → Prop
  steady : ∀ w s s', At w s → M.env s s' → At w s'

namespace View

variable {M : System R A ε S}

/-- From every state seen as `w`, the program ends with an outcome and in a state seen as
`Q` says. -/
def Triple (V : View M W) (t : Prop) (p : Prog R A ε α) (w : W) (Q : Except ε α → W → Prop) :
    Prop :=
  ∀ s, V.At w s → M.Ensures t p s fun o s' => ∃ w', Q o w' ∧ V.At w' s'

variable {V : View M W} {t : Prop} {w : W} {Q Ψ : Except ε α → W → Prop}

theorem envs {s s' : S} (hs : V.At w s) (h : ReflTransGen M.env s s') : V.At w s' := by
  induction h with
  | refl => exact hs
  | tail _ he ih => exact V.steady w _ _ ih he

theorem Triple.mono {p : Prog R A ε α} (h : V.Triple t p w Ψ) (hΨ : ∀ o w', Ψ o w' → Q o w') :
    V.Triple t p w Q :=
  fun s hs => (h s hs).mono fun o _ ⟨w', ho, hw'⟩ => ⟨w', hΨ o w' ho, hw'⟩

theorem triple_final {o : Except ε α} (h : Q o w) : V.Triple t (.final o) w Q :=
  fun _ hs => System.ensures_final ⟨w, h, hs⟩

theorem triple_pure {a : α} (h : Q (.ok a) w) : V.Triple t (pure a) w Q := triple_final h

theorem triple_err {e : ε} (h : Q (.error e) w) : V.Triple t (.err e) w Q :=
  triple_final (o := .error e) h

theorem triple_bindE {p : Prog R A ε α} {k : Except ε α → Prog R A ε β}
    {Q : Except ε β → W → Prop} (h : V.Triple t p w Ψ)
    (hk : ∀ o w', Ψ o w' → V.Triple t (k o) w' Q) : V.Triple t (p.bindE k) w Q :=
  fun s hs => System.ensures_bindE (h s hs) fun o s' ⟨w', ho, hw'⟩ => hk o w' ho s' hw'

theorem triple_bind {p : Prog R A ε α} {f : α → Prog R A ε β} {Q : Except ε β → W → Prop}
    (h : V.Triple t p w Ψ) (hok : ∀ a w', Ψ (.ok a) w' → V.Triple t (f a) w' Q)
    (herr : ∀ e w', Ψ (.error e) w' → Q (.error e) w') : V.Triple t (p >>= f) w Q := by
  apply triple_bindE h
  intro o w' ho
  cases o with
  | ok a => exact hok a w' ho
  | error e => exact triple_err (herr e w' ho)

theorem triple_act {c : C} {k : R c → Prog R A ε α}
    (htotal : t → ∀ s, V.At w s → ∃ r s', M.act c s r s')
    (h : ∀ s r s', V.At w s → M.act c s r s' → ∃ w', V.At w' s' ∧ V.Triple t (k r) w' Q) :
    V.Triple t (.act c k) w Q := by
  intro s hs
  apply System.ensures_act
  intro s₁ hs₁
  have hw : V.At w s₁ := V.envs hs hs₁
  refine ⟨fun ht => htotal ht s₁ hw, fun r s₂ ha => ?_⟩
  obtain ⟨w', hw', hk⟩ := h s₁ r s₂ hw ha
  exact hk s₂ hw'

/-! ### Some run -/

end View

end Conc
