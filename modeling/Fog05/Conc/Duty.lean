import Fog05.Conc.Pool

/-! Duties: what a call has to have done before it returns. Where one call removes for
good what others may put, the runs that leave nothing behind are those in which whatever
is put is put while its removal is still owed. -/

namespace Conc

variable {C P : Type} {R : C → Type} {A : P → Type} {ε Ch E S ι α β : Type}

/-- Whatever it is answered, the program gets an answer in `D` before it returns. -/
def Prog.Owes (D : (c : C) → R c → Prop) : Prog R A ε α → Prop
  | .ret _ => False
  | .err _ => True
  | .act c k => ∀ r, D c r ∨ (k r).Owes D
  | .call _ k => ∀ o, (k o).Owes D

/-- The program makes no calls, and at every point of it the duty is still owed or all
that is left is within `C'`. -/
def Prog.Settles (D : (c : C) → R c → Prop) (C' : C → Prop) : Prog R A ε α → Prop
  | .ret _ | .err _ => True
  | .act c k =>
      ((Prog.act c k).Owes D ∨ (Prog.act c k).Within C' fun _ => False) ∧ ∀ r, (k r).Settles D C'
  | .call _ _ => False

/-- A call among `H` still owes the duty, or has failed. -/
def Pool.Owes (H : P → Prop) (D : (c : C) → R c → Prop) (w : Pool R A ε S) : Prop :=
  (∃ t ∈ w.threads, H t.proc ∧ t.prog.Owes D) ∨ ∃ x ∈ w.done, H x.1 ∧ ∃ e, x.2 = .error e

/-- Nothing new is started. -/
def Label.Goes : Label P Ch E → Prop
  | .fire _ _ | .env _ => True
  | .start _ | .launch => False

namespace Prog

variable {D : (c : C) → R c → Prop} {C' : C → Prop} {K : P → Prop}

theorem owes_bindE {k : Except ε α → Prog R A ε β} (hk : ∀ o, (k o).Owes D) (p : Prog R A ε α) :
    (p.bindE k).Owes D := by
  induction p with
  | ret a => exact hk _
  | err e => exact hk _
  | act c f ih => exact fun r => Or.inr (ih r)
  | call p f ih => exact ih

theorem Settles.cases {p : Prog R A ε α} (h : p.Settles D C') : p.Owes D ∨ p.Within C' K := by
  cases p with
  | ret a => exact Or.inr trivial
  | err e => exact Or.inr trivial
  | act c k => exact h.1.imp_right fun h => h.mono (fun _ => id) fun _ => False.elim
  | call p k => exact h.elim

end Prog

namespace Machine

variable {M : Machine R A ε Ch E S} {H K : P → Prop} {l : Label P Ch E} {w w' : Pool R A ε S}

theorem Step.owes {D : (c : C) → R c → Prop} (h : M.Step l w w') (hw : w.Owes H D) :
    w'.Owes H D ∨ ∃ i ch c r, l = .fire i ch ∧ w.upcoming i = some c ∧
      M.exec c ch w.state = some (r, w'.state) ∧ D c r := by
  rcases hw with ⟨t, ht, hH, howes⟩ | ⟨x, hx, hH, he⟩
  · cases h with
    | start => exact Or.inl (Or.inl ⟨t, List.mem_append_left _ ht, hH, howes⟩)
    | launch => exact Or.inl (Or.inl ⟨t, List.mem_append_left _ ht, hH, howes⟩)
    | env => exact Or.inl (Or.inl ⟨t, ht, hH, howes⟩)
    | @act _ i ch p c k r s hi hx =>
      obtain ⟨j, hj⟩ := List.mem_iff_getElem?.1 ht
      by_cases hij : i = j
      · subst hij
        obtain rfl := Option.some.inj (hi.symm.trans hj)
        rcases howes r with hD | howes
        · exact Or.inr ⟨i, ch, c, r, rfl, by simp [Pool.upcoming, hi], hx, hD⟩
        · exact Or.inl (Or.inl ⟨_, List.mem_set (List.getElem?_eq_some_iff.1 hi).1 _, hH, howes⟩)
      · refine Or.inl (Or.inl ⟨t, List.mem_iff_getElem?.2 ⟨j, ?_⟩, hH, howes⟩)
        rw [List.getElem?_set_ne hij, hj]
    | @call _ i ch p q k hi =>
      obtain ⟨j, hj⟩ := List.mem_iff_getElem?.1 ht
      by_cases hij : i = j
      · subst hij
        obtain rfl := Option.some.inj (hi.symm.trans hj)
        exact Or.inl (Or.inl ⟨_, List.mem_set (List.getElem?_eq_some_iff.1 hi).1 _, hH,
          Prog.owes_bindE howes _⟩)
      · refine Or.inl (Or.inl ⟨t, List.mem_iff_getElem?.2 ⟨j, ?_⟩, hH, howes⟩)
        rw [List.getElem?_set_ne hij, hj]
    | @done _ i ch p o hi =>
      obtain ⟨j, hj⟩ := List.mem_iff_getElem?.1 ht
      by_cases hij : i = j
      · subst hij
        obtain rfl := Option.some.inj (hi.symm.trans hj)
        cases o with
        | ok a => exact howes.elim
        | error e =>
          exact Or.inl (Or.inr ⟨_, List.mem_append_right _ (List.mem_singleton_self _), hH, e, rfl⟩)
      · exact Or.inl (Or.inl ⟨t, List.mem_eraseIdx_iff_getElem?.2 ⟨j, Ne.symm hij, hj⟩, hH, howes⟩)
  · refine Or.inl (Or.inr ?_)
    cases h with
    | done => exact ⟨x, List.mem_append_left _ hx, hH, he⟩
    | _ => exact ⟨x, hx, hH, he⟩

theorem Step.within {C' : C → Prop} (h : M.Step l w w') (hl : l.Goes)
    (hK : ∀ p, K p → (M.body p).Within C' K) (hw : ∀ t ∈ w.threads, t.prog.Within C' K) :
    ∀ t ∈ w'.threads, t.prog.Within C' K := by
  intro t ht
  cases h with
  | start => exact hl.elim
  | launch => exact hl.elim
  | env => exact hw t ht
  | act hi =>
    rcases List.mem_or_eq_of_mem_set ht with ht | rfl
    · exact hw t ht
    · exact (hw _ (List.mem_of_getElem? hi)).2 _
  | call hi =>
    rcases List.mem_or_eq_of_mem_set ht with ht | rfl
    · exact hw t ht
    · obtain ⟨hq, hk⟩ := hw _ (List.mem_of_getElem? hi)
      exact (hK _ hq).bindE hk
  | done => exact hw t (List.mem_of_mem_eraseIdx ht)

end Machine

/-- Things that some commands put into the state and some answers tell to be gone. -/
structure Upkeep (M : Machine R A ε Ch E S) (ι : Type) where
  Has : ι → S → Prop
  Puts : ι → C → Ch → Prop
  Removes : ι → (c : C) → R c → Prop
  Keeps : ι → C → Prop
  put_or_had : ∀ {x c ch s r s'}, M.exec c ch s = some (r, s') → Has x s' → Has x s ∨ Puts x c ch
  has_of_puts : ∀ {x c ch s r s'}, M.exec c ch s = some (r, s') → Puts x c ch → Has x s'
  not_has : ∀ {x c ch s r s'}, M.exec c ch s = some (r, s') → Removes x c r → ¬ Has x s'
  keeps : ∀ {x c ch s r s'}, M.exec c ch s = some (r, s') → Keeps x c → Has x s → Has x s'
  move : ∀ {x e s s'}, M.move e s = some s' → (Has x s' ↔ Has x s)

namespace Upkeep

variable {M : Machine R A ε Ch E S} (U : Upkeep M ι) (H K : P → Prop)

/-- Whatever the step puts, its removal is still owed. -/
def InOrder (l : Label P Ch E) (w : Pool R A ε S) : Prop :=
  ∀ x i ch c, l = .fire i ch → w.upcoming i = some c → U.Puts x c ch → w.Owes H (U.Removes x)

/-- The calls among `H` settle what they owe, the others remove nothing. -/
def Tended (w : Pool R A ε S) : Prop :=
  ∀ t ∈ w.threads, H t.proc ∧ (∀ x, t.prog.Settles (U.Removes x) (U.Keeps x)) ∨
    ∀ x, t.prog.Within (U.Keeps x) K

/-- It is there to stay. -/
def Left (x : ι) (w : Pool R A ε S) : Prop :=
  U.Has x w.state ∧ ∀ t ∈ w.threads, t.prog.Within (U.Keeps x) K

variable {U H K} {l : Label P Ch E} {w₀ w w' : Pool R A ε S} {x : ι}

theorem owes_of_has (h₀ : ∀ x, w₀.Owes H (U.Removes x))
    (hreach : M.Reach (fun l w => l.Goes ∧ U.InOrder H l w) w₀ w) (hhas : U.Has x w.state) :
    w.Owes H (U.Removes x) := by
  induction hreach generalizing x with
  | refl => exact h₀ x
  | @snoc w w' l _ hl hs ih =>
    obtain ⟨hgoes, hord⟩ := hl
    have hstep := Machine.step_cases hs
    have howes : w.Owes H (U.Removes x) := by
      cases hstep with
      | start => exact hgoes.elim
      | launch => exact hgoes.elim
      | env hm => exact ih ((U.move hm).1 hhas)
      | @act _ i ch p c k r s hi hx =>
        rcases U.put_or_had hx hhas with hhad | hput
        · exact ih hhad
        · exact hord x i ch c rfl (by simp [Pool.upcoming, hi]) hput
      | call => exact ih hhas
      | done => exact ih hhas
    rcases hstep.owes howes with howes | ⟨i, ch, c, r, -, -, hx, hr⟩
    · exact howes
    · exact absurd hhas (U.not_has hx hr)

section Steps

variable (hK : ∀ p, K p → ∀ x, (M.body p).Within (U.Keeps x) K)
include hK

theorem Tended.step (h : U.Tended H K w) (hl : l.Goes) (hs : M.Step l w w') : U.Tended H K w' := by
  intro t ht
  cases hs with
  | start => exact hl.elim
  | launch => exact hl.elim
  | env => exact h t ht
  | act hi =>
    rcases List.mem_or_eq_of_mem_set ht with ht | rfl
    · exact h t ht
    · exact (h _ (List.mem_of_getElem? hi)).imp (fun h => ⟨h.1, fun x => (h.2 x).2 _⟩)
        fun h x => (h x).2 _
  | call hi =>
    rcases List.mem_or_eq_of_mem_set ht with ht | rfl
    · exact h t ht
    · rcases h _ (List.mem_of_getElem? hi) with ⟨hp, h⟩ | h
      · -- a call that settles what it owes makes no calls
        exact Or.inl ⟨hp, fun x => (h x).elim⟩
      · exact Or.inr fun x => (hK _ (h x).1 x).bindE (h x).2
  | done => exact h t (List.mem_of_mem_eraseIdx ht)

theorem Left.step (h : U.Left K x w) (hl : l.Goes) (hs : M.Step l w w') : U.Left K x w' := by
  refine ⟨?_, hs.within hl (fun p hp => hK p hp x) h.2⟩
  cases hs with
  | start => exact hl.elim
  | launch => exact hl.elim
  | env hm => exact (U.move hm).2 h.1
  | act hi hx => exact U.keeps hx (h.2 _ (List.mem_of_getElem? hi)).1 h.1
  | call => exact h.1
  | done => exact h.1

theorem left_of_not_inOrder (h : U.Tended H K w) (hl : l.Goes) (hs : M.Step l w w')
    (hord : ¬ U.InOrder H l w) : ∃ x, U.Left K x w' := by
  simp only [InOrder, not_forall] at hord
  obtain ⟨x, i, ch, c, rfl, hup, hput, howes⟩ := hord
  have hwithin : ∀ t ∈ w.threads, t.prog.Within (U.Keeps x) K := by
    intro t ht
    rcases h t ht with ⟨hp, hsettles⟩ | hwithin
    · exact (hsettles x).cases.resolve_left fun ho => howes (Or.inl ⟨t, ht, hp, ho⟩)
    · exact hwithin x
  refine ⟨x, ?_, hs.within hl (fun p hp => hK p hp x) hwithin⟩
  obtain ⟨p, k, r, s, -, hx, rfl⟩ := hs.of_upcoming hup
  exact U.has_of_puts hx hput

theorem inOrder_or_left (h₀ : U.Tended H K w₀) (hreach : M.Reach (fun l _ => l.Goes) w₀ w) :
    M.Reach (fun l w => l.Goes ∧ U.InOrder H l w) w₀ w ∨ ∃ x, U.Left K x w := by
  have htended : ∀ {w}, M.Reach (fun l _ => l.Goes) w₀ w → U.Tended H K w := fun hr =>
    hr.inv (U.Tended H K) h₀ fun l w w' h hl hs => h.step hK hl hs
  induction hreach with
  | refl => exact Or.inl .refl
  | @snoc w w' l hr hl hs ih =>
    have hstep := Machine.step_cases hs
    rcases ih with ih | ⟨x, hleft⟩
    · by_cases hord : U.InOrder H l w
      · exact Or.inl (ih.snoc ⟨hl, hord⟩ hs)
      · exact Or.inr (left_of_not_inOrder hK (htended hr) hl hstep hord)
    · exact Or.inr ⟨x, hleft.step hK hl hstep⟩

/-- Once nobody owes anything any more, nothing is left if and only if the run was in order. -/
theorem gone_iff_inOrder (h₀ : ∀ x, w₀.Owes H (U.Removes x)) (htended : U.Tended H K w₀)
    (hreach : M.Reach (fun l _ => l.Goes) w₀ w) (hdone : ∀ x, ¬ w.Owes H (U.Removes x)) :
    (∀ x, ¬ U.Has x w.state) ↔ M.Reach (fun l w => l.Goes ∧ U.InOrder H l w) w₀ w := by
  refine ⟨fun hgone => ?_, fun hord x hhas => hdone x (owes_of_has h₀ hord hhas)⟩
  rcases inOrder_or_left hK htended hreach with hord | ⟨x, hhas, -⟩
  · exact hord
  · exact absurd hhas (hgone x)

end Steps

end Upkeep

end Conc
