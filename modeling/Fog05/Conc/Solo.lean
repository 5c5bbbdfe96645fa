import Fog05.Conc.Prog
import Mathlib.Data.Nat.Notation
import Mathlib.Logic.Relation

/-! Runs of one program under interference. Between the program's steps the
environment may move the shared state. `Ensures` is the Hoare triple of this
semantics: every run that ends, ends well, and in the total reading a run that
has not ended can always be brought to an end. -/

namespace Conc

open Relation

/-- What commands, procedures and the environment do to a shared state `S`. -/
structure System {C P : Type} (R : C → Type) (A : P → Type) (ε S : Type) where
  act : (c : C) → S → R c → S → Prop
  env : S → S → Prop
  body : (p : P) → Prog R A ε (A p)

namespace System

variable {C P : Type} {R : C → Type} {A : P → Type} {ε S α β : Type}
variable (M : System R A ε S)

/-- `n` steps of a program and of its environment. A program that is over is
left alone: its outcome is seen in the state it returned in. -/
inductive Runs : ℕ → S → Prog R A ε α → S → Prog R A ε α → Prop
  | refl (s : S) (p : Prog R A ε α) : Runs 0 s p s p
  | act {n s s₁ s' c k r p'} : M.act c s r s₁ → Runs n s₁ (k r) s' p' →
      Runs (n + 1) s (.act c k) s' p'
  | call {n s s' q k p'} : Runs n s ((M.body q).bindE k) s' p' →
      Runs (n + 1) s (.call q k) s' p'
  | env {n s s₁ s' p p'} : p.Running → M.env s s₁ → Runs n s₁ p s' p' →
      Runs (n + 1) s p s' p'

variable {M}

theorem Runs.trans {n m : ℕ} {s s₁ s' : S} {p p₁ p' : Prog R A ε α}
    (h : M.Runs n s p s₁ p₁) (h' : M.Runs m s₁ p₁ s' p') : M.Runs (n + m) s p s' p' := by
  induction h with
  | refl s p => simpa using h'
  | act ha _ ih => rw [Nat.add_right_comm]; exact Runs.act ha (ih h')
  | call _ ih => rw [Nat.add_right_comm]; exact Runs.call (ih h')
  | env hp he _ ih => rw [Nat.add_right_comm]; exact Runs.env hp he (ih h')

theorem Runs.envs {s s₁ : S} {p : Prog R A ε α} (hp : p.Running)
    (h : ReflTransGen M.env s s₁) : ∃ n, M.Runs n s p s₁ p := by
  induction h using ReflTransGen.head_induction_on with
  | refl => exact ⟨0, Runs.refl _ _⟩
  | head he _ ih =>
    obtain ⟨n, hn⟩ := ih
    exact ⟨n + 1, Runs.env hp he hn⟩

theorem Runs.bindE {n : ℕ} {s s' : S} {p p' : Prog R A ε α} (k : Except ε α → Prog R A ε β)
    (h : M.Runs n s p s' p') : M.Runs n s (p.bindE k) s' (p'.bindE k) := by
  induction h with
  | refl s p => exact Runs.refl _ _
  | act ha _ ih => exact Runs.act ha ih
  | call _ ih => exact Runs.call (by rw [← Prog.bindE_assoc]; exact ih)
  | env hp he _ ih => exact Runs.env (hp.bindE k) he ih

theorem Runs.of_final {n : ℕ} {s s' : S} {o : Except ε α} {p' : Prog R A ε α}
    (h : M.Runs n s (.final o) s' p') : n = 0 ∧ s' = s ∧ p' = .final o := by
  generalize hp : Prog.final o = p at h
  cases h with
  | refl => exact ⟨rfl, rfl, rfl⟩
  | act _ _ => cases o <;> cases hp
  | call _ => cases o <;> cases hp
  | env hr _ _ => subst hp; exact absurd hr (Prog.not_running_final o)

theorem Runs.bindE_inv {k : Except ε α → Prog R A ε β} {n : ℕ} {s s' : S} {p : Prog R A ε α}
    {q : Prog R A ε β} (h : M.Runs n s (p.bindE k) s' q) :
    (∃ p', p'.Running ∧ q = p'.bindE k ∧ M.Runs n s p s' p') ∨
      ∃ m l o s₁, M.Runs m s p s₁ (.final o) ∧ M.Runs l s₁ (k o) s' q ∧ m + l = n := by
  induction n generalizing s p with
  | zero =>
    cases h
    rcases p.running_or_final with hp | ⟨o, rfl⟩
    · exact Or.inl ⟨p, hp, rfl, Runs.refl _ _⟩
    · exact Or.inr ⟨0, 0, o, s', Runs.refl _ _, by simpa using Runs.refl _ _, rfl⟩
  | succ n ih =>
    rcases p.running_or_final with hp | ⟨o, rfl⟩
    · -- one step of `p` or of the environment, then the induction hypothesis
      have lift : ∀ {s₁ : S} {t : Prog R A ε α},
          (∀ {m s' p'}, M.Runs m s₁ t s' p' → M.Runs (m + 1) s p s' p') →
          M.Runs n s₁ (t.bindE k) s' q →
          (∃ p', p'.Running ∧ q = p'.bindE k ∧ M.Runs (n + 1) s p s' p') ∨
            ∃ m l o s₁, M.Runs m s p s₁ (.final o) ∧ M.Runs l s₁ (k o) s' q ∧ m + l = n + 1 := by
        intro s₁ t hstep hrun
        rcases ih hrun with ⟨p', hr, hq, hp'⟩ | ⟨m, l, o, s₂, h1, h2, hml⟩
        · exact Or.inl ⟨p', hr, hq, hstep hp'⟩
        · exact Or.inr ⟨m + 1, l, o, s₂, hstep h1, h2, by omega⟩
      cases p with
      | ret a => exact hp.elim
      | err e => exact hp.elim
      | act c f =>
        cases h with
        | act ha hrun => exact lift (fun h => Runs.act ha h) hrun
        | env _ he hrun => exact lift (t := .act c f) (fun h => Runs.env trivial he h) hrun
      | call q' f =>
        cases h with
        | call hrun =>
          rw [← Prog.bindE_assoc] at hrun
          exact lift (fun h => Runs.call h) hrun
        | env _ he hrun => exact lift (t := .call q' f) (fun h => Runs.env trivial he h) hrun
    · exact Or.inr ⟨0, n + 1, o, s, Runs.refl _ _, by simpa using h, by omega⟩

variable (M)

/-- From `s` the program can end with outcome `o` in `s'`. -/
def Ends (p : Prog R A ε α) (s : S) (o : Except ε α) (s' : S) : Prop :=
  ∃ n, M.Runs n s p s' (.final o)

variable {M}

@[simp] theorem ends_final {o o' : Except ε α} {s s' : S} :
    M.Ends (.final o) s o' s' ↔ o' = o ∧ s' = s := by
  constructor
  · rintro ⟨n, hr⟩
    obtain ⟨-, rfl, ho⟩ := hr.of_final
    refine ⟨?_, rfl⟩
    cases o <;> cases o' <;> cases ho <;> rfl
  · rintro ⟨rfl, rfl⟩
    exact ⟨0, Runs.refl _ _⟩

theorem ends_bindE {p : Prog R A ε α} {k : Except ε α → Prog R A ε β} {s s' : S}
    {o : Except ε β} :
    M.Ends (p.bindE k) s o s' ↔ ∃ o₁ s₁, M.Ends p s o₁ s₁ ∧ M.Ends (k o₁) s₁ o s' := by
  constructor
  · rintro ⟨n, hr⟩
    rcases hr.bindE_inv with ⟨p', hp', ho, -⟩ | ⟨m, l, o₁, s₁, h1, h2, -⟩
    · exact absurd (ho ▸ hp'.bindE k) (Prog.not_running_final o)
    · exact ⟨o₁, s₁, ⟨m, h1⟩, l, h2⟩
  · rintro ⟨o₁, s₁, ⟨m, h1⟩, l, h2⟩
    exact ⟨m + l, (h1.bindE k).trans (by simpa using h2)⟩

theorem Ends.envs {p : Prog R A ε α} {s s₁ s' : S} {o : Except ε α} (hp : p.Running)
    (hs : ReflTransGen M.env s s₁) (h : M.Ends p s₁ o s') : M.Ends p s o s' := by
  obtain ⟨n, hn⟩ := Runs.envs hp hs
  obtain ⟨m, hm⟩ := h
  exact ⟨n + m, hn.trans hm⟩

theorem ends_act {c : C} {k : R c → Prog R A ε α} {s s' : S} {o : Except ε α} :
    M.Ends (.act c k) s o s' ↔
      ∃ s₁ r s₂, ReflTransGen M.env s s₁ ∧ M.act c s₁ r s₂ ∧ M.Ends (k r) s₂ o s' := by
  constructor
  · rintro ⟨n, hr⟩
    induction n generalizing s with
    | zero => cases o <;> cases hr
    | succ n ih =>
      cases hr with
      | act ha hrun => exact ⟨s, _, _, .refl, ha, n, hrun⟩
      | env _ he hrun =>
        obtain ⟨s₁, r, s₂, hs, ha, hk⟩ := ih hrun
        exact ⟨s₁, r, s₂, hs.head he, ha, hk⟩
  · rintro ⟨s₁, r, s₂, hs, ha, n, hrun⟩
    exact Ends.envs trivial hs ⟨n + 1, Runs.act ha hrun⟩

theorem ends_call {q : P} {k : Except ε (A q) → Prog R A ε α} {s s' : S} {o : Except ε α} :
    M.Ends (.call q k) s o s' ↔
      ∃ s₁, ReflTransGen M.env s s₁ ∧ M.Ends ((M.body q).bindE k) s₁ o s' := by
  constructor
  · rintro ⟨n, hr⟩
    induction n generalizing s with
    | zero => cases o <;> cases hr
    | succ n ih =>
      cases hr with
      | call hrun => exact ⟨s, .refl, n, hrun⟩
      | env _ he hrun =>
        obtain ⟨s₁, hs, hk⟩ := ih hrun
        exact ⟨s₁, hs.head he, hk⟩
  · rintro ⟨s₁, hs, n, hrun⟩
    exact Ends.envs trivial hs ⟨n + 1, Runs.call hrun⟩

variable (M)

/-- Every run of `p` from `s` that ends, ends in `Φ`; if `t` holds, every run
from `s` can moreover be continued to its end. -/
def Ensures (t : Prop) (p : Prog R A ε α) (s : S) (Φ : Except ε α → S → Prop) : Prop :=
  (∀ n s' o, M.Runs n s p s' (.final o) → Φ o s') ∧
    (t → ∀ n s' p', M.Runs n s p s' p' → ∃ m s'' o, M.Runs m s' p' s'' (.final o))

variable {M} {t : Prop} {Φ Ψ : Except ε α → S → Prop}

theorem Ensures.mono {p : Prog R A ε α} {s : S} (h : M.Ensures t p s Ψ)
    (hΨ : ∀ o s', Ψ o s' → Φ o s') : M.Ensures t p s Φ :=
  ⟨fun n s' o hr => hΨ o s' (h.1 n s' o hr), h.2⟩

theorem Ensures.exists_end {p : Prog R A ε α} {s : S} (h : M.Ensures True p s Φ) :
    ∃ n s' o, M.Runs n s p s' (.final o) ∧ Φ o s' := by
  obtain ⟨n, s', o, hr⟩ := h.2 trivial 0 s p (Runs.refl _ _)
  exact ⟨n, s', o, hr, h.1 n s' o hr⟩

theorem ensures_final {o : Except ε α} {s : S} (h : Φ o s) : M.Ensures t (.final o) s Φ := by
  refine ⟨fun n s' o' hr => ?_, fun _ n s' p' hr => ?_⟩
  · obtain ⟨-, rfl, ho⟩ := hr.of_final
    cases o <;> cases o' <;> cases ho <;> exact h
  · obtain ⟨-, rfl, rfl⟩ := hr.of_final
    exact ⟨0, s', o, Runs.refl _ _⟩

theorem ensures_ret {a : α} {s : S} (h : Φ (.ok a) s) : M.Ensures t (.ret a) s Φ :=
  ensures_final h

theorem ensures_err {e : ε} {s : S} (h : Φ (.error e) s) :
    M.Ensures t (.err e : Prog R A ε α) s Φ :=
  ensures_final (o := .error e) h

/-- Whatever the environment did before it, the command can be executed (in the
total reading) and leads to a state from which the rest ends well. -/
theorem ensures_act {c : C} {k : R c → Prog R A ε α} {s : S}
    (h : ∀ s₁, ReflTransGen M.env s s₁ → (t → ∃ r s₂, M.act c s₁ r s₂) ∧
      ∀ r s₂, M.act c s₁ r s₂ → M.Ensures t (k r) s₂ Φ) : M.Ensures t (.act c k) s Φ := by
  have key : ∀ n s' p', M.Runs n s (.act c k) s' p' →
      (p' = .act c k ∧ ReflTransGen M.env s s') ∨
        ∃ s₁ r s₂ m, ReflTransGen M.env s s₁ ∧ M.act c s₁ r s₂ ∧ M.Runs m s₂ (k r) s' p' := by
    intro n
    clear h
    induction n generalizing s with
    | zero => intro s' p' hr; cases hr; exact Or.inl ⟨rfl, ReflTransGen.refl⟩
    | succ n ih =>
      intro s' p' hr
      cases hr with
      | act ha hrun => exact Or.inr ⟨s, _, _, n, ReflTransGen.refl, ha, hrun⟩
      | env _ he hrun =>
        rcases ih s' p' hrun with ⟨hp, hs⟩ | ⟨s₁, r, s₂, m, hs, ha, hrun⟩
        · exact Or.inl ⟨hp, hs.head he⟩
        · exact Or.inr ⟨s₁, r, s₂, m, hs.head he, ha, hrun⟩
  refine ⟨fun n s' o hr => ?_, fun ht n s' p' hr => ?_⟩
  · rcases key n s' _ hr with ⟨hp, -⟩ | ⟨s₁, r, s₂, m, hs, ha, hrun⟩
    · cases o <;> cases hp
    · exact ((h s₁ hs).2 r s₂ ha).1 m s' o hrun
  · rcases key n s' p' hr with ⟨rfl, hs⟩ | ⟨s₁, r, s₂, m, hs, ha, hrun⟩
    · obtain ⟨r, s₂, ha⟩ := (h s' hs).1 ht
      obtain ⟨m, s'', o, hrun⟩ := ((h s' hs).2 r s₂ ha).2 ht 0 s₂ _ (Runs.refl _ _)
      exact ⟨m + 1, s'', o, Runs.act ha hrun⟩
    · exact ((h s₁ hs).2 r s₂ ha).2 ht m s' p' hrun

theorem ensures_bindE {p : Prog R A ε α} {k : Except ε α → Prog R A ε β} {s : S}
    {Φ : Except ε β → S → Prop} (h : M.Ensures t p s Ψ)
    (hk : ∀ o s', Ψ o s' → M.Ensures t (k o) s' Φ) : M.Ensures t (p.bindE k) s Φ := by
  refine ⟨fun n s' o hr => ?_, fun ht n s' q hr => ?_⟩
  · rcases hr.bindE_inv with ⟨p', hp', ho, -⟩ | ⟨m, l, o', s₁, h1, h2, -⟩
    · exact absurd (ho ▸ hp'.bindE k) (Prog.not_running_final o)
    · exact (hk o' s₁ (h.1 m s₁ o' h1)).1 l s' o h2
  · rcases hr.bindE_inv with ⟨p', -, rfl, hrun⟩ | ⟨m, l, o', s₁, h1, h2, -⟩
    · obtain ⟨m, s₁, o, hend⟩ := h.2 ht n s' p' hrun
      have hΨ := h.1 _ s₁ o (hrun.trans hend)
      obtain ⟨l, s'', o', hlast⟩ := (hk o s₁ hΨ).2 ht 0 s₁ _ (Runs.refl _ _)
      have := (hend.bindE k).trans (by simpa using hlast)
      exact ⟨_, s'', o', this⟩
    · exact (hk o' s₁ (h.1 m s₁ o' h1)).2 ht l s' q h2

theorem ensures_call {q : P} {k : Except ε (A q) → Prog R A ε α} {s : S}
    (h : ∀ s₁, ReflTransGen M.env s s₁ → M.Ensures t ((M.body q).bindE k) s₁ Φ) :
    M.Ensures t (.call q k) s Φ := by
  have key : ∀ n s' p', M.Runs n s (.call q k) s' p' →
      (p' = .call q k ∧ ReflTransGen M.env s s') ∨
        ∃ s₁ m, ReflTransGen M.env s s₁ ∧ M.Runs m s₁ ((M.body q).bindE k) s' p' := by
    intro n
    clear h
    induction n generalizing s with
    | zero => intro s' p' hr; cases hr; exact Or.inl ⟨rfl, ReflTransGen.refl⟩
    | succ n ih =>
      intro s' p' hr
      cases hr with
      | call hrun => exact Or.inr ⟨s, n, ReflTransGen.refl, hrun⟩
      | env _ he hrun =>
        rcases ih s' p' hrun with ⟨hp, hs⟩ | ⟨s₁, m, hs, hrun⟩
        · exact Or.inl ⟨hp, hs.head he⟩
        · exact Or.inr ⟨s₁, m, hs.head he, hrun⟩
  refine ⟨fun n s' o hr => ?_, fun ht n s' p' hr => ?_⟩
  · rcases key n s' _ hr with ⟨hp, -⟩ | ⟨s₁, m, hs, hrun⟩
    · cases o <;> cases hp
    · exact (h s₁ hs).1 m s' o hrun
  · rcases key n s' p' hr with ⟨rfl, hs⟩ | ⟨s₁, m, hs, hrun⟩
    · obtain ⟨m, s'', o, hrun⟩ := (h s' hs).2 ht 0 s' _ (Runs.refl _ _)
      exact ⟨m + 1, s'', o, Runs.call hrun⟩
    · exact (h s₁ hs).2 ht m s' p' hrun

/-- A run of a procedure that starts over until its reading is settled is
still waiting, in a state where the environment has kept `J`, or is over. -/
theorem Runs.retry_inv {q : P} {c : C} {f : R c → Option (Except ε (A q))}
    {Φ : Except ε (A q) → S → Prop} {J : S → Prop} (hbody : M.body q = Prog.retry q c f)
    (henv : ∀ s s', J s → M.env s s' → J s')
    (hact : ∀ s r s', J s → M.act c s r s' →
      (∃ o, f r = some o ∧ Φ o s') ∨ (f r = none ∧ J s'))
    {n : ℕ} {s s' : S} {p p' : Prog R A ε (A q)} (hs : J s)
    (hp : p = Prog.invoke q ∨ p = Prog.retry q c f) (hr : M.Runs n s p s' p') :
    (J s' ∧ (p' = Prog.invoke q ∨ p' = Prog.retry q c f)) ∨ ∃ o, p' = .final o ∧ Φ o s' := by
  induction n generalizing s p with
  | zero => cases hr; exact Or.inl ⟨hs, hp⟩
  | succ n ih =>
    rcases hp with rfl | rfl
    · cases hr with
      | call hrun =>
        rw [Prog.bindE_final_right, hbody] at hrun
        exact ih hs (Or.inr rfl) hrun
      | env _ he hrun => exact ih (henv _ _ hs he) (Or.inl rfl) hrun
    · cases hr with
      | @act _ _ s₁ _ _ _ r _ ha hrun =>
        rcases hact s r s₁ hs ha with ⟨o, ho, hΦ⟩ | ⟨hn, hJ⟩
        · simp only [ho, Option.elim_some] at hrun
          obtain ⟨-, rfl, rfl⟩ := hrun.of_final
          exact Or.inr ⟨o, rfl, hΦ⟩
        · simp only [hn, Option.elim_none] at hrun
          exact ih hJ (Or.inl rfl) hrun
      | env _ he hrun => exact ih (henv _ _ hs he) (Or.inr rfl) hrun

/-- A procedure that reads and, unless the answer settles the matter, starts
over. `J` holds as long as it is waiting; in the total reading the environment
can always bring about a settling answer. -/
theorem ensures_retry {q : P} {c : C} {f : R c → Option (Except ε (A q))}
    {Φ : Except ε (A q) → S → Prop} (J : S → Prop) (hbody : M.body q = Prog.retry q c f)
    (henv : ∀ s s', J s → M.env s s' → J s')
    (hact : ∀ s r s', J s → M.act c s r s' →
      (∃ o, f r = some o ∧ Φ o s') ∨ (f r = none ∧ J s'))
    (htotal : t → ∀ s, J s → ∃ s₁ r s₂ o, ReflTransGen M.env s s₁ ∧ M.act c s₁ r s₂ ∧
      f r = some o)
    {s : S} (hs : J s) : M.Ensures t (Prog.invoke q) s Φ := by
  have finish : t → ∀ s, J s → ∃ m s' o, M.Runs m s (Prog.retry q c f) s' (.final o) := by
    intro ht s hJ
    obtain ⟨s₁, r, s₂, o, hs₁, ha, ho⟩ := htotal ht s hJ
    obtain ⟨n, hn⟩ := Runs.envs (p := Prog.retry q c f) trivial hs₁
    have hlast : M.Runs 1 s₁ (Prog.retry q c f) s₂ (.final o) :=
      Runs.act ha (by simpa [ho] using Runs.refl s₂ (Prog.final o))
    exact ⟨n + 1, s₂, o, hn.trans hlast⟩
  refine ⟨fun n s' o hr => ?_, fun ht n s' p' hr => ?_⟩
  · rcases hr.retry_inv hbody henv hact hs (Or.inl rfl) with ⟨-, hp | hp⟩ | ⟨o', ho, hΦ⟩
    · cases o <;> cases hp
    · cases o <;> cases hp
    · cases o <;> cases o' <;> cases ho <;> exact hΦ
  · rcases hr.retry_inv hbody henv hact hs (Or.inl rfl) with ⟨hJ, rfl | rfl⟩ | ⟨o', rfl, -⟩
    · obtain ⟨m, s'', o, hrun⟩ := finish ht s' hJ
      refine ⟨m + 1, s'', o, Runs.call ?_⟩
      rw [Prog.bindE_final_right, hbody]
      exact hrun
    · exact finish ht s' hJ
    · exact ⟨0, s', o', Runs.refl _ _⟩

end System

end Conc
