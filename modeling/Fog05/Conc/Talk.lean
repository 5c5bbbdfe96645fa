import Fog05.Conc.Discipline
import Mathlib.Data.List.Basic

/-! What a program says and is told: its commands with their answers and its calls with
their outcomes, in order, whatever they are. What holds of every talk of a program holds
of it in every system. -/

namespace Conc

variable {C P : Type} {R : C → Type} {A : P → Type} {ε S α β : Type}

inductive Exchange {C P : Type} (R : C → Type) (A : P → Type) (ε : Type)
  | act (c : C) (r : R c)
  | call (p : P) (o : Except ε (A p))

/-- The program can have these exchanges and then end with this outcome. -/
inductive Prog.Talks : Prog R A ε α → List (Exchange R A ε) → Except ε α → Prop
  | ret (a : α) : Talks (.ret a) [] (.ok a)
  | err (e : ε) : Talks (.err e) [] (.error e)
  | act {c k r l o} : Talks (k r) l o → Talks (.act c k) (.act c r :: l) o
  | call {p k o' l o} : Talks (k o') l o → Talks (.call p k) (.call p o' :: l) o

namespace Prog

variable {l : List (Exchange R A ε)} {o : Except ε α}

@[simp] theorem talks_ret {a : α} : (ret a : Prog R A ε α).Talks l o ↔ l = [] ∧ o = .ok a := by
  constructor
  · rintro ⟨⟩
    exact ⟨rfl, rfl⟩
  · rintro ⟨rfl, rfl⟩
    exact .ret a

@[simp] theorem talks_err {e : ε} : (err e : Prog R A ε α).Talks l o ↔ l = [] ∧ o = .error e := by
  constructor
  · rintro ⟨⟩
    exact ⟨rfl, rfl⟩
  · rintro ⟨rfl, rfl⟩
    exact .err e

@[simp] theorem talks_final {o' : Except ε α} :
    (final o' : Prog R A ε α).Talks l o ↔ l = [] ∧ o = o' := by
  cases o' with
  | ok a => exact talks_ret
  | error e => exact talks_err

theorem talks_act {c : C} {k : R c → Prog R A ε α} :
    (act c k).Talks l o ↔ ∃ r l', l = .act c r :: l' ∧ (k r).Talks l' o := by
  constructor
  · rintro ⟨⟩
    exact ⟨_, _, rfl, ‹_›⟩
  · rintro ⟨r, l', rfl, h⟩
    exact .act h

theorem talks_call {p : P} {k : Except ε (A p) → Prog R A ε α} :
    (call p k).Talks l o ↔ ∃ o' l', l = .call p o' :: l' ∧ (k o').Talks l' o := by
  constructor
  · rintro ⟨⟩
    exact ⟨_, _, rfl, ‹_›⟩
  · rintro ⟨o', l', rfl, h⟩
    exact .call h

theorem talks_bindE {p : Prog R A ε α} {k : Except ε α → Prog R A ε β} {o : Except ε β} :
    (p.bindE k).Talks l o ↔
      ∃ l₁ l₂ o₁, l = l₁ ++ l₂ ∧ p.Talks l₁ o₁ ∧ (k o₁).Talks l₂ o := by
  induction p generalizing l with
  | ret a =>
    constructor
    · exact fun h => ⟨[], l, .ok a, rfl, .ret a, h⟩
    · rintro ⟨l₁, l₂, o₁, rfl, h₁, h₂⟩
      obtain ⟨rfl, rfl⟩ := talks_ret.1 h₁
      exact h₂
  | err e =>
    constructor
    · exact fun h => ⟨[], l, .error e, rfl, .err e, h⟩
    · rintro ⟨l₁, l₂, o₁, rfl, h₁, h₂⟩
      obtain ⟨rfl, rfl⟩ := talks_err.1 h₁
      exact h₂
  | act c f ih =>
    constructor
    · intro h
      obtain ⟨r, l', rfl, hk⟩ := talks_act.1 h
      obtain ⟨l₁, l₂, o₁, rfl, h₁, h₂⟩ := (ih r).1 hk
      exact ⟨_, l₂, o₁, rfl, .act h₁, h₂⟩
    · rintro ⟨l₁, l₂, o₁, rfl, h₁, h₂⟩
      obtain ⟨r, l', rfl, hf⟩ := talks_act.1 h₁
      exact .act ((ih r).2 ⟨l', l₂, o₁, rfl, hf, h₂⟩)
  | call q f ih =>
    constructor
    · intro h
      obtain ⟨r, l', rfl, hk⟩ := talks_call.1 h
      obtain ⟨l₁, l₂, o₁, rfl, h₁, h₂⟩ := (ih r).1 hk
      exact ⟨_, l₂, o₁, rfl, .call h₁, h₂⟩
    · rintro ⟨l₁, l₂, o₁, rfl, h₁, h₂⟩
      obtain ⟨r, l', rfl, hf⟩ := talks_call.1 h₁
      exact .call ((ih r).2 ⟨l', l₂, o₁, rfl, hf, h₂⟩)

theorem talks_invoke {p : P} {o : Except ε (A p)} :
    (invoke p : Prog R A ε (A p)).Talks l o ↔ l = [.call p o] := by
  constructor
  · intro h
    obtain ⟨o', l', rfl, hend⟩ := talks_call.1 h
    obtain ⟨rfl, rfl⟩ := talks_final.1 hend
    rfl
  · rintro rfl
    exact .call (talks_final.2 ⟨rfl, rfl⟩)

/-- A talk of `p >>= f` is one of `p` that fails, or goes on with one of `f`. -/
theorem talks_bind {p : Prog R A ε α} {f : α → Prog R A ε β} {o : Except ε β} :
    (p >>= f).Talks l o ↔ (∃ e, p.Talks l (.error e) ∧ o = .error e) ∨
      ∃ l₁ l₂ a, l = l₁ ++ l₂ ∧ p.Talks l₁ (.ok a) ∧ (f a).Talks l₂ o := by
  rw [bind_def, talks_bindE]
  constructor
  · rintro ⟨l₁, l₂, e | a, rfl, h₁, h₂⟩
    · obtain ⟨rfl, rfl⟩ := talks_err.1 h₂
      exact Or.inl ⟨e, by simpa using h₁, rfl⟩
    · exact Or.inr ⟨l₁, l₂, a, rfl, h₁, h₂⟩
  · rintro (⟨e, h, rfl⟩ | ⟨l₁, l₂, a, rfl, h₁, h₂⟩)
    · exact ⟨l, [], .error e, by simp, h, .err e⟩
    · exact ⟨l₁, l₂, .ok a, rfl, h₁, h₂⟩

theorem exists_talk {I : Exchange R A ε → Prop} (hact : ∀ c, ∃ r, I (.act c r))
    (hcall : ∀ q, ∃ o', I (.call q o')) (p : Prog R A ε α) : ∃ l o, p.Talks l o ∧ ∀ x ∈ l, I x := by
  induction p with
  | ret a => exact ⟨[], _, .ret a, nofun⟩
  | err e => exact ⟨[], _, .err e, nofun⟩
  | act c k ih =>
    obtain ⟨r, hr⟩ := hact c
    obtain ⟨l, o, h, hl⟩ := ih r
    exact ⟨_, o, .act h, List.forall_mem_cons.2 ⟨hr, hl⟩⟩
  | call q k ih =>
    obtain ⟨o', ho'⟩ := hcall q
    obtain ⟨l, o, h, hl⟩ := ih o'
    exact ⟨_, o, .call h, List.forall_mem_cons.2 ⟨ho', hl⟩⟩

/-- The talk with these answers and outcomes. -/
def answered (answer : (c : C) → R c) (outcome : (q : P) → Except ε (A q)) :
    Prog R A ε α → List (Exchange R A ε) × Except ε α
  | .ret a => ([], .ok a)
  | .err e => ([], .error e)
  | .act c k =>
      let x := (k (answer c)).answered answer outcome
      (.act c (answer c) :: x.1, x.2)
  | .call q k =>
      let x := (k (outcome q)).answered answer outcome
      (.call q (outcome q) :: x.1, x.2)

theorem talks_answered (answer : (c : C) → R c) (outcome : (q : P) → Except ε (A q))
    (p : Prog R A ε α) : p.Talks (p.answered answer outcome).1 (p.answered answer outcome).2 := by
  induction p with
  | ret a => exact .ret a
  | err e => exact .err e
  | act c k ih => exact .act (ih _)
  | call q k ih => exact .call (ih _)

theorem forall_answered {I : Exchange R A ε → Prop} {answer : (c : C) → R c}
    {outcome : (q : P) → Except ε (A q)} (hact : ∀ c, I (.act c (answer c)))
    (hcall : ∀ q, I (.call q (outcome q))) (p : Prog R A ε α) :
    ∀ x ∈ (p.answered answer outcome).1, I x := by
  induction p with
  | ret a => exact nofun
  | err e => exact nofun
  | act c k ih => exact List.forall_mem_cons.2 ⟨hact c, ih _⟩
  | call q k ih => exact List.forall_mem_cons.2 ⟨hcall q, ih _⟩

theorem Within.talks {C' : C → Prop} {K : P → Prop} {p : Prog R A ε α} (hp : p.Within C' K)
    (h : p.Talks l o) : (∀ c r, .act c r ∈ l → C' c) ∧ ∀ q o', .call q o' ∈ l → K q := by
  induction h with
  | ret a => exact ⟨nofun, nofun⟩
  | err e => exact ⟨nofun, nofun⟩
  | act _ ih =>
    obtain ⟨hact, hcall⟩ := ih (hp.2 _)
    refine ⟨fun c r hmem => ?_, fun q o' hmem => hcall q o' ?_⟩
    · rcases List.mem_cons.1 hmem with heq | hmem
      · cases heq
        exact hp.1
      · exact hact c r hmem
    · exact (List.mem_cons.1 hmem).resolve_left nofun
  | call _ ih =>
    obtain ⟨hact, hcall⟩ := ih (hp.2 _)
    refine ⟨fun c r hmem => hact c r ?_, fun q o' hmem => ?_⟩
    · exact (List.mem_cons.1 hmem).resolve_left nofun
    · rcases List.mem_cons.1 hmem with heq | hmem
      · cases heq
        exact hp.1
      · exact hcall q o' hmem

end Prog

/-- A run that ends is a talk, in which `I` holds of every exchange when commands are only
issued and answered in states in which `J` holds. -/
theorem System.Runs.exists_talk {M : System R A ε S} {I : Exchange R A ε → Prop} {J : S → Prop}
    (henv : ∀ s s', J s → M.env s s' → J s')
    (hact : ∀ c s r s', J s → M.act c s r s' → I (.act c r) ∧ J s') (hcall : ∀ q o, I (.call q o))
    {n : ℕ} {s s' : S} {p : Prog R A ε α} {o : Except ε α} (hs : J s)
    (h : M.Runs n s p s' (.final o)) : ∃ l, p.Talks l o ∧ (∀ x ∈ l, I x) ∧ J s' := by
  induction n using Nat.strongRecOn generalizing α s p o s' with
  | ind n ih =>
    cases p with
    | ret a =>
      obtain ⟨-, rfl, ho⟩ := Runs.of_final (o := .ok a) h
      exact ⟨[], by cases o <;> cases ho; exact .ret a, nofun, hs⟩
    | err e =>
      obtain ⟨-, rfl, ho⟩ := Runs.of_final (o := .error e) h
      exact ⟨[], by cases o <;> cases ho; exact .err e, nofun, hs⟩
    | act c k =>
      generalize ho : Prog.final o = p' at h
      cases h with
      | refl => cases o <;> cases ho
      | act ha hrun =>
        obtain ⟨hI, hJ⟩ := hact _ _ _ _ hs ha
        obtain ⟨l, hl, hall, hend⟩ := ih _ (Nat.lt_succ_self _) hJ (ho ▸ hrun)
        exact ⟨_, .act hl, List.forall_mem_cons.2 ⟨hI, hall⟩, hend⟩
      | env _ he hrun => exact ih _ (Nat.lt_succ_self _) (henv _ _ hs he) (ho ▸ hrun)
    | call q k =>
      generalize ho : Prog.final o = p' at h
      cases h with
      | refl => cases o <;> cases ho
      | env _ he hrun => exact ih _ (Nat.lt_succ_self _) (henv _ _ hs he) (ho ▸ hrun)
      | call hrun =>
        subst ho
        rcases hrun.bindE_inv with ⟨p', hp', heq, -⟩ | ⟨m, l, o₁, s₁, hq, hk, hml⟩
        · exact absurd (heq ▸ hp'.bindE k) (Prog.not_running_final o)
        · obtain ⟨-, -, -, hs₁⟩ := ih m (by omega) hs hq
          obtain ⟨l', hl', hall, hend⟩ := ih l (by omega) hs₁ hk
          exact ⟨_, .call hl', List.forall_mem_cons.2 ⟨hcall q o₁, hall⟩, hend⟩

end Conc
