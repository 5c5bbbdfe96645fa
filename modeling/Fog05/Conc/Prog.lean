import Mathlib.Logic.Basic

/-! Programs as trees of commands. A program returns, fails, issues a command
and continues with its answer, or calls a procedure and continues with its
outcome. Procedures are named, not inlined, so that they may be recursive. -/

namespace Conc

/-- Programs over commands `C` answered in `R` and procedures `P` that return
`A` or fail with `ε`. -/
inductive Prog {C P : Type} (R : C → Type) (A : P → Type) (ε α : Type) : Type
  | ret (a : α)
  | err (e : ε)
  | act (c : C) (k : R c → Prog R A ε α)
  | call (p : P) (k : Except ε (A p) → Prog R A ε α)

namespace Prog

variable {C P : Type} {R : C → Type} {A : P → Type} {ε α β γ : Type}

/-- The program that is over, with outcome `o`. -/
def final : Except ε α → Prog R A ε α
  | .ok a => .ret a
  | .error e => .err e

/-- Run the program, then go on with its outcome, successful or not. -/
def bindE (k : Except ε α → Prog R A ε β) : Prog R A ε α → Prog R A ε β
  | .ret a => k (.ok a)
  | .err e => k (.error e)
  | .act c f => .act c fun r => (f r).bindE k
  | .call p f => .call p fun o => (f o).bindE k

/-- Go on with `f` after a success; a failure is passed on. -/
def onOk (f : α → Prog R A ε β) : Except ε α → Prog R A ε β
  | .ok a => f a
  | .error e => .err e

instance : Monad (Prog R A ε) where
  pure := .ret
  bind p f := p.bindE (onOk f)

/-- The outcome of `p` as a value: never fails. -/
def attempt (p : Prog R A ε α) : Prog R A ε (Except ε α) := p.bindE .ret

def issue (c : C) : Prog R A ε (R c) := .act c .ret

def invoke (p : P) : Prog R A ε (A p) := .call p final

/-- One round of a procedure that reads and starts over until `f` settles it. -/
def retry (q : P) (c : C) (f : R c → Option (Except ε (A q))) : Prog R A ε (A q) :=
  .act c fun r => (f r).elim (invoke q) final

@[simp] theorem onOk_ok (f : α → Prog R A ε β) (a : α) : onOk f (.ok a) = f a := rfl

@[simp] theorem onOk_error (f : α → Prog R A ε β) (e : ε) : onOk f (.error e) = .err e := rfl

@[simp] theorem final_ok (a : α) : (final (.ok a) : Prog R A ε α) = .ret a := rfl

@[simp] theorem final_error (e : ε) : (final (.error e) : Prog R A ε α) = .err e := rfl

@[simp] theorem bindE_ret (k : Except ε α → Prog R A ε β) (a : α) :
    (ret a : Prog R A ε α).bindE k = k (.ok a) := rfl

@[simp] theorem bindE_err (k : Except ε α → Prog R A ε β) (e : ε) :
    (err e : Prog R A ε α).bindE k = k (.error e) := rfl

@[simp] theorem bindE_act (k : Except ε α → Prog R A ε β) (c : C) (f : R c → Prog R A ε α) :
    (act c f).bindE k = act c fun r => (f r).bindE k := rfl

@[simp] theorem bindE_call (k : Except ε α → Prog R A ε β) (p : P)
    (f : Except ε (A p) → Prog R A ε α) :
    (call p f).bindE k = call p fun o => (f o).bindE k := rfl

@[simp] theorem bindE_final (k : Except ε α → Prog R A ε β) (o : Except ε α) :
    (final o).bindE k = k o := by
  cases o <;> rfl

theorem bindE_assoc (k : Except ε α → Prog R A ε β) (l : Except ε β → Prog R A ε γ)
    (p : Prog R A ε α) : (p.bindE k).bindE l = p.bindE fun o => (k o).bindE l := by
  induction p with
  | ret a => rfl
  | err e => rfl
  | act c f ih => simp only [bindE_act, ih]
  | call q f ih => simp only [bindE_call, ih]

theorem bindE_final_right (p : Prog R A ε α) : p.bindE final = p := by
  induction p with
  | ret a => rfl
  | err e => rfl
  | act c f ih => simp only [bindE_act, ih]
  | call q f ih => simp only [bindE_call, ih]

theorem bind_def (p : Prog R A ε α) (f : α → Prog R A ε β) : p >>= f = p.bindE (onOk f) := rfl

theorem attempt_bind (p : Prog R A ε α) (f : Except ε α → Prog R A ε β) :
    (p.attempt >>= f) = p.bindE f := by
  rw [bind_def, attempt, bindE_assoc]
  rfl

def Running : Prog R A ε α → Prop
  | .ret _ | .err _ => False
  | .act _ _ | .call _ _ => True

@[simp] theorem not_running_final (o : Except ε α) : ¬ (final o : Prog R A ε α).Running := by
  cases o <;> exact not_false

theorem running_or_final (p : Prog R A ε α) : p.Running ∨ ∃ o, p = final o := by
  cases p with
  | ret a => exact Or.inr ⟨.ok a, rfl⟩
  | err e => exact Or.inr ⟨.error e, rfl⟩
  | act c k => exact Or.inl trivial
  | call q k => exact Or.inl trivial

theorem Running.bindE {p : Prog R A ε α} (h : p.Running) (k : Except ε α → Prog R A ε β) :
    (p.bindE k).Running := by
  cases p with
  | ret a => exact h.elim
  | err e => exact h.elim
  | act c f => exact trivial
  | call q f => exact trivial

end Prog

end Conc
