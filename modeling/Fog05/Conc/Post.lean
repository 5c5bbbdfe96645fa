import Mathlib.Logic.Basic

/-! Programs that read and change a state and may fail, leaving what they have changed so
far: what holds of the answer and of the state that is left. -/

namespace Conc

variable {ε σ α β : Type}

/-- From `s`, what `x` answers and the state it leaves satisfy `Q`. -/
def Post (x : EStateM ε σ α) (s : σ) (Q : Except ε α → σ → Prop) : Prop :=
  match x s with
  | .ok a s' => Q (.ok a) s'
  | .error e s' => Q (.error e) s'

variable {x : EStateM ε σ α} {f : α → EStateM ε σ β} {s : σ}

theorem Post.mono {Q Ψ : Except ε α → σ → Prop} (h : Post x s Ψ) (hQ : ∀ o s', Ψ o s' → Q o s') :
    Post x s Q := by
  unfold Post at h ⊢
  split
  · next a s' hx =>
    rw [hx] at h
    exact hQ _ _ h
  · next e s' hx =>
    rw [hx] at h
    exact hQ _ _ h

theorem Post.bind {Q : Except ε β → σ → Prop} {Ψ : Except ε α → σ → Prop} (h : Post x s Ψ)
    (hok : ∀ a s', Ψ (.ok a) s' → Post (f a) s' Q)
    (herr : ∀ e s', Ψ (.error e) s' → Q (.error e) s') : Post (x >>= f) s Q := by
  have hbind : (x >>= f) s = match x s with
      | .ok a s' => f a s'
      | .error e s' => .error e s' := rfl
  unfold Post at h
  rw [Post, hbind]
  cases hx : x s with
  | ok a s' =>
    rw [hx] at h
    exact hok a s' h
  | error e s' =>
    rw [hx] at h
    exact herr e s' h

theorem post_bind_of_ok {Q : Except ε β → σ → Prop} {a : α} {s' : σ} (hx : x s = .ok a s')
    (hf : Post (f a) s' Q) : Post (x >>= f) s Q := by
  have hbind : (x >>= f) s = f a s' := by
    change (match x s with
      | .ok a s' => f a s'
      | .error e s' => .error e s') = f a s'
    rw [hx]
  unfold Post at hf ⊢
  rwa [hbind]

theorem Post.of_ok {Q : Except ε α → σ → Prop} (h : Post x s Q) {a : α} {s' : σ}
    (hx : x s = .ok a s') : Q (.ok a) s' := by
  unfold Post at h
  rwa [hx] at h

end Conc
