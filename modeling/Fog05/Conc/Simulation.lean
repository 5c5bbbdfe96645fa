import Fog05.Conc.Pool

/-! Two machines that run the same programs over different representations of the state.
Where they answer every command of a discipline alike, their pools go through the same
steps, thread by thread and answer by answer. -/

namespace Conc

variable {C P : Type} {R : C → Type} {A : P → Type} {ε Ch E S₁ S₂ Q : Type}

/-- Both are possible, with the same result in related states, or neither is. -/
abbrev Agree {α : Type} (rel : S₁ → S₂ → Prop) : Option (α × S₁) → Option (α × S₂) → Prop :=
  Option.Rel fun x y => x.1 = y.1 ∧ rel x.2 y.2

/-- The machines do the same to related states, if threads keep to the discipline. -/
structure Machine.Alike (M₁ : Machine R A ε Ch E S₁) (M₂ : Machine R A ε Ch E S₂)
    (D : Discipline R A ε Q) (rel : S₁ → S₂ → Prop) : Prop where
  body : M₁.body = M₂.body
  exec : ∀ {s₁ s₂ q c ch}, rel s₁ s₂ → D.allows q c →
    Agree rel (M₁.exec c ch s₁) (M₂.exec c ch s₂)
  move : ∀ {s₁ s₂ e}, rel s₁ s₂ → Option.Rel rel (M₁.move e s₁) (M₂.move e s₂)
  launch : ∀ {s₁ s₂}, rel s₁ s₂ → Agree rel (M₁.launch s₁) (M₂.launch s₂)
  sound : D.Sound M₁.body
  opens : ∀ p, ∃ q, (M₁.body p).Follows D (fun _ _ => True) q
  next : ∀ q c r, ∃ q', D.next q c r q'

def Machine.run {S : Type} (M : Machine R A ε Ch E S) :
    List (Label P Ch E) → Pool R A ε S → Option (Pool R A ε S)
  | [], w => some w
  | l :: ls, w => (M.step l w).bind (M.run ls)

/-- The same threads, the same outcomes so far, and related states. -/
structure Pool.Alike (D : Discipline R A ε Q) (rel : S₁ → S₂ → Prop) (w₁ : Pool R A ε S₁)
    (w₂ : Pool R A ε S₂) : Prop where
  state : rel w₁.state w₂.state
  threads : w₂.threads = w₁.threads
  done : w₂.done = w₁.done
  follows : ∀ t ∈ w₁.threads, ∃ q, t.prog.Follows D (fun _ _ => True) q

namespace Machine.Alike

variable {M₁ : Machine R A ε Ch E S₁} {M₂ : Machine R A ε Ch E S₂} {D : Discipline R A ε Q}
  {rel : S₁ → S₂ → Prop} {w₁ : Pool R A ε S₁} {w₂ : Pool R A ε S₂} {l : Label P Ch E}

theorem idle {s₁ : S₁} {s₂ : S₂} (h : rel s₁ s₂) :
    (Pool.idle s₁ : Pool R A ε S₁).Alike D rel (Pool.idle s₂) :=
  ⟨h, rfl, rfl, fun _ ht => absurd ht List.not_mem_nil⟩

theorem follows_set {w : Pool R A ε S₁}
    (h : ∀ t ∈ w.threads, ∃ q, t.prog.Follows D (fun _ _ => True) q)
    {t : Thread R A ε} {q : Q} (ht : t.prog.Follows D (fun _ _ => True) q) (i : ℕ) :
    ∀ t' ∈ w.threads.set i t, ∃ q, t'.prog.Follows D (fun _ _ => True) q := by
  intro t' ht'
  rcases List.mem_or_eq_of_mem_set ht' with ht' | rfl
  · exact h t' ht'
  · exact ⟨q, ht⟩

theorem step (hM : M₁.Alike M₂ D rel) (h : w₁.Alike D rel w₂) :
    Option.Rel (fun w₁ w₂ => w₁.Alike D rel w₂) (M₁.step l w₁) (M₂.step l w₂) := by
  have hnew : ∀ {s₁ s₂} (p : P), rel s₁ s₂ →
      Pool.Alike D rel { w₁ with state := s₁, threads := w₁.threads ++ [⟨p, M₁.body p⟩] }
        { w₂ with state := s₂, threads := w₂.threads ++ [⟨p, M₂.body p⟩] } := by
    refine fun p hs => ⟨hs, by rw [h.threads, hM.body], h.done, fun t ht => ?_⟩
    rcases List.mem_append.1 ht with ht | ht
    · exact h.follows t ht
    · rw [List.mem_singleton.1 ht]
      exact hM.opens p
  cases l with
  | start p => exact .some (hnew p h.state)
  | launch =>
    have hl := hM.launch h.state
    simp only [Machine.step]
    generalize M₁.launch w₁.state = o₁ at hl ⊢
    generalize M₂.launch w₂.state = o₂ at hl ⊢
    cases hl with
    | none => exact .none
    | @some x y hxy =>
      obtain ⟨p, s₁⟩ := x
      obtain ⟨p', s₂⟩ := y
      obtain ⟨rfl, hs⟩ := hxy
      exact .some (hnew p hs)
  | env e =>
    have hm : Option.Rel rel (M₁.move e w₁.state) (M₂.move e w₂.state) := hM.move h.state
    simp only [Machine.step]
    generalize M₁.move e w₁.state = o₁ at hm ⊢
    generalize M₂.move e w₂.state = o₂ at hm ⊢
    cases hm with
    | none => exact .none
    | some hs => exact .some ⟨hs, h.threads, h.done, h.follows⟩
  | fire i ch =>
    have hfollows : ∀ {t}, w₁.threads[i]? = some t →
        ∃ q, t.prog.Follows D (fun _ _ => True) q := fun ht =>
      h.follows _ (List.mem_of_getElem? ht)
    have hdone : ∀ x, Pool.Alike D rel
        { w₁ with threads := w₁.threads.eraseIdx i, done := w₁.done ++ [x] }
        { w₂ with threads := w₁.threads.eraseIdx i, done := w₂.done ++ [x] } := fun x =>
      ⟨h.state, rfl, by rw [h.done], fun t ht => h.follows t (List.mem_of_mem_eraseIdx ht)⟩
    cases hi : w₁.threads[i]? with
    | none =>
      simp only [Machine.step, h.threads, hi]
      exact .none
    | some t =>
      obtain ⟨q, hq⟩ := hfollows hi
      obtain ⟨p, b⟩ := t
      cases b with
      | ret a =>
        simp only [Machine.step, h.threads, hi]
        exact .some (hdone _)
      | err e =>
        simp only [Machine.step, h.threads, hi]
        exact .some (hdone _)
      | call p' k =>
        simp only [Machine.step, h.threads, hi]
        exact .some ⟨h.state, by rw [hM.body], h.done,
          follows_set h.follows (hq.enter hM.sound) i⟩
      | act c k =>
        have hx : Agree rel (M₁.exec c ch w₁.state) (M₂.exec c ch w₂.state) :=
          hM.exec h.state hq.1
        simp only [Machine.step, h.threads, hi]
        generalize M₁.exec c ch w₁.state = o₁ at hx ⊢
        generalize M₂.exec c ch w₂.state = o₂ at hx ⊢
        cases hx with
        | none => exact .none
        | @some x y hxy =>
          obtain ⟨r, s₁⟩ := x
          obtain ⟨r', s₂⟩ := y
          obtain ⟨rfl, hs⟩ := hxy
          obtain ⟨q', hn⟩ := hM.next q c r
          exact .some ⟨hs, rfl, h.done, follows_set h.follows (hq.2 r q' hn) i⟩

/-- Driven by the same labels, the machines come as far, and to the same. -/
theorem run (hM : M₁.Alike M₂ D rel) (h : w₁.Alike D rel w₂) (ls : List (Label P Ch E)) :
    Option.Rel (fun w₁ w₂ => w₁.Alike D rel w₂) (M₁.run ls w₁) (M₂.run ls w₂) := by
  induction ls generalizing w₁ w₂ with
  | nil => exact .some h
  | cons l ls ih =>
    have hs := hM.step (l := l) h
    simp only [Machine.run]
    generalize M₁.step l w₁ = o₁ at hs ⊢
    generalize M₂.step l w₂ = o₂ at hs ⊢
    cases hs with
    | none => exact .none
    | some hv => exact ih hv

end Machine.Alike

end Conc
