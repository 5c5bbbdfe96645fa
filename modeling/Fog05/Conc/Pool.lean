import Fog05.Conc.Discipline
import Mathlib.Data.List.Basic

/-! Pools of threads over a shared state, driven by labels. A label starts a
thread on a client's behalf, launches what the shared state has scheduled, lets
one thread make one step, or lets the environment move. Steps are computed, so
that a concrete run can be evaluated; `Step` says once what a step can do. -/

namespace Conc

/-- A machine with its nondeterminism made explicit: `Ch` resolves what a
command answers, `E` names the moves of the environment. `launch` takes the next
scheduled procedure out of the state. -/
structure Machine {C P : Type} (R : C → Type) (A : P → Type) (ε Ch E S : Type) where
  exec : (c : C) → Ch → S → Option (R c × S)
  move : E → S → Option S
  body : (p : P) → Prog R A ε (A p)
  launch : S → Option (P × S)

inductive Label (P Ch E : Type)
  | start (p : P)
  | launch
  | fire (i : ℕ) (ch : Ch)
  | env (e : E)

/-- A procedure and what is left to do of it. -/
structure Thread {C P : Type} (R : C → Type) (A : P → Type) (ε : Type) where
  proc : P
  prog : Prog R A ε (A proc)

structure Pool {C P : Type} (R : C → Type) (A : P → Type) (ε S : Type) where
  state : S
  threads : List (Thread R A ε)
  done : List ((p : P) × Except ε (A p))

variable {C P : Type} {R : C → Type} {A : P → Type} {ε Ch E S Q α : Type}

/-- The command that thread `i` is about to issue. -/
def Pool.upcoming (w : Pool R A ε S) (i : ℕ) : Option C :=
  match w.threads[i]? with
  | some ⟨_, .act c _⟩ => some c
  | _ => none

def Pool.idle (s : S) : Pool R A ε S := ⟨s, [], []⟩

/-- A line of a script: a label whose choice is left open. -/
inductive Turn (P E : Type)
  | start (p : P)
  | launch
  | fire (i : ℕ)
  | env (e : E)

def Turn.label (σ : Pool R A ε S → ℕ → Ch) (w : Pool R A ε S) : Turn P E → Label P Ch E
  | .start p => .start p
  | .launch => .launch
  | .fire i => .fire i (σ w i)
  | .env e => .env e

/-- Every thread of the pool is within the discipline, in a state that `I` ties
to the shared one, and so was every thread that is over, when it ended. -/
structure Pool.Follows (D : Discipline R A ε Q) (Φ : (p : P) → Except ε (A p) → Q → Prop)
    (I : P → Q → S → Prop) (w : Pool R A ε S) : Prop where
  threads : ∀ t ∈ w.threads, ∃ q, t.prog.Follows D (Φ t.proc) q ∧ I t.proc q w.state
  done : ∀ x ∈ w.done, ∃ q, Φ x.1 x.2 q ∧ I x.1 q w.state

theorem Pool.upcoming_eq_some {w : Pool R A ε S} {i : ℕ} {c : C} :
    w.upcoming i = some c ↔ ∃ p k, w.threads[i]? = some ⟨p, .act c k⟩ := by
  constructor
  · intro h
    simp only [Pool.upcoming] at h
    split at h
    · next p c' k hi =>
      cases h
      exact ⟨p, k, hi⟩
    · cases h
  · rintro ⟨p, k, hi⟩
    simp [Pool.upcoming, hi]

theorem Pool.Follows.imp {D : Discipline R A ε Q} {Φ : (p : P) → Except ε (A p) → Q → Prop}
    {I I' : P → Q → S → Prop} {w : Pool R A ε S} (h : w.Follows D Φ I)
    (hI : ∀ p q, I p q w.state → I' p q w.state) : w.Follows D Φ I' := by
  refine ⟨fun t ht => ?_, fun x hx => ?_⟩
  · obtain ⟨q, hq, hi⟩ := h.threads t ht
    exact ⟨q, hq, hI _ _ hi⟩
  · obtain ⟨q, hq, hi⟩ := h.done x hx
    exact ⟨q, hq, hI _ _ hi⟩

theorem Pool.follows_idle {D : Discipline R A ε Q} {Φ : (p : P) → Except ε (A p) → Q → Prop}
    {I : P → Q → S → Prop} (s : S) : (Pool.idle s : Pool R A ε S).Follows D Φ I :=
  ⟨fun _ ht => absurd ht List.not_mem_nil, fun _ hx => absurd hx List.not_mem_nil⟩

theorem Pool.Follows.act {D : Discipline R A ε Q} {Φ : (p : P) → Except ε (A p) → Q → Prop}
    {I I' : P → Q → S → Prop} {w : Pool R A ε S} (h : w.Follows D Φ I) {i : ℕ} {p : P}
    {b : Prog R A ε (A p)} {q' : Q} {s : S} (hb : b.Follows D (Φ p) q') (hI : I' p q' s)
    (hother : ∀ p q, I p q w.state → I' p q s) :
    Pool.Follows D Φ I' { w with state := s, threads := w.threads.set i ⟨p, b⟩ } := by
  refine ⟨fun t ht => ?_, fun x hx => ?_⟩
  · rcases List.mem_or_eq_of_mem_set ht with ht | rfl
    · obtain ⟨q, hq, hi⟩ := h.threads t ht
      exact ⟨q, hq, hother _ _ hi⟩
    · exact ⟨q', hb, hI⟩
  · obtain ⟨q, hq, hi⟩ := h.done x hx
    exact ⟨q, hq, hother _ _ hi⟩

namespace Machine

variable (M : Machine R A ε Ch E S)

/-- The relational reading of the machine, with the answers that `ok` lets through. -/
def system (ok : Ch → Prop) : System R A ε S where
  act c s r s' := ∃ ch, ok ch ∧ M.exec c ch s = some (r, s')
  env s s' := ∃ e, M.move e s = some s'
  body := M.body

def step : Label P Ch E → Pool R A ε S → Option (Pool R A ε S)
  | .start p, w => some { w with threads := w.threads ++ [⟨p, M.body p⟩] }
  | .launch, w => (M.launch w.state).map fun x =>
      { w with state := x.2, threads := w.threads ++ [⟨x.1, M.body x.1⟩] }
  | .env e, w => (M.move e w.state).map fun s => { w with state := s }
  | .fire i ch, w =>
      match w.threads[i]? with
      | none => none
      | some ⟨p, .ret a⟩ =>
          some { w with threads := w.threads.eraseIdx i, done := w.done ++ [⟨p, .ok a⟩] }
      | some ⟨p, .err e⟩ =>
          some { w with threads := w.threads.eraseIdx i, done := w.done ++ [⟨p, .error e⟩] }
      | some ⟨p, .act c k⟩ => (M.exec c ch w.state).map fun x =>
          { w with state := x.2, threads := w.threads.set i ⟨p, k x.1⟩ }
      | some ⟨p, .call q k⟩ =>
          some { w with threads := w.threads.set i ⟨p, (M.body q).bindE k⟩ }

inductive Step : Label P Ch E → Pool R A ε S → Pool R A ε S → Prop
  | start {w p} : Step (.start p) w { w with threads := w.threads ++ [⟨p, M.body p⟩] }
  | launch {w p s} : M.launch w.state = some (p, s) →
      Step .launch w { w with state := s, threads := w.threads ++ [⟨p, M.body p⟩] }
  | env {w e s} : M.move e w.state = some s → Step (.env e) w { w with state := s }
  | act {w i ch p c k r s} : w.threads[i]? = some ⟨p, .act c k⟩ →
      M.exec c ch w.state = some (r, s) →
      Step (.fire i ch) w { w with state := s, threads := w.threads.set i ⟨p, k r⟩ }
  | call {w i ch p q k} : w.threads[i]? = some ⟨p, .call q k⟩ →
      Step (.fire i ch) w { w with threads := w.threads.set i ⟨p, (M.body q).bindE k⟩ }
  | done {w i ch p o} : w.threads[i]? = some ⟨p, .final o⟩ →
      Step (.fire i ch) w
        { w with threads := w.threads.eraseIdx i, done := w.done ++ [⟨p, o⟩] }

variable {M}

theorem step_cases {l : Label P Ch E} {w w' : Pool R A ε S} (h : M.step l w = some w') :
    M.Step l w w' := by
  cases l with
  | start p => cases h; exact Step.start
  | launch =>
    obtain ⟨⟨p, s⟩, hs, rfl⟩ := Option.map_eq_some_iff.1 h
    exact Step.launch hs
  | env e =>
    obtain ⟨s, hs, rfl⟩ := Option.map_eq_some_iff.1 h
    exact Step.env hs
  | fire i ch =>
    simp only [step] at h
    split at h
    · cases h
    · rename_i p a hi
      cases h
      exact Step.done (o := .ok a) hi
    · rename_i p e hi
      cases h
      exact Step.done (o := .error e) hi
    · rename_i p c k hi
      obtain ⟨⟨r, s⟩, hx, rfl⟩ := Option.map_eq_some_iff.1 h
      exact Step.act hi hx
    · rename_i p q k hi
      cases h
      exact Step.call hi

theorem eq_or_of_mem_set {τ : Type} {l : List τ} {i : ℕ} {a t : τ} (ht : t ∈ l.set i a) :
    t = a ∨ ∃ j, j ≠ i ∧ l[j]? = some t := by
  obtain ⟨j, hj, hjt⟩ := List.mem_iff_getElem.1 ht
  by_cases hij : j = i
  · subst hij
    exact Or.inl (by simpa using hjt.symm)
  · refine Or.inr ⟨j, hij, ?_⟩
    rw [← hjt, List.getElem_set_of_ne (Ne.symm hij)]
    exact List.getElem?_eq_getElem _

theorem Step.of_upcoming {i : ℕ} {ch : Ch} {c : C} {w w' : Pool R A ε S}
    (h : M.Step (.fire i ch) w w') (hc : w.upcoming i = some c) :
    ∃ p k r s, w.threads[i]? = some ⟨p, .act c k⟩ ∧ M.exec c ch w.state = some (r, s) ∧
      w' = { w with state := s, threads := w.threads.set i ⟨p, k r⟩ } := by
  obtain ⟨p, k, hi⟩ := Pool.upcoming_eq_some.1 hc
  cases h with
  | @act _ _ _ p' c' k' r s hi' hx =>
    obtain ⟨rfl, hprog⟩ := Thread.mk.inj (Option.some.inj (hi.symm.trans hi'))
    cases eq_of_heq hprog
    exact ⟨p, k, r, s, hi, hx, rfl⟩
  | call hi' => rw [hi] at hi'; cases hi'
  | @done _ _ _ _ o hi' => rw [hi] at hi'; cases o <;> cases hi'

/-- A step keeps every thread within a discipline, when threads start within
it, answers stay within it, and no step of another thread or of the environment
breaks what ties a thread to the shared state. -/
theorem Step.follows {D : Discipline R A ε Q} {Φ : (p : P) → Except ε (A p) → Q → Prop}
    {I : P → Q → S → Prop} (hD : D.Sound M.body) {l : Label P Ch E} {w w' : Pool R A ε S}
    (h : M.Step l w w') (hw : w.Follows D Φ I)
    (hstart : ∀ p, l = .start p → ∃ q, (M.body p).Follows D (Φ p) q ∧ I p q w.state)
    (hlaunch : ∀ p s, l = .launch → M.launch w.state = some (p, s) →
      ∃ q, (M.body p).Follows D (Φ p) q ∧ I p q s)
    (hown : ∀ i ch p q c r s, l = .fire i ch → w.upcoming i = some c → I p q w.state →
      D.allows q c → M.exec c ch w.state = some (r, s) → ∃ q', D.next q c r q' ∧ I p q' s)
    (hother : ∀ p q, I p q w.state → I p q w'.state) : w'.Follows D Φ I := by
  have keep : ∀ t ∈ w.threads, ∃ q, t.prog.Follows D (Φ t.proc) q ∧ I t.proc q w'.state := by
    intro t ht
    obtain ⟨q, hq, hI⟩ := hw.threads t ht
    exact ⟨q, hq, hother _ _ hI⟩
  have keepDone : ∀ x ∈ w.done, ∃ q, Φ x.1 x.2 q ∧ I x.1 q w'.state := by
    intro x hx
    obtain ⟨q, hq, hI⟩ := hw.done x hx
    exact ⟨q, hq, hother _ _ hI⟩
  cases h with
  | start =>
    refine ⟨fun t ht => ?_, keepDone⟩
    rcases List.mem_append.1 ht with ht | ht
    · exact keep t ht
    · obtain rfl := List.mem_singleton.1 ht
      exact hstart _ rfl
  | launch hs =>
    refine ⟨fun t ht => ?_, keepDone⟩
    rcases List.mem_append.1 ht with ht | ht
    · exact keep t ht
    · obtain rfl := List.mem_singleton.1 ht
      exact hlaunch _ _ rfl hs
  | env hs => exact ⟨keep, keepDone⟩
  | act hi hx =>
    rename_i i ch p c k r s
    obtain ⟨q, hq, hI⟩ := hw.threads _ (List.mem_of_getElem? hi)
    have hup : w.upcoming i = some c := by simp [Pool.upcoming, hi]
    obtain ⟨q', hn, hI'⟩ := hown i ch p q c r s rfl hup hI hq.1 hx
    exact hw.act (hq.2 r q' hn) hI' hother
  | call hi =>
    refine ⟨fun t ht => ?_, keepDone⟩
    rcases List.mem_or_eq_of_mem_set ht with ht | rfl
    · exact keep t ht
    · obtain ⟨q, hq, hI⟩ := keep _ (List.mem_of_getElem? hi)
      exact ⟨q, hq.enter hD, hI⟩
  | done hi =>
    refine ⟨fun t ht => keep t (List.mem_of_mem_eraseIdx ht), fun x hx => ?_⟩
    rcases List.mem_append.1 hx with hx | hx
    · exact keepDone x hx
    · obtain rfl := List.mem_singleton.1 hx
      obtain ⟨q, hq, hI⟩ := keep _ (List.mem_of_getElem? hi)
      exact ⟨q, (Prog.follows_final _ q).1 hq, hI⟩

theorem Step.follows_beside {D : Discipline R A ε Q} {Φ : (p : P) → Except ε (A p) → Q → Prop}
    {I I' : P → Q → S → Prop} {i : ℕ} {ch : Ch} {c : C} {w w' : Pool R A ε S}
    (h : M.Step (.fire i ch) w w') (hc : w.upcoming i = some c) (hw : w.Follows D Φ I)
    (hown : ∀ p q r s, I p q w.state → D.allows q c → M.exec c ch w.state = some (r, s) →
      w'.state = s → ∃ q', D.next q c r q' ∧ I' p q' s)
    (hothers : ∀ j t, j ≠ i → w.threads[j]? = some t →
      ∃ q, t.prog.Follows D (Φ t.proc) q ∧ I' t.proc q w'.state)
    (hdone : ∀ x ∈ w.done, ∃ q, Φ x.1 x.2 q ∧ I' x.1 q w'.state) : w'.Follows D Φ I' := by
  obtain ⟨p, k, r, s, hi, hx, rfl⟩ := h.of_upcoming hc
  refine ⟨fun t ht => ?_, hdone⟩
  rcases eq_or_of_mem_set ht with rfl | ⟨j, hij, hj⟩
  · obtain ⟨q, hq, hI⟩ := hw.threads _ (List.mem_of_getElem? hi)
    obtain ⟨q', hn, hI'⟩ := hown p q r s hI hq.1 hx rfl
    exact ⟨q', hq.2 r q' hn, hI'⟩
  · exact hothers j t hij hj

/-- The pools reachable from `w₀` by steps that all meet `G`. -/
inductive Reach (M : Machine R A ε Ch E S) (G : Label P Ch E → Pool R A ε S → Prop)
    (w₀ : Pool R A ε S) : Pool R A ε S → Prop
  | refl : Reach M G w₀ w₀
  | snoc {w w' l} : Reach M G w₀ w → G l w → M.step l w = some w' → Reach M G w₀ w'

variable {G : Label P Ch E → Pool R A ε S → Prop} {w₀ w w₁ w₂ : Pool R A ε S}

/-- An invariant that every step keeps holds in every reachable pool. -/
theorem Reach.inv (I : Pool R A ε S → Prop) (h₀ : I w₀)
    (hstep : ∀ l w w', I w → G l w → M.Step l w w' → I w') (h : M.Reach G w₀ w) : I w := by
  induction h with
  | refl => exact h₀
  | snoc _ hg hs ih => exact hstep _ _ _ ih hg (step_cases hs)

theorem Reach.sharpen {G' : Label P Ch E → Pool R A ε S → Prop} (h : M.Reach G w₀ w)
    (hG : ∀ l w, M.Reach G w₀ w → G l w → G' l w) : M.Reach G' w₀ w := by
  induction h with
  | refl => exact Reach.refl
  | snoc hrun hg hs ih => exact ih.snoc (hG _ _ hrun hg) hs

theorem Reach.mono {G' : Label P Ch E → Pool R A ε S → Prop} (h : M.Reach G w₀ w)
    (hG : ∀ l w, G l w → G' l w) : M.Reach G' w₀ w :=
  h.sharpen fun l w _ => hG l w

theorem Reach.trans (h : M.Reach G w₀ w₁) (h' : M.Reach G w₁ w₂) : M.Reach G w₀ w₂ := by
  induction h' with
  | refl => exact h
  | snoc _ hg hs ih => exact ih.snoc hg hs

theorem Reach.envs {ok : Ch → Prop} (hG : ∀ e w, G (.env e) w) {s : S}
    (h : Relation.ReflTransGen (M.system ok).env w.state s) : M.Reach G w { w with state := s } := by
  induction h with
  | refl => exact Reach.refl
  | tail _ he ih =>
    obtain ⟨e, he⟩ := he
    exact ih.snoc (hG e _) (by simp [step, he])

/-- Play a script: `σ` resolves the commands, `g` checks every label. -/
def script (M : Machine R A ε Ch E S) (σ : Pool R A ε S → ℕ → Ch)
    (g : Label P Ch E → Pool R A ε S → Bool) :
    List (Turn P E) → Pool R A ε S → Option (Pool R A ε S)
  | [], w => some w
  | t :: ts, w =>
      if g (t.label σ w) w then (M.step (t.label σ w) w).bind (M.script σ g ts) else none

theorem reach_of_script {σ : Pool R A ε S → ℕ → Ch} {g : Label P Ch E → Pool R A ε S → Bool}
    (hg : ∀ l v, g l v = true → G l v) {ts : List (Turn P E)}
    (h : M.script σ g ts w = some w₁) : M.Reach G w w₁ := by
  induction ts generalizing w with
  | nil => cases h; exact Reach.refl
  | cons t ts ih =>
    simp only [script] at h
    split at h
    · next hl =>
      obtain ⟨w₂, h1, h2⟩ := Option.bind_eq_some_iff.1 h
      exact (Reach.refl.snoc (hg _ _ hl) h1).trans (ih h2)
    · cases h

theorem exists_script {σ : Pool R A ε S → ℕ → Ch} {g : Label P Ch E → Pool R A ε S → Bool}
    {ts : List (Turn P E)} {f : Pool R A ε S → Bool}
    (h : (M.script σ g ts w).any f = true) : ∃ w', M.script σ g ts w = some w' ∧ f w' = true :=
  (Option.any_eq_true _ _).1 h

/-- Run one program to its end. `σ` resolves its commands, and before each one the
environment makes those of the moves `es` that it can. -/
def drive (M : Machine R A ε Ch E S) (σ : C → S → Ch) (es : List E) :
    ℕ → S → Prog R A ε α → Option (Except ε α × S)
  | 0, _, _ => none
  | _ + 1, s, .ret a => some (.ok a, s)
  | _ + 1, s, .err e => some (.error e, s)
  | n + 1, s, .act c k =>
      let s₁ := es.foldl (fun s e => (M.move e s).getD s) s
      (M.exec c (σ c s₁) s₁).bind fun x => M.drive σ es n x.2 (k x.1)
  | n + 1, s, .call q k => M.drive σ es n s ((M.body q).bindE k)

theorem runs_of_moves (ok : Ch → Prop) (es : List E) {n : ℕ} {s s' : S} {p p' : Prog R A ε α}
    (hp : p.Running)
    (h : (M.system ok).Runs n (es.foldl (fun s e => (M.move e s).getD s) s) p s' p') :
    ∃ m, (M.system ok).Runs m s p s' p' := by
  induction es generalizing s with
  | nil => exact ⟨n, h⟩
  | cons e es ih =>
    obtain ⟨m, hm⟩ := ih h
    cases hs : M.move e s with
    | none => exact ⟨m, by simpa [hs] using hm⟩
    | some s₁ => exact ⟨m + 1, System.Runs.env hp ⟨e, hs⟩ (by simpa [hs] using hm)⟩

theorem runs_of_drive (ok : Ch → Prop) {σ : C → S → Ch} (hσ : ∀ c s, ok (σ c s)) {es : List E}
    {n : ℕ} {s s' : S} {p : Prog R A ε α} {o : Except ε α}
    (h : M.drive σ es n s p = some (o, s')) :
    ∃ m, (M.system ok).Runs m s p s' (.final o) := by
  induction n generalizing s p with
  | zero => cases h
  | succ n ih =>
    cases p with
    | ret a => cases h; exact ⟨0, System.Runs.refl _ _⟩
    | err e => cases h; exact ⟨0, System.Runs.refl _ _⟩
    | act c k =>
      obtain ⟨⟨r, s₁⟩, hx, hrun⟩ := Option.bind_eq_some_iff.1 h
      obtain ⟨m, hm⟩ := ih hrun
      exact runs_of_moves ok es trivial (System.Runs.act ⟨_, hσ _ _, hx⟩ hm)
    | call q k =>
      obtain ⟨m, hm⟩ := ih h
      exact ⟨m + 1, System.Runs.call hm⟩

theorem exists_drive {σ : C → S → Ch} {es : List E} {n : ℕ} {s : S} {p : Prog R A ε α}
    {f : Except ε α → S → Bool} (h : (M.drive σ es n s p).any (fun x => f x.1 x.2) = true) :
    ∃ o s', M.drive σ es n s p = some (o, s') ∧ f o s' = true := by
  obtain ⟨⟨o, s'⟩, hrun, hf⟩ := (Option.any_eq_true _ _).1 h
  exact ⟨o, s', hrun, hf⟩

end Machine

end Conc
