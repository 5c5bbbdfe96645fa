import Fog05.Conc.Ledger

/-! Locks that the commands of a machine take and give back. A program that holds one lock
at a time, calls no procedure meanwhile and gives the lock back before it is over, keeps
nobody waiting for good: its thread alone comes to give the lock back, whatever happens. -/

namespace Conc

variable {C P : Type} {R : C → Type} {A : P → Type} {ε Ch E S L : Type}

/-- What a command has to do with a lock: nothing, or it takes it, needs it, gives it back. -/
inductive Grip (L : Type)
  | free
  | acquire (l : L)
  | inside (l : L)
  | release (l : L)

/-- The command is for the holder of the lock only. -/
def Grip.Needs (l : L) : Grip L → Prop
  | inside l' | release l' => l' = l
  | _ => False

/-- The locks of a machine: only taking a lock may have to wait, namely for that lock. -/
structure Mutex (M : Machine R A ε Ch E S) (L : Type) where
  grip : C → Grip L
  taken : S → L → Bool
  acquire : ∀ {c l ch s r s'}, grip c = .acquire l → M.exec c ch s = some (r, s') →
    taken s l = false ∧ ∀ l', taken s' l' = true ↔ l' = l ∨ taken s l' = true
  release : ∀ {c l ch s r s'}, grip c = .release l → M.exec c ch s = some (r, s') →
    ∀ l', taken s' l' = true ↔ l' ≠ l ∧ taken s l' = true
  other : ∀ {c ch s r s'}, (∀ l, grip c ≠ .acquire l ∧ grip c ≠ .release l) →
    M.exec c ch s = some (r, s') → taken s' = taken s
  move : ∀ {e s s'}, M.move e s = some s' → taken s' = taken s
  launch : ∀ {s p s'}, M.launch s = some (p, s') → taken s' = taken s
  ready : ∀ c s, (∀ l, grip c = .acquire l → taken s l = false) →
    ∃ ch r s', M.exec c ch s = some (r, s')

/-- After finitely many steps of its own the thread comes to `Goal`, and nothing that goes on
beside it can keep it from any of them. -/
inductive Machine.Surely (M : Machine R A ε Ch E S) (Goal : Pool R A ε S → Prop) :
    Pool R A ε S → ℕ → Prop
  | now {w i} : Goal w → Surely M Goal w i
  | step {w i} : (∀ v j, M.Beside w i v j → ∃ ch w', M.step (.fire j ch) v = some w') →
      (∀ v j ch w', M.Beside w i v j → M.step (.fire j ch) v = some w' → Surely M Goal w' j) →
      Surely M Goal w i

section Steps

variable {M : Machine R A ε Ch E S} {w : Pool R A ε S} {i : ℕ} {p : P}

theorem Machine.step_act {ch : Ch} {c : C} {k : R c → Prog R A ε (A p)} {r : R c} {s : S}
    (hi : w.threads[i]? = some ⟨p, .act c k⟩) (hx : M.exec c ch w.state = some (r, s)) :
    M.step (.fire i ch) w = some { w with state := s, threads := w.threads.set i ⟨p, k r⟩ } := by
  simp [Machine.step, hi, hx]

theorem Machine.step_or_act [Nonempty Ch] {b : Prog R A ε (A p)} (hi : w.threads[i]? = some ⟨p, b⟩) :
    (∃ ch w', M.step (.fire i ch) w = some w') ∨ ∃ c k, b = .act c k := by
  obtain ⟨ch⟩ := ‹Nonempty Ch›
  cases b with
  | act c k => exact Or.inr ⟨c, k, rfl⟩
  | _ => exact Or.inl ⟨ch, _, by simp only [Machine.step, hi]; rfl⟩

end Steps

namespace Mutex

variable {M : Machine R A ε Ch E S} (U : Mutex M L)

/-- The lock that a program has after a command. -/
def after (q : Option L) (c : C) : Option L :=
  match U.grip c with
  | .acquire l => some l
  | .release _ => none
  | _ => q

/-- One lock at a time, and none where a procedure is called. -/
def discipline : Discipline R A ε (Option L) where
  allows q c :=
    match U.grip c with
    | .free => True
    | .acquire _ => q = none
    | .inside l | .release l => q = some l
  next q c _ q' := q' = U.after q c
  calls q _ := q = none
  back _ _ _ q' := q' = none

variable [DecidableEq L]

/-- What is taken is had by one of the threads. -/
def Tally (qs : List (Option L)) (s : S) : Prop := ∀ l, qs.count (some l) = (U.taken s l).toNat

/-- Thread by thread the lock that each has. -/
structure Held (w : Pool R A ε S) (qs : List (Option L)) : Prop where
  threads : w.Ledger U.discipline (fun _ _ q => q = none) (fun _ _ => True) qs
  count : U.Tally qs w.state

variable {U} {w : Pool R A ε S} {qs : List (Option L)} {q : Option L} {i j : ℕ} {l : L} {c : C}
  {t : Thread R A ε} {s : S}

theorem Tally.append (h : U.Tally qs s) : U.Tally (qs ++ [none]) s := by
  intro l
  rw [List.count_append, h l]
  simp

theorem Tally.of_taken {s' : S} (h : U.Tally qs s) (hs : U.taken s' = U.taken s) :
    U.Tally qs s' := by
  intro l
  rw [h l, hs]

theorem Tally.act (h : U.Tally qs s) (hi : qs[i]? = some q) (hallow : U.discipline.allows q c)
    {ch : Ch} {r : R c} {s' : S} (hx : M.exec c ch s = some (r, s')) :
    U.Tally (qs.set i (U.after q c)) s' := by
  intro l
  have hcount := count_set_add hi (U.after q c) (some l)
  rw [h l] at hcount
  simp only [discipline] at hallow
  unfold after at hcount ⊢
  split at hallow <;> rename_i hg <;> simp only [hg] at hcount ⊢
  · rw [U.other (fun l => by simp [hg]) hx]
    omega
  · -- the lock that is taken was free
    subst hallow
    obtain ⟨hfree, htaken⟩ := U.acquire hg hx
    rename_i l'
    by_cases hl : l' = l
    · subst hl
      rw [hfree] at hcount
      rw [(htaken l').2 (Or.inl rfl)]
      simpa using hcount
    · have heq : U.taken s' l = U.taken s l := by
        rw [Bool.eq_iff_iff, htaken]
        exact ⟨fun h => h.resolve_left (Ne.symm hl), Or.inr⟩
      rw [heq]
      simpa [hl] using hcount
  · rw [U.other (fun l => by simp [hg]) hx]
    omega
  · subst hallow
    have htaken := U.release hg hx
    rename_i l'
    by_cases hl : l' = l
    · subst hl
      have hone : U.taken s l' = true := by
        cases ht : U.taken s l' with
        | true => rfl
        | false => rw [ht] at hcount; simp at hcount
      have hfree : U.taken s' l' = false := by
        rw [Bool.eq_false_iff]
        exact fun ht => ((htaken l').1 ht).1 rfl
      rw [hone] at hcount
      rw [hfree]
      simpa using hcount
    · have heq : U.taken s' l = U.taken s l := by
        rw [Bool.eq_iff_iff, htaken]
        exact ⟨And.right, fun h => ⟨Ne.symm hl, h⟩⟩
      rw [heq]
      simpa [hl] using hcount

/-- The locks and their holders agree, whatever the threads do. -/
theorem accounts (hbody : U.discipline.Sound M.body) :
    M.Accounts U.discipline (fun _ _ q => q = none) (fun _ _ => True) (fun _ => True)
      U.Tally where
  sound := hbody
  start _ h := ⟨none, hbody none _ rfl, trivial, h.append⟩
  launch h hl := ⟨none, hbody none _ rfl, trivial, (h.of_taken (U.launch hl)).append⟩
  move h hm := h.of_taken (U.move hm)
  act h hi hallow hx := ⟨_, rfl, fun _ _ => trivial, h.act hi hallow hx⟩
  leave {qs s i q p o} h hi hq l := by
    subst hq
    have hcount := count_eraseIdx_add hi (some l)
    rw [h l] at hcount
    simpa using hcount

namespace Held

theorem taken (h : U.Held w qs) (hi : qs[i]? = some (some l)) : U.taken w.state l = true := by
  have hpos : 0 < qs.count (some l) := List.count_pos_iff.2 (List.mem_of_getElem? hi)
  rw [h.count] at hpos
  cases ht : U.taken w.state l with
  | true => rfl
  | false => rw [ht] at hpos; cases hpos

theorem holder (h : U.Held w qs) (ht : U.taken w.state l = true) : ∃ i : ℕ, qs[i]? = some (some l) := by
  have hpos : 0 < qs.count (some l) := by rw [h.count, ht]; exact Nat.one_pos
  exact List.mem_iff_getElem?.1 (List.count_pos_iff.1 hpos)

theorem unique (h : U.Held w qs) (hi : qs[i]? = some (some l)) (hj : qs[j]? = some (some l)) :
    i = j := by
  by_contra hij
  have hcount := count_eraseIdx_add hi (some l)
  rw [h.count, h.taken hi, if_pos (beq_self_eq_true _)] at hcount
  have hzero : (qs.eraseIdx i).count (some l) = 0 := Nat.succ.inj hcount
  refine List.count_eq_zero.1 hzero (List.mem_eraseIdx_iff_getElem?.2 ⟨j, Ne.symm hij, hj⟩)

theorem lock_of_needs (h : U.Held w qs) (hc : w.upcoming i = some c) (hl : (U.grip c).Needs l) :
    qs[i]? = some (some l) := by
  obtain ⟨p, k, hi⟩ := Pool.upcoming_eq_some.1 hc
  obtain ⟨q, hq, hkeeps, -⟩ := h.threads.entry hi
  have hallow : U.discipline.allows q c := hkeeps.1
  simp only [discipline] at hallow
  unfold Grip.Needs at hl
  split at hallow <;> rename_i hg <;> rw [hg] at hl
  · exact hl.elim
  · exact hl.elim
  · rw [hq, hallow, show _ = l from hl]
  · rw [hq, hallow, show _ = l from hl]

theorem beside (hbody : U.discipline.Sound M.body) (h : U.Held w qs) (hi : qs[i]? = some q)
    (ht : w.threads[i]? = some t) {v : Pool R A ε S} (hv : M.Beside w i v j) :
    ∃ qs', U.Held v qs' ∧ qs'[j]? = some q ∧ v.threads[j]? = some t := by
  obtain ⟨qs', hqs, hcount, hq, ht'⟩ := h.threads.beside (accounts hbody) (fun _ => trivial) h.count hi ht hv
  exact ⟨qs', ⟨hqs, hcount⟩, hq, ht'⟩

theorem issues (h : U.Held w qs) (hi : qs[i]? = some (some l)) (ht : w.threads[i]? = some t) :
    ∃ c k, t = ⟨t.proc, .act c k⟩ ∧ (∀ l', U.grip c ≠ .acquire l') ∧
      (U.grip c = .release l ∨ U.after (some l) c = some l) := by
  obtain ⟨p, b⟩ := t
  obtain ⟨q, hq, hkeeps, -⟩ := h.threads.entry ht
  obtain rfl : some l = q := Option.some.inj (hi.symm.trans hq)
  cases b with
  | ret a => cases (hkeeps : some l = none)
  | err e => cases (hkeeps : some l = none)
  | call p' k => cases (hkeeps.1 : some l = none)
  | act c k =>
    have hallow : U.discipline.allows (some l) c := hkeeps.1
    refine ⟨c, k, rfl, fun l' hg => ?_, ?_⟩
    · simp only [discipline, hg] at hallow
      cases hallow
    · simp only [discipline] at hallow
      unfold after
      split at hallow <;> rename_i hg <;> simp only [hg]
      · exact Or.inr trivial
      · cases hallow
      · exact Or.inr trivial
      · exact Or.inl (by rw [Option.some.inj hallow])

/-- The holder of a lock comes to give it back, whatever goes on beside it. -/
theorem surely_released (hbody : U.discipline.Sound M.body) (h : U.Held w qs)
    (hi : qs[i]? = some (some l)) : M.Surely (fun w' => U.taken w'.state l = false) w i := by
  obtain ⟨⟨p, b⟩, ht, -⟩ := h.threads.thread hi
  induction b generalizing w i qs with
  | act c k ih =>
    refine .step (fun v j hv => ?_) fun v j ch w' hv hs => ?_
    · obtain ⟨qs', hheld, hq, ht'⟩ := h.beside hbody hi ht hv
      obtain ⟨c', k', heq, hfree, -⟩ := hheld.issues hq ht'
      cases heq
      obtain ⟨ch, r, s, hx⟩ := U.ready c v.state fun l' hg => absurd hg (hfree l')
      exact ⟨ch, _, Machine.step_act ht' hx⟩
    · obtain ⟨qs', hheld, hq, ht'⟩ := h.beside hbody hi ht hv
      obtain ⟨c', k', heq, -, hnext⟩ := hheld.issues hq ht'
      cases heq
      obtain ⟨p', k', r, s, hi', hx, rfl⟩ :=
        (Machine.step_cases hs).of_upcoming (Pool.upcoming_eq_some.2 ⟨p, k, ht'⟩)
      cases ht'.symm.trans hi'
      rcases hnext with hg | hafter
      · refine .now ?_
        rw [Bool.eq_false_iff]
        exact fun htaken => ((U.release hg hx l).1 htaken).1 rfl
      · have hlt : j < v.threads.length := (List.getElem?_eq_some_iff.1 ht').1
        have hlt' : j < qs'.length := (List.getElem?_eq_some_iff.1 hq).1
        obtain ⟨q', hq', hkeeps, -⟩ := hheld.threads.entry ht'
        obtain rfl : some l = q' := Option.some.inj (hq.symm.trans hq')
        have hthreads := hheld.threads.goOn (hkeeps.2 r _ rfl) trivial s j
        have hcount : U.Tally _ s := hheld.count.act hq hkeeps.1 hx
        rw [hafter] at hthreads hcount
        exact ih r ⟨hthreads, hcount⟩ (by simp [hlt']) (by simp [hlt])
  | _ =>
    obtain ⟨c, k, heq, -⟩ := h.issues hi ht
    cases heq

/-- A thread can make a step, or it waits for a lock that another one has. -/
theorem moves_or_waits [Nonempty Ch] (h : U.Held w qs) (hi : w.threads[i]? = some t) :
    (∃ ch w', M.step (.fire i ch) w = some w') ∨
      ∃ c l j, w.upcoming i = some c ∧ U.grip c = .acquire l ∧ j ≠ i ∧ qs[j]? = some (some l) := by
  obtain ⟨p, b⟩ := t
  rcases Machine.step_or_act (M := M) hi with hs | ⟨c, k, rfl⟩
  · exact Or.inl hs
  · by_cases hwait : ∃ l, U.grip c = .acquire l ∧ U.taken w.state l = true
    · obtain ⟨l, hg, htaken⟩ := hwait
      obtain ⟨j, hj⟩ := h.holder htaken
      refine Or.inr ⟨c, l, j, Pool.upcoming_eq_some.2 ⟨p, k, hi⟩, hg, ?_, hj⟩
      rintro rfl
      obtain ⟨q, hq, hkeeps, -⟩ := h.threads.entry hi
      have hallow : U.discipline.allows q c := hkeeps.1
      simp only [discipline, hg] at hallow
      subst hallow
      cases hq.symm.trans hj
    · obtain ⟨ch, r, s, hx⟩ := U.ready c w.state fun l hg => by
        rw [Bool.eq_false_iff]
        exact fun htaken => hwait ⟨l, hg, htaken⟩
      exact Or.inl ⟨ch, _, Machine.step_act hi hx⟩

end Held

end Mutex

end Conc
