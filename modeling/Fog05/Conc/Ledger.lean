import Fog05.Conc.Pool
import Mathlib.Data.List.Perm.Basic

/-! Ledgers: thread by thread the state of a discipline that it is in. An invariant may tie all
of them together to the shared state; it holds in every run if every step keeps it, with the
entry of the thread that makes the step moved as the discipline says. -/

namespace Conc

variable {C P : Type} {R : C → Type} {A : P → Type} {ε Ch E S Q : Type}

/-- Where thread `i` is after a step of another one: a place further down, if an earlier one
is over. -/
def Label.place (lab : Label P Ch E) (w w' : Pool R A ε S) (i : ℕ) : ℕ :=
  match lab with
  | .fire j _ => if j < i ∧ w'.threads.length < w.threads.length then i - 1 else i
  | _ => i

/-- What may go on while thread `i` makes no step, and where the thread is then. -/
inductive Machine.Beside (M : Machine R A ε Ch E S) (w : Pool R A ε S) (i : ℕ) :
    Pool R A ε S → ℕ → Prop
  | refl : Beside M w i w i
  | snoc {v j lab w'} : Beside M w i v j → (∀ ch, lab ≠ .fire j ch) → M.step lab v = some w' →
      Beside M w i w' (lab.place v w' j)

/-- Thread by thread, what is left of it stays within the discipline from this state on, which
is one for its procedure. -/
def Pool.Ledger (D : Discipline R A ε Q) (Φ : (p : P) → Except ε (A p) → Q → Prop)
    (K : P → Q → Prop) (w : Pool R A ε S) (qs : List Q) : Prop :=
  List.Forall₂ (fun (t : Thread R A ε) q => t.prog.Follows D (Φ t.proc) q ∧ K t.proc q)
    w.threads qs

/-- Every step keeps the invariant: threads come with an entry, move it, and go. From outside
only those in `O` are started. -/
structure Machine.Accounts (M : Machine R A ε Ch E S) (D : Discipline R A ε Q)
    (Φ : (p : P) → Except ε (A p) → Q → Prop) (K : P → Q → Prop) (O : P → Prop)
    (J : List Q → S → Prop) : Prop where
  sound : D.Sound M.body
  start : ∀ {qs s p}, O p → J qs s → ∃ q, (M.body p).Follows D (Φ p) q ∧ K p q ∧ J (qs ++ [q]) s
  launch : ∀ {qs s p s'}, J qs s → M.launch s = some (p, s') →
    ∃ q, (M.body p).Follows D (Φ p) q ∧ K p q ∧ J (qs ++ [q]) s'
  move : ∀ {qs s e s'}, J qs s → M.move e s = some s' → J qs s'
  act : ∀ {qs s i q c ch r s'}, J qs s → qs[i]? = some q → D.allows q c →
    M.exec c ch s = some (r, s') →
    ∃ q', D.next q c r q' ∧ (∀ p, K p q → K p q') ∧ J (qs.set i q') s'
  leave : ∀ {qs s i q p o}, J qs s → qs[i]? = some q → Φ p o q → J (qs.eraseIdx i) s

section Lists

variable {τ σ : Type} {r : τ → σ → Prop} {ts : List τ} {us : List σ}

theorem forall₂_set (h : List.Forall₂ r ts us) {a : τ} {b : σ} (hab : r a b) (i : ℕ) :
    List.Forall₂ r (ts.set i a) (us.set i b) := by
  induction h generalizing i with
  | nil => exact .nil
  | cons h₁ h₂ ih =>
    cases i with
    | zero => exact .cons hab h₂
    | succ i => exact .cons h₁ (ih i)

theorem forall₂_eraseIdx (h : List.Forall₂ r ts us) (i : ℕ) :
    List.Forall₂ r (ts.eraseIdx i) (us.eraseIdx i) := by
  induction h generalizing i with
  | nil => exact .nil
  | cons h₁ h₂ ih =>
    cases i with
    | zero => exact h₂
    | succ i => exact .cons h₁ (ih i)

theorem forall₂_getElem? (h : List.Forall₂ r ts us) {i : ℕ} {a : τ} (ha : ts[i]? = some a) :
    ∃ b, us[i]? = some b ∧ r a b := by
  induction h generalizing i with
  | nil => cases ha
  | cons h₁ _ ih =>
    cases i with
    | zero => cases ha; exact ⟨_, rfl, h₁⟩
    | succ i => exact ih ha

theorem set_of_getElem? {i : ℕ} {a : τ} (h : ts[i]? = some a) : ts.set i a = ts := by
  obtain ⟨hi, rfl⟩ := List.getElem?_eq_some_iff.1 h
  exact List.set_getElem_self hi

theorem forall_mem_set {P : τ → Prop} (h : ∀ x ∈ ts, P x) {a : τ} (ha : P a) (i : ℕ) :
    ∀ x ∈ ts.set i a, P x := fun x hx =>
  (List.mem_or_eq_of_mem_set hx).elim (h x) fun hxa => hxa ▸ ha

theorem forall_mem_concat {P : τ → Prop} (h : ∀ x ∈ ts, P x) {a : τ} (ha : P a) :
    ∀ x ∈ ts ++ [a], P x :=
  List.forall_mem_append.2 ⟨h, List.forall_mem_singleton.2 ha⟩

variable [BEq τ] {a : τ} {i : ℕ}

theorem count_eraseIdx_add (hi : ts[i]? = some a) (x : τ) :
    (ts.eraseIdx i).count x + (if a == x then 1 else 0) = ts.count x := by
  obtain ⟨hlt, rfl⟩ := List.getElem?_eq_some_iff.1 hi
  rw [← (List.getElem_cons_eraseIdx_perm hlt).count_eq x, List.count_cons]

theorem count_set_add (hi : ts[i]? = some a) (b x : τ) :
    (ts.set i b).count x + (if a == x then 1 else 0) = ts.count x + (if b == x then 1 else 0) := by
  have hlt := (List.getElem?_eq_some_iff.1 hi).1
  rw [(List.set_perm_cons_eraseIdx hlt b).count_eq x, List.count_cons, ← count_eraseIdx_add hi x]
  omega

theorem count_map_set {us : List σ} {b : σ} {i : ℕ} (g : σ → τ) (hi : us[i]? = some b) (c : σ)
    (x : τ) : ((us.set i c).map g).count x + (if g b == x then 1 else 0) =
      (us.map g).count x + (if g c == x then 1 else 0) := by
  rw [List.map_set]
  exact count_set_add (by simp [hi]) _ _

theorem count_map_eraseIdx {us : List σ} {b : σ} {i : ℕ} (g : σ → τ) (hi : us[i]? = some b) (x : τ) :
    ((us.eraseIdx i).map g).count x + (if g b == x then 1 else 0) = (us.map g).count x := by
  rw [← List.eraseIdx_map]
  exact count_eraseIdx_add (by simp [hi]) _

end Lists

namespace Pool.Ledger

variable {M : Machine R A ε Ch E S} {D : Discipline R A ε Q}
  {Φ : (p : P) → Except ε (A p) → Q → Prop} {K : P → Q → Prop} {O : P → Prop}
  {J : List Q → S → Prop} {w w' : Pool R A ε S} {qs : List Q} {i j : ℕ} {q : Q} {t : Thread R A ε}

theorem entry (h : w.Ledger D Φ K qs) (hi : w.threads[i]? = some t) :
    ∃ q, qs[i]? = some q ∧ t.prog.Follows D (Φ t.proc) q ∧ K t.proc q :=
  forall₂_getElem? h hi

theorem thread (h : w.Ledger D Φ K qs) (hi : qs[i]? = some q) :
    ∃ t, w.threads[i]? = some t ∧ t.prog.Follows D (Φ t.proc) q ∧ K t.proc q :=
  forall₂_getElem? (List.Forall₂.flip h) hi

theorem add (h : w.Ledger D Φ K qs) {p : P} {b : Prog R A ε (A p)} (hb : b.Follows D (Φ p) q)
    (hK : K p q) (s : S) :
    Pool.Ledger D Φ K { w with state := s, threads := w.threads ++ [⟨p, b⟩] } (qs ++ [q]) :=
  List.rel_append h (.cons ⟨hb, hK⟩ .nil)

theorem goOn (h : w.Ledger D Φ K qs) {p : P} {b : Prog R A ε (A p)} (hb : b.Follows D (Φ p) q)
    (hK : K p q) (s : S) (i : ℕ) :
    Pool.Ledger D Φ K { w with state := s, threads := w.threads.set i ⟨p, b⟩ } (qs.set i q) :=
  forall₂_set h (show _ ∧ _ from ⟨hb, hK⟩) i

theorem step (hM : M.Accounts D Φ K O J) {lab : Label P Ch E} (hO : ∀ p, lab = .start p → O p)
    (h : w.Ledger D Φ K qs) (hJ : J qs w.state) (hs : M.Step lab w w') :
    ∃ qs', w'.Ledger D Φ K qs' ∧ J qs' w'.state ∧ ∀ j, (∀ ch, lab ≠ .fire j ch) →
      j < w.threads.length → qs'[lab.place w w' j]? = qs[j]? ∧
        w'.threads[lab.place w w' j]? = w.threads[j]? := by
  have hlen : w.threads.length = qs.length := h.length_eq
  have hold : ∀ (t : Thread R A ε) (q : Q), ∀ j < w.threads.length,
      (qs ++ [q])[j]? = qs[j]? ∧ (w.threads ++ [t])[j]? = w.threads[j]? := fun t q j hj =>
    ⟨List.getElem?_append_left (hlen ▸ hj), List.getElem?_append_left hj⟩
  cases hs with
  | start =>
    obtain ⟨q, hq, hK, hJ'⟩ := hM.start (hO _ rfl) hJ
    exact ⟨_, h.add hq hK _, hJ', fun j _ hj => hold _ _ j hj⟩
  | launch hl =>
    obtain ⟨q, hq, hK, hJ'⟩ := hM.launch hJ hl
    exact ⟨_, h.add hq hK _, hJ', fun j _ hj => hold _ _ j hj⟩
  | env hm => exact ⟨qs, h, hM.move hJ hm, fun _ _ _ => ⟨rfl, rfl⟩⟩
  | @act _ i ch p c k r s hi hx =>
    obtain ⟨q, hq, hfollows, hK⟩ := h.entry hi
    obtain ⟨q', hn, hkeep, hJ'⟩ := hM.act hJ hq hfollows.1 hx
    refine ⟨_, h.goOn (hfollows.2 r q' hn) (hkeep p hK) s i, hJ', fun j hj _ => ?_⟩
    have hij : i ≠ j := fun hij => hj ch (hij ▸ rfl)
    simp [Label.place, List.getElem?_set_ne hij]
  | @call _ i ch p p' k hi =>
    obtain ⟨q, hq, hfollows, hK⟩ := h.entry hi
    have hgo := h.goOn (hfollows.enter hM.sound) hK w.state i
    rw [set_of_getElem? hq] at hgo
    refine ⟨qs, hgo, hJ, fun j hj _ => ?_⟩
    have hij : i ≠ j := fun hij => hj ch (hij ▸ rfl)
    simp [Label.place, List.getElem?_set_ne hij]
  | @done _ i ch p o hi =>
    obtain ⟨q, hq, hfollows, -⟩ := h.entry hi
    have hlt : i < w.threads.length := (List.getElem?_eq_some_iff.1 hi).1
    refine ⟨_, forall₂_eraseIdx h i, hM.leave hJ hq ((Prog.follows_final _ q).1 hfollows),
      fun j hj hj' => ?_⟩
    have hij : i ≠ j := fun hij => hj ch (hij ▸ rfl)
    have hfewer : (w.threads.eraseIdx i).length < w.threads.length := by
      rw [List.length_eraseIdx_of_lt hlt]
      omega
    simp only [Label.place, hfewer, and_true, List.getElem?_eraseIdx]
    by_cases hlt : i < j
    · have hback : j - 1 + 1 = j := by omega
      have hnot : ¬ j - 1 < i := by omega
      simp [hlt, hback, hnot]
    · have hlt' : j < i := by omega
      simp [hlt, hlt']

theorem beside (hM : M.Accounts D Φ K O J) (hO : ∀ p, O p) (h : w.Ledger D Φ K qs)
    (hJ : J qs w.state) (hi : qs[i]? = some q) (ht : w.threads[i]? = some t) (hw : M.Beside w i w' j) :
    ∃ qs', w'.Ledger D Φ K qs' ∧ J qs' w'.state ∧ qs'[j]? = some q ∧ w'.threads[j]? = some t := by
  induction hw with
  | refl => exact ⟨qs, h, hJ, hi, ht⟩
  | snoc _ hne hs ih =>
    obtain ⟨qs', hqs, hJ', hq, ht'⟩ := ih
    obtain ⟨qs'', hqs', hJ'', hkeep⟩ := hqs.step hM (fun p _ => hO p) hJ' (Machine.step_cases hs)
    obtain ⟨hq', ht''⟩ := hkeep _ hne (List.getElem?_eq_some_iff.1 ht').1
    exact ⟨qs'', hqs', hJ'', hq'.trans hq, ht''.trans ht'⟩

/-- In every run there are entries as the invariant says. -/
theorem of_reach {G : Label P Ch E → Pool R A ε S → Prop} (hM : M.Accounts D Φ K O J)
    (hO : ∀ p w, G (.start p) w → O p) {s : S} (hJ : J [] s) (hreach : M.Reach G (Pool.idle s) w) :
    ∃ qs, w.Ledger D Φ K qs ∧ J qs w.state := by
  induction hreach with
  | refl => exact ⟨[], .nil, hJ⟩
  | @snoc v _ _ _ hg hs ih =>
    obtain ⟨qs, hqs, hJ'⟩ := ih
    obtain ⟨qs', hqs', hJ'', -⟩ :=
      hqs.step hM (fun p hp => hO p v (hp ▸ hg)) hJ' (Machine.step_cases hs)
    exact ⟨qs', hqs', hJ''⟩

end Pool.Ledger

end Conc
