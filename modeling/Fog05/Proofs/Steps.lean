import Fog05.Model.System
import Mathlib.Data.Fintype.EquivFin

/-! Triples for single commands. The monitoring tasks may move between any two
commands, so a rule speaks of all states that a stable assertion allows; a still
state, in which no change is on its way to a monitoring task, is stable by itself. -/

namespace Fog05

open Conc M Relation

/-- Choices that leave every command its normal course. -/
class Fair (ok : Choice → Prop) : Prop where
  go : ok .go
  uuid : ∀ u, ok (.uuid u)
  net : ∀ x, ok (.net (.ok x))
  pick : ∀ i, ok (.pick i)
  path : ∀ b, ok (.path b)

instance : Fair Reliable :=
  ⟨trivial, fun _ => trivial, fun _ => trivial, fun _ => trivial, fun _ => trivial⟩

instance : Fair Healthy :=
  ⟨trivial, fun _ => trivial, fun _ => trivial, fun _ => trivial, fun _ => trivial⟩

instance : Fair Unreliable :=
  ⟨trivial, fun _ => trivial, fun _ => trivial, fun _ => trivial, fun _ => trivial⟩

/-- Among the choices is the failure of an access or of a remote call. -/
def Faulty (ok : Choice → Prop) : Prop := ∃ e, ok (.fault e)

theorem not_faulty_reliable : ¬ Faulty Reliable := fun ⟨_, h⟩ => h

theorem not_faulty_healthy : ¬ Faulty Healthy := fun ⟨_, h⟩ => h

/-- `Φ`, or a failure has come out as an error. -/
def Excused {α : Type} (ok : Choice → Prop) (Φ : Except Exn α → Fos → Prop)
    (o : Except Exn α) (s : Fos) : Prop :=
  Φ o s ∨ Faulty ok ∧ ∃ e, o = .error e

/-- Triples of runs next to the monitoring tasks only. Where accesses may fail
they bind the runs that succeed. -/
def Ensures {α : Type} (z : Session) (ok : Choice → Prop) (t : Prop) (p : M α) (s : Fos)
    (Φ : Except Exn α → Fos → Prop) : Prop :=
  (system z ok).Ensures t p s (Excused ok Φ)

/-- An assertion that no round of a monitoring task breaks. -/
def Stable (P : Fos → Prop) : Prop :=
  ∀ s n st, P s → s.toStore.monitor n = some st → P { s with toStore := st }

theorem Stable.and {P : Prop} {Q : Fos → Prop} (hQ : Stable Q) : Stable fun s => P ∧ Q s :=
  fun s n st h hm => ⟨h.1, hQ s n st h.2 hm⟩

theorem Stable.or {P Q : Fos → Prop} (hP : Stable P) (hQ : Stable Q) :
    Stable fun s => P s ∨ Q s :=
  fun s n st h hm => h.imp (fun h => hP s n st h hm) fun h => hQ s n st h hm

theorem Stable.exists {ι : Sort*} {P : ι → Fos → Prop} (hP : ∀ i, Stable (P i)) :
    Stable fun s => ∃ i, P i s :=
  fun s n st ⟨i, h⟩ hm => ⟨i, hP i s n st h hm⟩

def Store.Still (st : Store) : Prop := ∀ n, (st.node n).changes = []

theorem Store.Still.monitor {st : Store} (h : st.Still) (n : Uuid) : st.monitor n = none := by
  simp [Store.monitor, h n]

theorem Store.Still.stable {s : Fos} (h : s.Still) : Stable (· = s) := by
  rintro _ n st rfl hm
  simp [h.monitor n] at hm

variable {z : Session} {ok : Choice → Prop} {t : Prop} {α β : Type} {s : Fos} {P : Fos → Prop}

theorem Stable.env (hP : Stable P) {s₁ : Fos} (hs : P s)
    (h : ReflTransGen (system z ok).env s s₁) : P s₁ := by
  induction h with
  | refl => exact hs
  | tail _ he ih =>
    obtain ⟨n, hn⟩ := he
    obtain ⟨st, hst, rfl⟩ := Option.map_eq_some_iff.1 hn
    exact hP _ n st ih hst

theorem Ensures.mono {p : M α} {Ψ Φ : Except Exn α → Fos → Prop} (h : Ensures z ok t p s Ψ)
    (hΨ : ∀ o s', Ψ o s' → Φ o s') : Ensures z ok t p s Φ :=
  System.Ensures.mono h fun o s' ho => ho.imp_left (hΨ o s')

/-- Where no access fails, an error is bound as well. -/
theorem Ensures.bound {p : M α} {Φ : Except Exn α → Fos → Prop} (hok : ¬ Faulty ok)
    (h : Ensures z ok t p s Φ) : (system z ok).Ensures t p s Φ :=
  System.Ensures.mono h fun _ _ ho => ho.resolve_right fun hf => hok hf.1

theorem Ensures.of_ok {p : M α} {Φ : Except Exn α → Fos → Prop} {n : ℕ} {s' : Fos} {x : α}
    (h : Ensures z ok t p s Φ) (hrun : (system z ok).Runs n s p s' (.final (.ok x))) :
    Φ (.ok x) s' :=
  (h.1 n s' _ hrun).resolve_right fun ⟨_, _, he⟩ => by cases he

variable {Φ : Except Exn β → Fos → Prop}

/-- What can only end in an error is excused where accesses may fail. -/
theorem Ensures.excused {p : M β} (h : Ensures z ok t p s fun o _ => ∃ e, o = .error e)
    (hf : Faulty ok) : Ensures z ok t p s Φ :=
  System.Ensures.mono h fun _ _ ho => Or.inr ⟨hf, ho.elim id And.right⟩

theorem ensures_final {o : Except Exn β} (h : Φ o s) : Ensures z ok t (.final o) s Φ :=
  System.ensures_final (Or.inl h)

theorem ensures_pure {b : β} (h : Φ (.ok b) s) : Ensures z ok t (pure b) s Φ :=
  ensures_final h

theorem ensures_err {e : Exn} (h : Φ (.error e) s) : Ensures z ok t (.err e) s Φ :=
  ensures_final (o := .error e) h

theorem ensures_fail {e : FError} (h : Φ (.error (.err e)) s) : Ensures z ok t (fail e) s Φ :=
  ensures_err h

theorem ensures_excused (hf : Faulty ok) {e : Exn} : Ensures z ok t (.err e) s Φ :=
  System.ensures_err (Or.inr ⟨hf, e, rfl⟩)

theorem ensures_bindE {p : M α} {k : Except Exn α → M β} {Ψ : Except Exn α → Fos → Prop}
    (h : Ensures z ok t p s Ψ) (hk : ∀ o s', Ψ o s' → Ensures z ok t (k o) s' Φ)
    (hfault : Faulty ok → ∀ e s', Ensures z ok t (k (.error e)) s' Φ) :
    Ensures z ok t (p.bindE k) s Φ := by
  apply System.ensures_bindE h
  intro o s' ho
  rcases ho with ho | ⟨hf, e, rfl⟩
  · exact hk o s' ho
  · exact hfault hf e s'

theorem ensures_bind {p : M α} {f : α → M β} {Ψ : Except Exn α → Fos → Prop}
    (h : Ensures z ok t p s Ψ) (hok : ∀ a s', Ψ (.ok a) s' → Ensures z ok t (f a) s' Φ)
    (herr : ∀ e s', Ψ (.error e) s' → Φ (.error e) s') : Ensures z ok t (p >>= f) s Φ := by
  refine ensures_bindE h (fun o s' ho => ?_) fun hf e s' => ensures_excused hf
  cases o with
  | ok a => exact hok a s' ho
  | error e => exact ensures_err (herr e s' ho)

theorem ensures_cmd (hP : Stable P) (hs : P s) {c : Cmd} {k : c.Ans → M β}
    (htotal : ∀ s, P s → ∃ ch r s', ok ch ∧ exec c ch s = some (r, s'))
    (h : ∀ s ch r s', P s → ok ch → exec c ch s = some (r, s') → Ensures z ok t (k r) s' Φ) :
    Ensures z ok t (.act c k) s Φ := by
  apply System.ensures_act
  intro s₁ hs₁
  have hP₁ := hP.env hs hs₁
  refine ⟨fun _ => ?_, fun r s' ha => ?_⟩
  · obtain ⟨ch, r, s', hch, hx⟩ := htotal s₁ hP₁
    exact ⟨r, s', ch, hch, hx⟩
  · obtain ⟨ch, hch, hx⟩ := ha
    exact h s₁ ch r s' hP₁ hch hx

theorem ensures_issue (hP : Stable P) (hs : P s) {c : Cmd} {f : c.Ans → M β}
    (htotal : ∀ s, P s → ∃ ch r s', ok ch ∧ exec c ch s = some (r, s'))
    (h : ∀ s ch r s', P s → ok ch → exec c ch s = some (r, s') → Ensures z ok t (f r) s' Φ) :
    Ensures z ok t (issue c >>= f) s Φ :=
  ensures_cmd hP hs htotal h

variable [Fair ok]

theorem ensures_ask (hP : Stable P) (hs : P s) {a : Access} {k : Except Exn a.Ret → M β}
    (h : ∀ s, P s → Ensures z ok t (k ((a.run s).1.mapError .err)) (a.run s).2 Φ)
    (hfault : Faulty ok → ∀ e s', P s' → Ensures z ok t (k (.error e)) s' Φ) :
    Ensures z ok t ((ask a).bindE k) s Φ := by
  apply ensures_cmd hP hs (fun s _ => ⟨.go, _, _, Fair.go, rfl⟩)
  intro s ch r s' hs' hch hx
  obtain ⟨-, hr⟩ | ⟨e, rfl, rfl, rfl⟩ := exec_access hx
  · simpa [hr] using h s hs'
  · exact hfault ⟨e, hch⟩ (.err e) _ hs'

theorem ensures_ask_final (hP : Stable P) (hs : P s) {a : Access} {Φ : Except Exn a.Ret → Fos → Prop}
    (h : ∀ s, P s → Φ ((a.run s).1.mapError .err) (a.run s).2) : Ensures z ok t (ask a) s Φ := by
  rw [← Prog.bindE_final_right (ask a)]
  exact ensures_ask hP hs (fun s hs => ensures_final (h s hs)) fun hf e _ _ => ensures_excused hf

theorem ensures_callNet_stable (hP : Stable P) (hs : P s) {n : Uuid} {q : NetRequest}
    {f : NetObject → M β} (hok : ∀ x s, P s → Ensures z ok t (f x) s Φ)
    (herr : ∀ e s, P s → ok (.net (.error e)) → Φ (.error (.err e)) s) :
    Ensures z ok t (callNet n q >>= f) s Φ := by
  apply ensures_cmd hP hs (fun s _ => ⟨_, _, _, Fair.net ⟨0, none⟩, rfl⟩)
  intro s₁ ch r s' h₁ hch hx
  obtain ⟨rfl, rfl⟩ := exec_net hx
  cases r with
  | ok x => exact hok x _ h₁
  | error e => exact ensures_err (herr e _ h₁ hch)

/-! In a still state. -/

theorem ensures_ask_bind (hs : s.Still) {a : Access} {f : a.Ret → M β}
    (hok : ∀ x, (a.run s).1 = .ok x → Ensures z ok t (f x) (a.run s).2 Φ)
    (herr : ∀ e, (a.run s).1 = .error e → Φ (.error (.err e)) (a.run s).2) :
    Ensures z ok t (ask a >>= f) s Φ := by
  refine ensures_ask hs.stable rfl ?_ fun hf e s' _ => ensures_excused hf
  rintro _ rfl
  cases hr : (a.run _).1 with
  | ok x => exact hok x hr
  | error e => exact ensures_err (herr e hr)

theorem ensures_hypervisor (hs : s.Still) {n : Uuid} {name : String} {f : Option Uuid → M β}
    (h : Ensures z ok t (f ((s.node n).hypervisors name)) s Φ) :
    Ensures z ok t (issue (.hypervisor n name) >>= f) s Φ := by
  apply ensures_issue hs.stable rfl (fun s _ => ⟨.go, _, _, Fair.go, rfl⟩)
  rintro _ ch r s' rfl - hx
  obtain ⟨rfl, rfl⟩ := exec_hypervisor hx
  exact h

theorem ensures_newUuid (hs : s.Still) {f : Uuid → M β}
    (h : ∀ u, u ∉ s.issued → Ensures z ok t (f u) { s with issued := u :: s.issued } Φ) :
    Ensures z ok t (issue .newUuid >>= f) s Φ := by
  refine ensures_issue hs.stable rfl (fun s _ => ?_) ?_
  · obtain ⟨u, hu⟩ := Infinite.exists_notMem_finset s.issued.toFinset
    have hnew : u ∉ s.issued := fun h => hu (List.mem_toFinset.2 h)
    exact ⟨.uuid u, u, _, Fair.uuid u, if_neg hnew⟩
  · rintro _ ch r s' rfl - hx
    obtain ⟨hr, rfl⟩ := exec_newUuid hx
    exact h r hr

theorem ensures_callNet (hs : s.Still) {n : Uuid} {q : NetRequest} {f : NetObject → M β}
    (hok : ∀ x, Ensures z ok t (f x) s Φ)
    (herr : ∀ e, ok (.net (.error e)) → Φ (.error (.err e)) s) :
    Ensures z ok t (callNet n q >>= f) s Φ :=
  ensures_callNet_stable hs.stable rfl (fun x _ h => h ▸ hok x) fun e _ h => h ▸ herr e

theorem ensures_choose (hs : s.Still) {l : List Uuid} {f : Option Uuid → M β}
    (hnone : l = [] → Ensures z ok t (f none) s Φ)
    (hsome : ∀ u ∈ l, Ensures z ok t (f (some u)) s Φ) :
    Ensures z ok t (issue (.choose l) >>= f) s Φ := by
  refine ensures_issue hs.stable rfl (fun s _ => ?_) ?_
  · cases l with
    | nil => exact ⟨.go, _, _, Fair.go, rfl⟩
    | cons u l => exact ⟨.pick 0, _, _, Fair.pick 0, rfl⟩
  · rintro _ ch r s' rfl - hx
    obtain ⟨rfl, ⟨hl, rfl⟩ | ⟨u, hu, rfl⟩⟩ := exec_choose hx
    · exact hnone hl
    · exact hsome u hu

end Fog05
