import Fog05.Model.Client
import Fog05.Proofs.Remote
import Fog05.Proofs.Trail

/-! Taking down an instance through the agent of its node, wherever its trail is when
the client calls: nothing has to be settled, as every call waits for its own change. -/

namespace Fog05

open Conc M Relation

/-- Instance `r` has been seen in the global store, its copy on node `n` is the last
of its trail, and no plugin's lock is taken, that of `held` apart. -/
structure Poised (R : FDURecord → FDURecord → Prop) (n : Uuid) (r : FDURecord)
    (held : Option Uuid) (s : Fos) : Prop where
  trail : Trail R n r s.toStore
  copy : (s.node n).getInstance r.uuid = .ok r
  seen : ∃ i ∈ s.global.instances, i.uuid = r.uuid
  locks : ∀ p, (s.plugin p).locked = decide (held = some p)

variable {z : Session} {ok : Choice → Prop} [Fair ok] {t : Prop} {s s' : Fos} {n u svc p : Uuid}
variable {R R' : FDURecord → FDURecord → Prop} {r r' : FDURecord} {held : Option Uuid}

namespace Poised

theorem stable : Stable (Poised R n r held) := by
  intro s m st h hm
  refine ⟨h.trail.monitor hm, ?_, seen_monitor hm h.seen, h.locks⟩
  rw [Node.getInstance, (monitor_moves hm).copies]
  exact h.copy

theorem replies (h : Poised R n r held s) (l : List ((q : Rpc) × Except FError q.Ret)) :
    Poised R n r held { s with replies := l } :=
  ⟨h.trail, h.copy, h.seen, h.locks⟩

theorem lock (h : Poised R n r none s) : Poised R n r (some p) (s.setLock p true) :=
  ⟨h.trail, h.copy, h.seen, Fos.setLock_held h.locks rfl⟩

theorem unlock (h : Poised R n r (some p) s) : Poised R n r none (s.setLock p false) :=
  ⟨h.trail, h.copy, h.seen, Fos.setLock_free h.locks rfl⟩

theorem setFdus (h : Poised R n r held s) (l : Table FDURecord.uuid) :
    Poised R n r held (s.setFdus p l) :=
  ⟨h.trail, h.copy, h.seen, fun p' => by rw [Fos.setFdus_locked, h.locks]⟩

theorem getInstance (h : Poised R n r held s) : ∃ i l, s.global.getInstance r.uuid = .ok i ∧
    s.trail n r.uuid = i :: l := by
  obtain ⟨i, hi, ht⟩ := getInstance_trail (n := n) (fun i hi hu => h.trail.stored hi hu) h.seen
  exact ⟨i, _, hi, ht⟩

end Poised

/-- The polling loop ends when its status comes up on the trail, which orders what is
on it after that. -/
theorem ensures_poll_poised {awaited : FDUState} (h : Poised R n r none s) (hst : r.status = awaited)
    (hR : ∀ i l, (i :: l).Pairwise R → (i :: l).getLast? = some r → i.status = awaited →
      (i :: l).Pairwise R') :
    Ensures z ok t (Prog.invoke (Proc.poll r.uuid awaited)) s fun o s' =>
      ∃ i, o = .ok i ∧ i.uuid = r.uuid ∧ Poised R' n r none s' := by
  refine System.ensures_retry (Poised R n r none) rfl ?_ ?_ ?_ h
  · rintro s₁ s₂ h₁ ⟨m, hm⟩
    obtain ⟨st, hst, rfl⟩ := Option.map_eq_some_iff.1 hm
    exact Poised.stable s₁ m st h₁ hst
  · rintro s₁ x s₂ h₁ ⟨ch, hch, hx⟩
    obtain ⟨-, hr⟩ | ⟨e, rfl, rfl, rfl⟩ := exec_access hx
    · obtain ⟨i, l, hi, hl⟩ := h₁.getInstance
      cases hr
      rw [hi]
      obtain ⟨hpath, -, herr⟩ := h₁.trail.same i (hl ▸ List.mem_cons_self)
      by_cases ha : i.status = awaited
      · refine Or.inl ⟨.ok i, by simp [settle, ha], Or.inl ⟨i, rfl, congrArg Prod.snd hpath, ?_⟩⟩
        refine ⟨{ h₁.trail with ordered := ?_ }, h₁.copy, h₁.seen, h₁.locks⟩
        have hord := h₁.trail.ordered
        have hlast := h₁.trail.last
        rw [hl] at hord hlast ⊢
        exact hR i l hord hlast ha
      · exact Or.inr ⟨settle_of_ne ha herr, h₁⟩
    · -- a failure that reads as "not found" is another round
      cases hf : settle awaited (.error e) with
      | none => exact Or.inr ⟨rfl, h₁⟩
      | some o =>
        obtain ⟨e', rfl⟩ := settle_error hf
        exact Or.inl ⟨_, rfl, Or.inr ⟨⟨e, hch⟩, e', rfl⟩⟩
  · -- once the channel is empty, the trail is the last record only
    intro _ s₁ h₁
    obtain ⟨s₂, henv, hnil⟩ : ∃ s₂, ReflTransGen (system z ok).env s₁ s₂ ∧
        (s₂.node n).changes = [] := exists_drained s₁ n
    have h₂ := Poised.stable.env h₁ henv
    obtain ⟨i, hi, ht⟩ := getInstance_trail (n := n) (fun i hi hu => h₂.trail.stored hi hu) h₂.seen
    have hlast := h₂.trail.last
    rw [ht, hnil] at hlast
    obtain rfl : i = r := by simpa using hlast
    exact ⟨s₂, _, s₂, .ok i, henv, ⟨.go, Fair.go, rfl⟩, by rw [hi]; simp [settle, hst]⟩

section Plugin

variable {K : Option Uuid → Fos → Prop} {expected : FDUState}

theorem ensures_transition_poised {work : FDURecord → M Unit} (h : Poised R n r none s)
    (hst : r.status = expected)
    (hK : ∀ held, Stable (K held)) (hunlock : ∀ s, K (some p) s → K none (s.setLock p false))
    (hwork : ∀ s, Poised R n r (some p) s →
      Ensures z ok t (work r) s fun o s' => o = .ok () ∧ K (some p) s') :
    Ensures z ok t (DummyHypervisor.transition z n p expected r.uuid work) s
      fun o s' => o = .ok r.uuid ∧ K none s' := by
  refine ensures_bind (Ψ := fun o s' => o = .ok n ∧ Poised R n r none s') ?_ ?_
    fun _ _ h => by cases h.1
  · refine ensures_remote_stable Poised.stable h
      (Ψ := fun o s' => o = .ok n ∧ Poised R n r none s') (fun s h => ensures_pure ⟨rfl, h⟩)
      (fun _ => Poised.stable.and) ?_
    rintro _ s' l ⟨rfl, h⟩
    exact ⟨rfl, h.replies l⟩
  rintro _ s₁ ⟨-, h₁⟩
  refine ensures_ask Poised.stable h₁ (fun s₂ h₂ => ?_) fun hf _ _ _ => ensures_excused hf
  simp only [Access.run, h₂.copy, Except.mapError, Prog.onOk_ok, hst, if_true]
  refine ensures_issue Poised.stable h₂ (fun s₃ h₃ => ?_) fun s₃ ch x s' h₃ _ hx => ?_
  · exact ⟨.go, (), _, Fair.go, if_neg (by simp [h₃.locks])⟩
  obtain ⟨-, rfl⟩ := exec_lock hx
  rw [Prog.attempt_bind]
  refine ensures_bindE (Ψ := fun o s' => o = .ok r.uuid ∧ K (some p) s') ?_ ?_ ?_
  · exact ensures_bind (hwork _ h₃.lock) (fun _ s' h => ensures_pure ⟨rfl, h.2⟩)
      fun _ _ h => by cases h.1
  · rintro _ s₄ ⟨rfl, h₄⟩
    apply ensures_issue (hK _) h₄ (fun s' _ => ⟨.go, _, _, Fair.go, rfl⟩)
    intro s₅ ch x s' h₅ _ hx
    rw [exec_unlock hx]
    exact ensures_pure ⟨rfl, hunlock s₅ h₅⟩
  · exact fun hf e s₄ => ensures_issue (P := fun _ => True) (fun _ _ _ _ _ => trivial) trivial
      (fun s' _ => ⟨.go, _, _, Fair.go, rfl⟩) fun _ _ _ _ _ _ _ => ensures_excused hf

theorem ensures_store_poised (h : Poised R n r held s) (hpath : r'.path = r.path)
    (hnode : r'.node = r.node) (hlegal : ∀ e, r'.status ≠ .error e)
    (hR : ∀ s, Poised R n r held s → ∀ i ∈ s.trail n r.uuid, R i r') :
    Ensures z ok t (DummyHypervisor.store n p r') s
      fun o s' => o = .ok () ∧ Poised R n r' held s' := by
  have hu : r'.uuid = r.uuid := congrArg Prod.snd hpath
  refine ensures_ask Poised.stable h (fun s₁ h₁ => ?_) fun hf _ _ _ => ensures_excused hf
  have hnext : Poised R n r' held { s₁ with toStore := s₁.toStore.localPut n r' } := by
    refine ⟨h₁.trail.localPut hpath hnode hlegal (hR s₁ h₁), ?_, hu ▸ h₁.seen, h₁.locks⟩
    simp only [Store.localPut, Store.setNode, Function.update_self, Node.getInstance, hu]
    exact single_eq_ok.2 (Table.select_put_of_single (single_eq_ok.1 h₁.copy) hpath.symm)
  apply ensures_cmd Poised.stable hnext (fun s _ => ⟨.go, _, _, Fair.go, rfl⟩)
  intro s₂ ch x s' h₂ _ hx
  rw [exec_insert hx]
  exact ensures_pure ⟨rfl, h₂.setFdus _⟩

theorem ensures_callAll_poised (h : Poised R n r held s) (hnet : ∀ e, ¬ ok (.net (.error e)))
    (l : List NetRequest) : Ensures z ok t (DummyHypervisor.callAll n l) s
      fun o s' => o = .ok () ∧ Poised R n r held s' := by
  induction l generalizing s with
  | nil => exact ensures_pure ⟨rfl, h⟩
  | cons q l ih =>
    exact ensures_callNet_stable Poised.stable h (fun _ _ h => ih h) fun e _ _ he => absurd he (hnet e)

theorem ensures_call_poised (h : Poised R n r none s) {q : PluginRequest} {b : M q.Ret}
    (hcall : DummyHypervisor.call z n p q = remote z (.plugin p q) b)
    (hb : ∀ s, Poised R n r none s →
      Ensures z ok t b s fun o s' => (∃ x, o = .ok x) ∧ Poised R' n r' none s') :
    Ensures z ok t (DummyHypervisor.call z n p q) s
      fun o s' => (∃ x, o = .ok x) ∧ Poised R' n r' none s' := by
  rw [hcall]
  apply ensures_remote_stable Poised.stable h hb (fun _ => Poised.stable.and)
  rintro _ s' l ⟨⟨x, rfl⟩, h⟩
  exact ⟨⟨x, rfl⟩, h.replies l⟩

end Plugin

/-- No record comes to be defined again after it has been configured. -/
def NoReset (i j : FDURecord) : Prop := i.status = .configured → j.status ≠ .defined

/-- Only the last record may be defined. -/
def LastDefined (i _ : FDURecord) : Prop := i.status ≠ .defined

def Single (_ _ : FDURecord) : Prop := False

section Agent

variable {a : Agent} {work : FDURecord → Uuid → M FDURecord} {forward : Uuid → M FDURecord}

theorem ensures_dispatch_poised (h : Poised R n r none s) {Φ : Except Exn FDURecord → Fos → Prop}
    (hwork : ∀ i p s, Poised R n r none s → Ensures z ok t (work i p) s Φ) :
    Ensures z ok t (Agent.dispatch ⟨n, svc⟩ r.uuid work forward) s Φ := by
  have nofault : ∀ {β : Type} {k : β → M FDURecord} {Φ}, Faulty ok → ∀ e s', Poised R n r none s' →
      Ensures z ok t (Prog.onOk k (.error e)) s' Φ := fun hf _ _ _ => ensures_excused hf
  refine ensures_ask Poised.stable h (fun s₁ h₁ => ?_) nofault
  obtain ⟨i, l, hi, hl⟩ := h₁.getInstance
  obtain ⟨hpath, hnode, -⟩ := h₁.trail.same i (hl ▸ List.mem_cons_self)
  simp only [Access.run, hi, Except.mapError, Prog.onOk_ok, hnode, if_true]
  refine ensures_ask Poised.stable h₁ (fun s₂ h₂ => ?_) nofault
  obtain ⟨d, p, hd, hp⟩ := h₂.trail.able
  rw [← show i.fduUuid = r.fduUuid from congrArg Prod.fst hpath] at hd
  simp only [Access.run, hd, Except.mapError, Prog.onOk_ok]
  refine ensures_issue (P := fun s => Poised R n r none s ∧ (s.node n).hypervisors d.hypervisor = some p)
    (fun s m st h hm => ⟨Poised.stable s m st h.1 hm, by rw [(monitor_moves hm).hypervisors]; exact h.2⟩)
    ⟨h₂, hp⟩ (fun s _ => ⟨.go, _, _, Fair.go, rfl⟩) fun s₃ ch x s' h₃ _ hx => ?_
  obtain ⟨rfl, rfl⟩ := exec_hypervisor hx
  rw [h₃.2, okOr_some_bind]
  exact hwork i p _ h₃.1

/-- The outcome of a call that moves the instance on to `r'`. -/
def Onward (R' : FDURecord → FDURecord → Prop) (n : Uuid) (r' : FDURecord)
    (o : Except Exn FDURecord) (s' : Fos) : Prop :=
  ∃ i, o = .ok i ∧ i.uuid = r'.uuid ∧ Poised R' n r' none s'

theorem Onward.stable (o : Except Exn FDURecord) : Stable (Onward R' n r' o) :=
  .exists fun _ => .and (.and Poised.stable)

theorem Onward.received {o : Except Exn FDURecord} (h : Onward R' n r' o s')
    (l : List ((q : Rpc) × Except FError q.Ret)) :
    Onward R' n r' ((received z o).mapError .err) { s' with replies := l } := by
  obtain ⟨i, rfl, hi, h⟩ := h
  exact ⟨i, rfl, hi, h.replies l⟩

theorem ensures_move_poised (R' : FDURecord → FDURecord → Prop)
    {R'' : FDURecord → FDURecord → Prop} (h : Poised R n r none s)
    {q : PluginRequest} {awaited : FDUState} (hu : r'.uuid = r.uuid) (hst : r'.status = awaited)
    (hcall : ∀ p s, Poised R n r none s → Ensures z ok t (DummyHypervisor.call z n p q) s
      fun o s' => (∃ x, o = .ok x) ∧ Poised R' n r' none s')
    (hR : ∀ i l, (i :: l).Pairwise R' → (i :: l).getLast? = some r' → i.status = awaited →
      (i :: l).Pairwise R'') :
    Ensures z ok t (Agent.dispatch ⟨n, svc⟩ r.uuid
      (fun _ => Agent.move z ⟨n, svc⟩ q awaited r.uuid) forward) s (Onward R'' n r') := by
  apply ensures_dispatch_poised h
  intro _ p s₁ h₁
  refine ensures_bind (hcall p s₁ h₁) (fun _ s₂ h₂ => ?_) fun _ _ ⟨⟨_, h⟩, _⟩ => by cases h
  exact hu ▸ ensures_poll_poised h₂.2 hst hR

theorem ensures_rpc_poised (h : Poised R n r none s) (hsvc : z.server svc = some n)
    {q : Request} {Ψ Φ : Except Exn q.Ret → Fos → Prop}
    (hq : ∀ s, Poised R n r none s → Ensures z ok t (Agent.handle z ⟨n, svc⟩ q) s Ψ)
    (hstable : ∀ o, Stable (Ψ o))
    (hΦ : ∀ o s' l, Ψ o s' → Φ ((received z o).mapError .err) { s' with replies := l }) :
    Ensures z ok t (rpc z svc q) s Φ :=
  ensures_remote_stable Poised.stable h (fun _ h => ensures_invoke_stable Poised.stable h hsvc hq)
    hstable hΦ

theorem ensures_stopFdu_poised (h : Poised NoReset n r none s) (hst : r.status = .running) :
    Ensures z ok t (Agent.stopFdu z ⟨n, svc⟩ r.uuid) s
      (Onward LastDefined n { r with status := .configured }) := by
  refine ensures_move_poised NoReset h rfl rfl (fun p s₃ h₃ => ?_) fun i l hl _ hi => ?_
  · apply ensures_call_poised h₃ rfl
    intro s₄ h₄
    have hstop : Ensures z ok t (DummyHypervisor.stopFdu z n p r.uuid) s₄ fun o s' =>
        o = .ok r.uuid ∧ Poised NoReset n { r with status := .configured } none s' :=
      ensures_transition_poised h₄ hst
        (K := fun held => Poised NoReset n { r with status := .configured } held)
        (fun _ => Poised.stable) (fun _ h => h.unlock) fun s₅ h₅ =>
          ensures_store_poised h₅ rfl rfl (fun _ => nofun) fun _ _ _ _ _ => nofun
    exact hstop.mono fun _ _ h => ⟨⟨_, h.1⟩, h.2⟩
  · -- a configured record has come up: none after it is defined
    have hall : ∀ j ∈ i :: l, j.status ≠ .defined := by
      intro j hj
      rcases List.mem_cons.1 hj with rfl | hj
      · rw [hi]
        nofun
      · exact (List.pairwise_cons.1 hl).1 j hj hi
    exact List.Pairwise.imp_of_mem (fun hj _ _ => hall _ hj) hl

theorem ensures_cleanFdu_poised (h : Poised LastDefined n r none s) (hst : r.status = .configured)
    (hdec : DummyHypervisor.Decodable r) (hnet : ∀ e, ¬ ok (.net (.error e))) :
    Ensures z ok t (Agent.cleanFdu z ⟨n, svc⟩ r.uuid) s
      (Onward Single n (DummyHypervisor.cleaned r)) := by
  refine ensures_move_poised LastDefined h rfl rfl (fun p s₃ h₃ => ?_) fun i l hl _ hi => ?_
  · apply ensures_call_poised h₃ rfl
    intro s₄ h₄
    obtain ⟨netns, hnetns⟩ := hdec
    have hclean : Ensures z ok t (DummyHypervisor.cleanFdu z n p r.uuid) s₄ fun o s' =>
        o = .ok r.uuid ∧ Poised LastDefined n (DummyHypervisor.cleaned r) none s' := ?_
    · exact hclean.mono fun _ _ h => ⟨⟨_, h.1⟩, h.2⟩
    refine ensures_transition_poised h₄ hst
      (K := fun held => Poised LastDefined n (DummyHypervisor.cleaned r) held)
      (fun _ => Poised.stable) (fun _ h => h.unlock) fun s₅ h₅ => ?_
    have hdecode : DummyHypervisor.decodeSpecific r.hypervisorSpecific = pure netns := by
      rw [hnetns]
      rfl
    rw [hdecode]
    refine ensures_bind (ensures_pure (Φ := fun o s' => o = .ok netns ∧
      Poised LastDefined n r (some p) s') ⟨rfl, h₅⟩) ?_ fun _ _ h => by cases h.1
    rintro _ s₆ ⟨-, h₆⟩
    refine ensures_bind (ensures_callAll_poised h₆ hnet _) (fun _ s₆ h₆ => ?_)
      fun _ _ h => by cases h.1
    refine ensures_store_poised h₆.2 rfl rfl (fun _ => nofun) fun s₇ h₇ i hi => ?_
    -- only the last record may be defined, and it is configured
    obtain ⟨l, hl⟩ := List.getLast?_eq_some_iff.1 h₇.trail.last
    have hord := h₇.trail.ordered
    rw [hl] at hi hord
    rcases List.mem_append.1 hi with hi | hi
    · exact (List.pairwise_append.1 hord).2.2 i hi r (List.mem_singleton_self r)
    · rw [List.mem_singleton.1 hi, LastDefined, hst]
      nofun
  · cases l with
    | nil => exact List.pairwise_singleton _ _
    | cons j l => exact absurd hi ((List.pairwise_cons.1 hl).1 j List.mem_cons_self)

/-- What the store still has of an instance whose local copy has been deleted. -/
structure Erased (n : Uuid) (r : FDURecord) (held : Option Uuid) (s : Fos) : Prop where
  trail : Trail Single n r s.toStore
  copy : ∀ i ∈ (s.node n).instances, i.uuid ≠ r.uuid
  seen : ∃ i ∈ s.global.instances, i.uuid = r.uuid
  locks : ∀ p, (s.plugin p).locked = decide (held = some p)

theorem Erased.stable : Stable (Erased n r held) := by
  intro s m st h hm
  refine ⟨h.trail.monitor hm, ?_, seen_monitor hm h.seen, h.locks⟩
  rw [(monitor_moves hm).copies]
  exact h.copy

theorem Erased.unlock (h : Erased n r (some p) s) : Erased n r none (s.setLock p false) :=
  ⟨h.trail, h.copy, h.seen, Fos.setLock_free h.locks rfl⟩

/-- Nothing has a record of instance `u` any more, nor is one on its way. -/
structure Vanished (n u : Uuid) (s : Fos) : Prop where
  copy : ∀ i ∈ (s.node n).instances, i.uuid ≠ u
  stored : ∀ i ∈ s.global.instances, i.uuid ≠ u
  pending : ∀ m, ∀ i ∈ (s.node m).changes, i.uuid ≠ u

theorem Vanished.stable : Stable (Vanished n u) := by
  intro s m st h hm
  have hmoves := monitor_moves hm
  refine ⟨?_, fun i hi => ?_, fun k i hi => h.pending k i (hmoves.pending k i hi)⟩
  · rw [hmoves.copies]
    exact h.copy
  · exact (hmoves.stored i hi).elim (h.stored i) (h.pending m i)

theorem Erased.getInstance (h : Erased n r held s) : s.global.getInstance r.uuid = .ok r := by
  obtain ⟨i, hi, hl⟩ := getInstance_trail (n := n) (fun i hi hu => h.trail.stored hi hu) h.seen
  have hord := h.trail.ordered
  have hlast := h.trail.last
  rw [hl] at hord hlast
  have hnil := List.eq_nil_iff_forall_not_mem.2 (List.pairwise_cons.1 hord).1
  rw [hnil] at hlast
  cases hlast
  exact hi

theorem Erased.delete (h : Erased n r none s) :
    Vanished n r.uuid { s with toStore := s.toStore.globalDelete r.fduUuid r.uuid } := by
  refine ⟨h.copy, fun i hi hu => ?_, fun m i hi hu => ?_⟩
  · exact (Table.mem_erase.1 hi).2 (h.trail.stored (Table.mem_erase.1 hi).1 hu)
  · by_cases hm : m = n
    · subst hm
      obtain ⟨j, hj, hl⟩ := getInstance_trail (n := m) (fun i hi hu => h.trail.stored hi hu) h.seen
      have hord := h.trail.ordered
      rw [hl] at hord
      exact (List.pairwise_cons.1 hord).1 i (List.mem_filter.2 ⟨hi, decide_eq_true hu⟩)
    · exact h.trail.elsewhere m hm i hi hu

theorem ensures_undefineFdu_poised (h : Poised Single n r none s) (hst : r.status = .defined) :
    Ensures z ok t (Agent.undefineFdu z ⟨n, svc⟩ r.uuid) s fun _ s' => Vanished n r.uuid s' := by
  apply ensures_dispatch_poised h
  intro i p s₁ h₁
  refine ensures_bind (Ψ := fun o s' => (∃ x, o = .ok x) ∧ Erased n r none s') ?_ ?_
    fun _ _ ⟨⟨_, h⟩, _⟩ => by cases h
  · refine ensures_remote_stable Poised.stable h₁ (fun s₂ h₂ => ?_) (fun _ => Erased.stable.and)
      (Ψ := fun o s' => (∃ x, o = .ok x) ∧ Erased n r none s') ?_
    · have hundefine : Ensures z ok t (DummyHypervisor.undefineFdu z n p r.uuid) s₂ fun o s' =>
          o = .ok r.uuid ∧ Erased n r none s' := ?_
      · exact hundefine.mono fun _ _ h => ⟨⟨_, h.1⟩, h.2⟩
      refine ensures_transition_poised h₂ hst (K := Erased n r) (fun _ => Erased.stable)
        (fun _ h => h.unlock) fun s₃ h₃ => ?_
      apply ensures_issue Poised.stable h₃ (fun s _ => ⟨.go, _, _, Fair.go, rfl⟩)
      intro s₄ ch x s' h₄ _ hx
      rw [exec_remove hx]
      refine ensures_ask Poised.stable (h₄.setFdus _) (fun s₅ h₅ => ?_)
        fun hf _ _ _ => ensures_excused hf
      simp only [Access.run, h₅.copy, Except.mapError, Prog.onOk_ok]
      refine ensures_ask_final Poised.stable h₅ fun s₆ h₆ => ⟨rfl, ?_⟩
      refine ⟨h₆.trail.localDelete, fun i hi hu => ?_, h₆.seen, h₆.locks⟩
      simp only [Access.run, Store.localDelete, Store.setNode, Function.update_self] at hi
      obtain ⟨hi, hne⟩ := Table.mem_erase.1 hi
      obtain rfl := eq_of_single h₆.copy hi hu
      exact hne rfl
    · rintro _ s' l ⟨⟨x, rfl⟩, h⟩
      exact ⟨⟨x, rfl⟩, h.trail, h.copy, h.seen, h.locks⟩
  · rintro _ s₂ ⟨-, h₂⟩
    refine ensures_bind (Ψ := fun _ s' => Vanished n r.uuid s') ?_
      (fun _ _ h => ensures_pure h) fun _ _ h => h
    refine ensures_ask Erased.stable h₂ (fun s₃ h₃ => ?_) fun hf _ _ _ => ensures_excused hf
    simp only [Access.run, h₃.getInstance, Except.mapError, Prog.onOk_ok]
    exact ensures_ask_final Erased.stable h₃ fun s₄ h₄ => h₄.delete

end Agent

theorem ensures_deleteFduInstance (h : Poised NoReset n r none s) (hst : r.status = .running)
    (hdec : DummyHypervisor.Decodable r) (hnet : ∀ e, ¬ ok (.net (.error e)))
    (hsvc : z.server svc = some n) :
    Ensures z ok t (deleteFduInstance z svc r.uuid) s fun _ s' => Vanished n r.uuid s' := by
  refine ensures_ask Poised.stable h (fun s₁ h₁ => ?_) fun hf _ _ _ => ensures_excused hf
  obtain ⟨i, l, hi, -⟩ := h₁.getInstance
  simp only [Access.run, hi, Except.mapError, Prog.onOk_ok]
  refine ensures_bind (ensures_rpc_poised h₁ hsvc (fun s h => ensures_stopFdu_poised h hst)
    Onward.stable fun _ _ l h => h.received l) ?_
    fun _ _ ho => by obtain ⟨_, h, -⟩ := ho; cases h
  rintro _ s₂ ⟨_, ⟨⟩, hu, h₂⟩
  rw [hu]
  refine ensures_bind (ensures_rpc_poised h₂ hsvc (fun s h => ensures_cleanFdu_poised h rfl hdec hnet)
    Onward.stable fun _ _ l h => h.received l) ?_
    fun _ _ ho => by obtain ⟨_, h, -⟩ := ho; cases h
  rintro _ s₃ ⟨_, -, -, h₃⟩
  exact ensures_rpc_poised h₃ hsvc
    (fun s h => ensures_undefineFdu_poised (r := DummyHypervisor.cleaned _) h rfl)
    (fun _ => Vanished.stable) fun _ _ _ h => ⟨h.copy, h.stored, h.pending⟩

/-- Where the copy of the instance is, whether the global store has seen it or not. -/
def Placed (n : Uuid) (r : FDURecord) (s : Fos) : Prop :=
  Trail NoReset n r s.toStore ∧ (s.node n).getInstance r.uuid = .ok r

theorem Placed.stable : Stable (Placed n r) := by
  intro s m st h hm
  refine ⟨h.1.monitor hm, ?_⟩
  rw [Node.getInstance, (monitor_moves hm).copies]
  exact h.2

theorem ensures_stop_refused (h : Placed n r s) (hst : r.status ≠ .running) :
    Ensures z ok t (DummyHypervisor.call z n p (.stopFdu r.uuid)) s
      fun o s' => (∃ e, o = .error e) ∧ Placed n r s' := by
  have hpost : ∀ o : Except Exn Uuid, Stable fun s' => (∃ e, o = .error e) ∧ Placed n r s' :=
    fun _ => Placed.stable.and
  refine ensures_remote_stable Placed.stable h (fun s₁ h₁ => ?_) hpost ?_
  · refine ensures_bind (Ψ := fun _ s' => Placed n r s') ?_ (fun _ s₂ h₂ => ?_)
      fun e _ h => ⟨⟨e, rfl⟩, h⟩
    · exact ensures_remote_stable Placed.stable h₁ (fun s h => ensures_pure h)
        (fun _ => Placed.stable) fun _ _ _ h => h
    · refine ensures_ask Placed.stable h₂ (fun s₃ h₃ => ?_) fun hf _ _ _ => ensures_excused hf
      simp only [Access.run, h₃.2, Except.mapError, Prog.onOk_ok, hst, if_false]
      exact ensures_fail ⟨⟨_, rfl⟩, h₃⟩
  · rintro _ s' l ⟨⟨e, rfl⟩, h⟩
    cases e <;> exact ⟨⟨_, rfl⟩, h⟩

theorem ensures_stopFdu_refused (h : Placed n r s) (hst : r.status ≠ .running) :
    Ensures z ok t (Agent.stopFdu z ⟨n, svc⟩ r.uuid) s
      fun o s' => (∃ e, o = .error e) ∧ Placed n r s' := by
  have nofault : ∀ {β : Type} {k : β → M FDURecord} {Φ}, Faulty ok → ∀ e s', Placed n r s' →
      Ensures z ok t (Prog.onOk k (.error e)) s' Φ := fun hf _ _ _ => ensures_excused hf
  refine ensures_ask Placed.stable h (fun s₁ h₁ => ?_) nofault
  cases hi : s₁.global.getInstance r.uuid with
  | error e =>
    simp only [Access.run, hi, Except.mapError, Prog.onOk_error]
    exact ensures_err ⟨⟨_, rfl⟩, h₁⟩
  | ok i =>
    obtain ⟨hmem, hu⟩ := single_select_key hi
    have hnode : i.node = n := (h₁.1.same i (Store.mem_trail.2 ⟨Or.inl hmem, hu⟩)).2.1
    simp only [Access.run, hi, Except.mapError, Prog.onOk_ok, hnode, if_true]
    refine ensures_ask Placed.stable h₁ (fun s₂ h₂ => ?_) nofault
    cases hd : s₂.global.getFdu i.fduUuid with
    | error e =>
      simp only [Access.run, hd, Except.mapError, Prog.onOk_error]
      exact ensures_err ⟨⟨_, rfl⟩, h₂⟩
    | ok d =>
      simp only [Access.run, hd, Except.mapError, Prog.onOk_ok]
      apply ensures_issue Placed.stable h₂ (fun s _ => ⟨.go, _, _, Fair.go, rfl⟩)
      intro s₃ ch x s' h₃ _ hx
      obtain ⟨rfl, rfl⟩ := exec_hypervisor hx
      cases (s'.node n).hypervisors d.hypervisor with
      | none => exact ensures_fail ⟨⟨_, rfl⟩, h₃⟩
      | some p =>
        rw [okOr_some_bind]
        exact ensures_bind (ensures_stop_refused h₃ hst) (fun _ _ ho => by obtain ⟨⟨_, h⟩, -⟩ := ho; cases h)
          fun _ _ h => ⟨⟨_, rfl⟩, h.2⟩

/-- An instance that is not running is still there after its deletion has been tried. -/
theorem ensures_delete_refused (h : Placed n r s) (hst : r.status ≠ .running)
    (hsvc : z.server svc = some n) :
    Ensures z ok t (deleteFduInstance z svc r.uuid) s fun _ s' => Placed n r s' := by
  refine ensures_ask Placed.stable h (fun s₁ h₁ => ?_) fun hf _ _ _ => ensures_excused hf
  cases hi : s₁.global.getInstance r.uuid with
  | error e =>
    simp only [Access.run, hi, Except.mapError, Prog.onOk_error]
    exact ensures_err h₁
  | ok i =>
    simp only [Access.run, hi, Except.mapError, Prog.onOk_ok]
    have hpost : ∀ o : Except Exn FDURecord, Stable fun s' => (∃ e, o = .error e) ∧ Placed n r s' :=
      fun _ => Placed.stable.and
    refine ensures_bind (Ψ := fun o s' => (∃ e, o = .error e) ∧ Placed n r s') ?_
      (fun _ _ ho => by obtain ⟨⟨_, h⟩, -⟩ := ho; cases h) fun _ _ h => h.2
    refine ensures_remote_stable Placed.stable h₁ (fun s h => ensures_invoke_stable Placed.stable h hsvc
      fun s h => ensures_stopFdu_refused h hst) hpost ?_
    rintro _ s' l ⟨⟨e, rfl⟩, h⟩
    cases e <;> exact ⟨⟨_, rfl⟩, h⟩

end Fog05
