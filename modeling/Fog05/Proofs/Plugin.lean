import Fog05.Proofs.Steps

/-! What a call to the hypervisor plugin does in a still state: it fails and
leaves the stores as they are, or one change of one record is on its way to the
global store when it returns. -/

namespace Fog05

open Conc M Relation

/-- From `s`, nothing but the stores, the uuids given out, the plugins' own maps
and the history of replies has changed, and the stores are now `st`. -/
structure Leads (s : Fos) (st : Store) (s' : Fos) : Prop where
  store : s'.toStore = st
  locks : ∀ p, (s'.plugin p).locked = (s.plugin p).locked
  issued : s.issued ⊆ s'.issued
  tasks : s'.tasks = s.tasks
  writes : s'.writes = s.writes

namespace Leads

variable {s s₁ s' : Fos} {st st' : Store}

theorem refl (s : Fos) : Leads s s.toStore s :=
  ⟨rfl, fun _ => rfl, List.Subset.refl _, rfl, rfl⟩

theorem trans (h : Leads s st s₁) (h' : Leads s₁ st' s') : Leads s st' s' :=
  ⟨h'.store, fun p => (h'.locks p).trans (h.locks p), List.Subset.trans h.issued h'.issued,
    h'.tasks.trans h.tasks, h'.writes.trans h.writes⟩

theorem still (h : Leads s st s') (hst : st.Still) : s'.Still := h.store ▸ hst

theorem replies (h : Leads s st s') (l : List ((q : Rpc) × Except FError q.Ret)) :
    Leads s st { s' with replies := l } :=
  ⟨h.store, h.locks, h.issued, h.tasks, h.writes⟩

theorem newUuid (h : Leads s st s') (u : Uuid) :
    Leads s st { s' with issued := u :: s'.issued } :=
  ⟨h.store, h.locks, List.Subset.trans h.issued (List.subset_cons_self _ _), h.tasks, h.writes⟩

theorem cons (h : Leads s st s') (u : Uuid) :
    Leads { s with issued := u :: s.issued } st { s' with issued := u :: s'.issued } :=
  ⟨h.store, h.locks, List.cons_subset_cons u h.issued, h.tasks, h.writes⟩

theorem withStore (h : Leads s st s') (st' : Store) : Leads s st' { s' with toStore := st' } :=
  ⟨rfl, h.locks, h.issued, h.tasks, h.writes⟩

theorem setFdus (h : Leads s st s') (p : Uuid) (l : Table FDURecord.uuid) :
    Leads s st (s'.setFdus p l) :=
  ⟨h.store, fun p' => by rw [Fos.setFdus_locked, h.locks], h.issued, h.tasks, h.writes⟩

theorem stable (hst : st.Still) : Stable (Leads s st) := by
  intro s' n st' h hm
  rw [h.store, hst.monitor] at hm
  cases hm

/-- What leads on from the state with the lock taken, leads on from the state
before it once the lock is released. -/
theorem unlock {p : Uuid} (hfree : (s.plugin p).locked = false)
    (h : Leads (s.setLock p true) st s') :
    Leads s st (s'.setLock p false) := by
  refine ⟨h.store, fun p' => ?_, h.issued, h.tasks, h.writes⟩
  have := h.locks p'
  rw [Fos.setLock_locked] at this ⊢
  split at this
  · next hp => rw [if_pos hp, hp, hfree]
  · next hp => rw [if_neg hp, this]

end Leads

theorem Store.Still.publish {st : Store} (h : st.Still) (n : Uuid) (inst : FDURecord) :
    (st.publish n inst).Still := by
  intro m
  simp only [Store.publish, Store.globalPut, Store.setNode, Function.update_apply]
  split
  · exact h n
  · exact h m

theorem Store.Still.localDelete {st : Store} (h : st.Still) (n f u : Uuid) :
    (st.localDelete n f u).Still := by
  intro m
  simp only [Store.localDelete, Store.setNode, Function.update_apply]
  split
  · exact h n
  · exact h m

theorem Store.Still.globalDelete {st : Store} (h : st.Still) (f u : Uuid) :
    (st.globalDelete f u).Still := h

/-- The only round that is possible after a local put is the one that copies it. -/
theorem monitor_localPut {st st' : Store} (h : st.Still) {n m : Uuid} {inst : FDURecord}
    (hm : (st.localPut n inst).monitor m = some st') : st' = st.publish n inst := by
  by_cases hmn : m = n
  · subst hmn
    simp only [Store.monitor, Store.localPut, Store.setNode, Function.update_self, h m,
      List.nil_append, Function.update_idem, Option.some.injEq] at hm
    rw [← hm, Store.publish, Store.setNode]
    simp [h m]
  · simp [Store.monitor, Store.localPut, Store.setNode, Function.update_of_ne hmn, h m] at hm

theorem monitor_localPut_self {st : Store} (h : st.Still) (n : Uuid) (inst : FDURecord) :
    (st.localPut n inst).monitor n = some (st.publish n inst) := by
  have : ∃ st', (st.localPut n inst).monitor n = some st' := by
    simp [Store.monitor, Store.localPut, Store.setNode, h n]
  obtain ⟨st', h'⟩ := this
  rw [h', monitor_localPut h h']

/-- From `s`, one record has been put at node `n`, and may have been copied. -/
def Pending (s : Fos) (n : Uuid) (inst : FDURecord) (s' : Fos) : Prop :=
  Leads s (s.localPut n inst) s' ∨ Leads s (s.publish n inst) s'

section Pending

variable {s s' : Fos} {n p : Uuid} {inst : FDURecord}

theorem Pending.stable (hs : s.Still) : Stable (Pending s n inst) := by
  rintro s' m st (h | h) hm
  · rw [h.store] at hm
    exact Or.inr (monitor_localPut hs hm ▸ h.withStore st)
  · rw [h.store, (hs.publish n inst).monitor] at hm
    cases hm

theorem Pending.replies (h : Pending s n inst s') (l : List ((q : Rpc) × Except FError q.Ret)) :
    Pending s n inst { s' with replies := l } :=
  h.imp (fun h => h.replies l) fun h => h.replies l

theorem Pending.setFdus (h : Pending s n inst s') (l : Table FDURecord.uuid) :
    Pending s n inst (s'.setFdus p l) :=
  h.imp (fun h => h.setFdus p l) fun h => h.setFdus p l

theorem Pending.unlock (hfree : (s.plugin p).locked = false)
    (h : Pending (s.setLock p true) n inst s') :
    Pending s n inst (s'.setLock p false) :=
  h.imp (Leads.unlock hfree) (Leads.unlock hfree)

theorem Pending.trans {s₁ : Fos} (h : Leads s s.toStore s₁) (h' : Pending s₁ n inst s') :
    Pending s n inst s' := by
  have hst := h.store
  refine h'.imp (fun h' => ?_) fun h' => ?_
  · exact hst ▸ h.trans h'
  · exact hst ▸ h.trans h'

end Pending

variable {z : Session} {ok : Choice → Prop} [Fair ok] {t : Prop} {α : Type} {s : Fos}

theorem ensures_remote_stable {P : Fos → Prop} (hP : Stable P) (hs : P s) {q : Rpc} {b : M q.Ret}
    {Ψ Φ : Except Exn q.Ret → Fos → Prop} (hb : ∀ s, P s → Ensures z ok t b s Ψ)
    (hstable : ∀ o, Stable (Ψ o))
    (hΦ : ∀ o s' l, Ψ o s' → Φ ((received z o).mapError .err) { s' with replies := l }) :
    Ensures z ok t (remote z q b) s Φ := by
  refine ensures_ask hP hs (fun s₁ hs₁ => ?_) fun hf e _ _ => ensures_excused hf
  change Ensures z ok t (b.attempt >>= fun o => ask (.reply q (received z o))) s₁ Φ
  rw [Prog.attempt_bind]
  refine ensures_bindE (hb s₁ hs₁) (fun o s' ho => ?_) fun hf e s' => ?_
  · exact ensures_ask_final (hstable o) ho fun s₂ hs₂ => hΦ o s₂ _ hs₂
  · refine (ensures_ask_final (P := fun _ => True) (fun _ _ _ _ _ => trivial) trivial
      (Φ := fun o _ => ∃ e, o = .error e) fun _ _ => ?_).excused hf
    cases e <;> exact ⟨_, rfl⟩

theorem ensures_remote (hs : s.Still) {q : Rpc} {b : M q.Ret} {Ψ Φ : Except Exn q.Ret → Fos → Prop}
    (hb : Ensures z ok t b s Ψ) (hstable : ∀ o, Stable (Ψ o))
    (hΦ : ∀ o s' l, Ψ o s' → Φ ((received z o).mapError .err) { s' with replies := l }) :
    Ensures z ok t (remote z q b) s Φ :=
  ensures_remote_stable hs.stable rfl (fun _ h => h ▸ hb) hstable hΦ

namespace DummyHypervisor

variable {n p : Uuid} {Φ : Except Exn α → Fos → Prop}

theorem ensures_getNodeUuid (hs : s.Still) {f : Uuid → M α}
    (h : ∀ s', Leads s s.toStore s' → Ensures z ok t (f n) s' Φ) :
    Ensures z ok t (getNodeUuid z n >>= f) s Φ := by
  refine ensures_bind
    (Ψ := fun o s' => o = .ok n ∧ Leads s s.toStore s') ?_ ?_ (fun _ _ h => by cases h.1)
  · refine ensures_remote hs (Ψ := fun o s' => o = .ok n ∧ Leads s s.toStore s')
      (ensures_pure ⟨rfl, Leads.refl s⟩) (fun _ => (Leads.stable hs).and) ?_
    rintro _ _ l ⟨rfl, hl⟩
    exact ⟨rfl, hl.replies l⟩
  · rintro _ s' ⟨ha, hl⟩
    cases ha
    exact h s' hl

theorem ensures_fduInfo (hs : s.Still) {fduUuid : Uuid} {f : FDUDescriptor → M α}
    (hok : ∀ d s', s.global.getFdu fduUuid = .ok d → Leads s s.toStore s' →
      Ensures z ok t (f d) s' Φ)
    (herr : ∀ e s', Leads s s.toStore s' → Φ (.error (.err e)) s') :
    Ensures z ok t (fduInfo z n fduUuid >>= f) s Φ := by
  refine ensures_bind
    (Ψ := fun o s' => o = (s.global.getFdu fduUuid).mapError .err ∧ Leads s s.toStore s')
    ?_ ?_ ?_
  · refine ensures_remote hs
      (Ψ := fun o s' => o = (s.global.getFdu fduUuid).mapError .err ∧ Leads s s.toStore s') ?_
      (fun _ => (Leads.stable hs).and) ?_
    · apply ensures_ask_final hs.stable rfl
      rintro _ rfl
      exact ⟨rfl, Leads.refl _⟩
    · rintro _ s' l ⟨rfl, hl⟩
      exact ⟨by cases s.global.getFdu fduUuid <;> rfl, hl.replies l⟩
  · rintro d s' ⟨hd, hl⟩
    cases hf : s.global.getFdu fduUuid with
    | ok d' => rw [hf] at hd; cases hd; exact hok d s' hf hl
    | error e => rw [hf] at hd; cases hd
  · rintro e s' ⟨he, hl⟩
    cases hf : s.global.getFdu fduUuid with
    | ok d' => rw [hf] at he; cases he
    | error e' => rw [hf] at he; cases he; exact herr e' s' hl

theorem ensures_withLock (hs : s.Still) (hfree : (s.plugin p).locked = false) {b : M α}
    {Ψ : Except Exn α → Fos → Prop} (hstable : ∀ o, Stable (Ψ o))
    (hb : Ensures z ok t b (s.setLock p true) Ψ)
    (hΦ : ∀ o s', Ψ o s' → Φ o (s'.setLock p false)) :
    Ensures z ok t (withLock p b) s Φ := by
  refine ensures_issue hs.stable rfl (fun s' hs' => ?_) ?_
  · exact ⟨.go, (), _, Fair.go, if_neg (by simp [hs', hfree])⟩
  rintro _ ch r s' rfl - hx
  obtain ⟨-, rfl⟩ := exec_lock hx
  rw [Prog.attempt_bind]
  refine ensures_bindE hb (fun o s₁ ho => ?_) fun hf e s₁ => ?_
  · apply ensures_issue (hstable o) ho (fun s' _ => ⟨.go, _, _, Fair.go, rfl⟩)
    intro s₂ ch r s' hs₂ _ hx
    rw [exec_unlock hx]
    exact ensures_final (hΦ o s₂ hs₂)
  · exact ensures_issue (P := fun _ => True) (fun _ _ _ _ _ => trivial) trivial
      (fun s' _ => ⟨.go, _, _, Fair.go, rfl⟩) fun _ _ _ _ _ _ _ => ensures_excused hf

theorem ensures_store {b : Fos} (hb : b.Still) (h : Leads b b.toStore s) (inst : FDURecord) :
    Ensures z ok t (store n p inst) s fun o s' => o = .ok () ∧ Pending b n inst s' := by
  refine ensures_ask_bind (h.still hb) (fun _ _ => ?_) fun _ he => by cases he
  have hput : Pending b n inst (Access.run (.localPutInstance n inst) s).2 :=
    Or.inl (h.store ▸ h.withStore _)
  apply ensures_cmd (Pending.stable hb) hput (fun s _ => ⟨.go, _, _, Fair.go, rfl⟩)
  intro s₁ ch r s' h₁ _ hx
  rw [exec_insert hx]
  exact ensures_pure ⟨rfl, h₁.setFdus _⟩

theorem ensures_createConnectionPoints (hs : s.Still) (l : List ConnectionPointDescriptor)
    (cps : List FDURecordConnectionPoint) :
    Ensures z ok t (createConnectionPoints n l cps) s fun _ s' => s' = s := by
  induction l generalizing cps with
  | nil => exact ensures_pure rfl
  | cons cp l ih => exact ensures_callNet hs (fun _ => ih _) fun _ _ => rfl

theorem ensures_connect (hs : s.Still) (cps : List FDURecordConnectionPoint) (pair : Uuid)
    (cpId : Option String) :
    Ensures z ok t (connect n cps pair cpId) s fun _ s' => s' = s := by
  cases cpId with
  | none => exact ensures_callNet hs (fun _ => ensures_pure rfl) fun _ _ => rfl
  | some cpId =>
    simp only [connect]
    cases cps.find? fun c => c.id = cpId with
    | none => exact ensures_fail rfl
    | some cp =>
      rw [okOr_some_bind]
      exact ensures_callNet hs (fun _ => ensures_pure rfl) fun _ _ => rfl

theorem ensures_createInterfaces (hs : s.Still) (netns : Uuid)
    (cps : List FDURecordConnectionPoint) (l : List Interface) (ifs : List FDURecordInterface) :
    Ensures z ok t (createInterfaces n netns cps l ifs) s fun _ s' => s' = s := by
  induction l generalizing ifs with
  | nil => exact ensures_pure rfl
  | cons intf l ih =>
    refine ensures_callNet hs (fun viface => ?_) fun _ _ => rfl
    cases viface.pair with
    | none => exact ensures_fail rfl
    | some pair =>
      rw [okOr_some_bind]
      refine ensures_bind (Ψ := fun _ s' => s' = s) (ensures_connect hs cps pair intf.cpId) ?_
        fun _ _ h => h
      rintro cpUuid _ rfl
      exact ih _

theorem ensures_callAll (hs : s.Still) (l : List NetRequest) :
    Ensures z ok t (callAll n l) s fun o s' =>
      s' = s ∧ (o = .ok () ∨ ∃ e e', o = .error e ∧ ok (.net (.error e'))) := by
  induction l with
  | nil => exact ensures_pure ⟨rfl, Or.inl rfl⟩
  | cons q l ih =>
    exact ensures_callNet hs (fun _ => ih) fun e he => ⟨rfl, Or.inr ⟨_, e, rfl, he⟩⟩

end DummyHypervisor

/-- The call failed, for the reason `bad`, and left the stores as they were; or
it returned `a`, and a record that `new` describes is on its way. -/
def Publishes (s : Fos) (n : Uuid) (bad : Prop) (new : α → FDURecord → Prop)
    (o : Except Exn α) (s' : Fos) : Prop :=
  (∃ e, o = .error e ∧ bad ∧ Leads s s.toStore s') ∨
    ∃ a inst, o = .ok a ∧ new a inst ∧ Pending s n inst s'

theorem Publishes.stable (hs : s.Still) {n : Uuid} {bad : Prop} {new : α → FDURecord → Prop}
    (o : Except Exn α) : Stable (Publishes s n bad new o) :=
  .or (.exists fun _ => .and (.and (Leads.stable hs)))
    (.exists fun _ => .exists fun _ => .and (.and (Pending.stable hs)))

theorem Publishes.mono {n : Uuid} {bad : Prop} {new new' : α → FDURecord → Prop}
    {o : Except Exn α} {s' : Fos} (h : Publishes s n bad new o s')
    (hnew : ∀ a inst, new a inst → new' a inst) : Publishes s n bad new' o s' :=
  h.imp_right fun ⟨a, inst, ho, hn, hp⟩ => ⟨a, inst, ho, hnew a inst hn, hp⟩

theorem Publishes.received {n : Uuid} {bad : Prop} {new : α → FDURecord → Prop}
    {o : Except Exn α} {s' : Fos} (h : Publishes s n bad new o s')
    (l : List ((q : Rpc) × Except FError q.Ret)) :
    Publishes s n bad new ((received z o).mapError .err) { s' with replies := l } := by
  obtain ⟨e, rfl, hbad, hl⟩ | ⟨a, inst, rfl, hnew, hp⟩ := h
  · apply Or.inl
    cases e with
    | err e => exact ⟨_, rfl, hbad, hl.replies l⟩
    | panic => exact ⟨_, rfl, hbad, hl.replies l⟩
  · exact Or.inr ⟨a, inst, rfl, hnew, hp.replies l⟩

namespace DummyHypervisor

variable {n p u : Uuid}

theorem ensures_transition (hs : s.Still) {before : FDUState} {work : FDURecord → M Unit}
    {Φ : Except Exn Uuid → Fos → Prop}
    (hwork : ∀ inst s₁, (s.node n).getInstance u = .ok inst → inst.status = before →
      Leads s s.toStore s₁ →
      Ensures z ok t (withLock p do work inst; pure u) s₁ Φ)
    (herr : ∀ e s₁, (∀ inst, (s.node n).getInstance u = .ok inst → inst.status ≠ before) →
      Leads s s.toStore s₁ → Φ (.error e) s₁) :
    Ensures z ok t (transition z n p before u work) s Φ := by
  apply ensures_getNodeUuid hs
  intro s₁ h₁
  have hnode : s₁.node n = s.node n := by rw [h₁.store]
  refine ensures_ask_bind (h₁.still hs) (fun inst hinst => ?_) fun e he => ?_
  · simp only [Access.run, hnode] at hinst
    split
    · next hst => exact hwork inst s₁ hinst hst h₁
    · next hst =>
      refine ensures_fail (herr _ s₁ (fun inst' hinst' => ?_) h₁)
      rw [hinst] at hinst'
      cases hinst'
      exact hst
  · simp only [Access.run, hnode] at he
    exact herr _ s₁ (fun inst' hinst' => by rw [he] at hinst'; cases hinst') h₁

/-- A transition whose work publishes a record, or fails for the reason `bad`. -/
theorem ensures_publishing (hs : s.Still) (hfree : ∀ p, (s.plugin p).locked = false)
    {before : FDUState} {work : FDURecord → M Unit} {bad : FDURecord → Prop}
    {new : FDURecord → FDURecord → Prop}
    (hwork : ∀ inst b, b.toStore = s.toStore →
      Ensures z ok t (work inst) b (Publishes b n (bad inst) fun _ => new inst)) :
    Ensures z ok t (transition z n p before u work) s
      (Publishes s n
        (∀ inst, (s.node n).getInstance u = .ok inst → inst.status = before → bad inst)
        fun a inst' => a = u ∧ ∃ inst, (s.node n).getInstance u = .ok inst ∧
          inst.status = before ∧ new inst inst') := by
  refine ensures_transition hs (fun inst s₁ hinst hst h₁ => ?_) fun e s₁ hbad h₁ => ?_
  · have hb : (s₁.setLock p true).toStore = s.toStore := h₁.store
    have hfree₁ : (s₁.plugin p).locked = false := (h₁.locks p).trans (hfree p)
    refine ensures_withLock (h₁.still hs) hfree₁
      (fun o => Publishes.stable (hb ▸ hs : (s₁.setLock p true).Still) o)
      (Ψ := Publishes (s₁.setLock p true) n (bad inst) fun a inst' => a = u ∧ new inst inst') ?_ ?_
    · refine ensures_bind (hwork inst _ hb) (fun _ s' h => ?_) fun e s' h => ?_
      · obtain ⟨e, he, -⟩ | ⟨a, inst', -, hnew, hp⟩ := h
        · cases he
        · exact ensures_pure (Or.inr ⟨u, inst', rfl, ⟨rfl, hnew⟩, hp⟩)
      · obtain ⟨e', he, hbad, hl⟩ | ⟨a, inst', ha, -⟩ := h
        · cases he
          exact Or.inl ⟨e, rfl, hbad, hl⟩
        · cases ha
    · rintro o s' (⟨e, rfl, hbad, hl⟩ | ⟨a, inst', rfl, ⟨rfl, hnew⟩, hp⟩)
      · refine Or.inl ⟨e, rfl, fun inst' hinst' _ => ?_, ?_⟩
        · rw [hinst] at hinst'
          cases hinst'
          exact hbad
        · exact h₁.trans (hb ▸ hl.unlock hfree₁)
      · exact Or.inr ⟨_, inst', rfl, ⟨rfl, inst, hinst, hst, hnew⟩, (hp.unlock hfree₁).trans h₁⟩
  · exact Or.inl ⟨_, rfl, fun inst hinst hst => absurd hst (hbad inst hinst), h₁⟩

theorem ensures_startFdu (hs : s.Still) (hfree : ∀ p, (s.plugin p).locked = false) :
    Ensures z ok t (startFdu z n p u) s
      (Publishes s n (∀ inst, (s.node n).getInstance u = .ok inst → inst.status = .configured → False)
        fun a inst' => a = u ∧ ∃ inst, (s.node n).getInstance u = .ok inst ∧
          inst.status = .configured ∧ inst' = { inst with status := .running }) :=
  ensures_publishing hs hfree fun _ b hb =>
    (ensures_store (hb ▸ hs : b.Still) (Leads.refl b) _).mono fun _ _ h =>
      Or.inr ⟨(), _, h.1, rfl, h.2⟩

theorem ensures_stopFdu (hs : s.Still) (hfree : ∀ p, (s.plugin p).locked = false) :
    Ensures z ok t (stopFdu z n p u) s
      (Publishes s n (∀ inst, (s.node n).getInstance u = .ok inst → inst.status = .running → False)
        fun a inst' => a = u ∧ ∃ inst, (s.node n).getInstance u = .ok inst ∧
          inst.status = .running ∧ inst' = { inst with status := .configured }) :=
  ensures_publishing hs hfree fun _ b hb =>
    (ensures_store (hb ▸ hs : b.Still) (Leads.refl b) _).mono fun _ _ h =>
      Or.inr ⟨(), _, h.1, rfl, h.2⟩

def cleaned (inst : FDURecord) : FDURecord :=
  { inst with interfaces := [], connectionPoints := [], status := .defined }

/-- Its namespace can be read back, so that `clean_fdu` does not panic on it. -/
def Decodable (inst : FDURecord) : Prop := ∃ netns, inst.hypervisorSpecific = some (.dummy netns)

theorem ensures_cleanFdu (hs : s.Still) (hfree : ∀ p, (s.plugin p).locked = false) :
    Ensures z ok t (cleanFdu z n p u) s
      (Publishes s n (∀ inst, (s.node n).getInstance u = .ok inst → inst.status = .configured →
          Decodable inst → ∃ e, ok (.net (.error e)))
        fun a inst' => a = u ∧ ∃ inst, (s.node n).getInstance u = .ok inst ∧
          inst.status = .configured ∧ inst' = cleaned inst) := by
  apply ensures_publishing hs hfree
  intro inst b hb
  have hb' : b.Still := hb ▸ hs
  by_cases hd : Decodable inst
  · obtain ⟨netns, hn⟩ := hd
    refine ensures_bind (Ψ := fun o s' => o = .ok netns ∧ s' = b)
      (by rw [hn]; exact ensures_pure ⟨rfl, rfl⟩) ?_ (fun _ _ h => by cases h.1)
    rintro _ _ ⟨-, rfl⟩
    refine ensures_bind (ensures_callAll hb' _) ?_ ?_
    · rintro _ _ ⟨rfl, -⟩
      exact (ensures_store hb' (Leads.refl _) _).mono fun _ _ h => Or.inr ⟨(), _, h.1, rfl, h.2⟩
    · rintro e _ ⟨rfl, h | ⟨e', e'', -, he⟩⟩
      · cases h
      · exact Or.inl ⟨e, rfl, fun _ => ⟨e'', he⟩, Leads.refl _⟩
  · refine ensures_bind (Ψ := fun o s' => o = .error .panic ∧ s' = b) ?_
      (fun _ _ h => by cases h.1) ?_
    · cases h : inst.hypervisorSpecific with
      | none => exact ensures_err ⟨rfl, rfl⟩
      | some x =>
        cases x with
        | dummy netns => exact absurd ⟨netns, h⟩ hd
        | other l => exact ensures_err ⟨rfl, rfl⟩
    · rintro e _ ⟨-, rfl⟩
      exact Or.inl ⟨e, rfl, fun h => absurd h hd, Leads.refl _⟩

theorem ensures_configureFdu (hs : s.Still) (hfree : ∀ p, (s.plugin p).locked = false) :
    Ensures z ok t (configureFdu z n p u) s
      (Publishes s n (∀ inst, (s.node n).getInstance u = .ok inst → inst.status = .defined → True)
        fun a inst' => a = u ∧ ∃ inst, (s.node n).getInstance u = .ok inst ∧
          inst.status = .defined ∧ ∃ netns interfaces cps, inst' = { inst with
            hypervisorSpecific := some (.dummy netns)
            interfaces
            connectionPoints := cps
            status := .configured }) := by
  apply ensures_publishing hs hfree
  intro inst b hb
  have hb' : b.Still := hb ▸ hs
  refine ensures_fduInfo hb' (fun d s₁ _ h₁ => ?_) fun e s₁ h₁ => Or.inl ⟨_, rfl, trivial, h₁⟩
  have hs₁ : s₁.Still := h₁.still hb'
  refine ensures_callNet hs₁ (fun ns => ?_) fun e _ => Or.inl ⟨_, rfl, trivial, h₁⟩
  refine ensures_bind (ensures_createConnectionPoints hs₁ _ _) ?_ ?_
  · rintro cps _ rfl
    refine ensures_bind (ensures_createInterfaces hs₁ _ _ _ _) ?_ ?_
    · rintro ifs _ rfl
      exact (ensures_store hb' h₁ _).mono fun _ _ h => Or.inr ⟨(), _, h.1, ⟨_, _, _, rfl⟩, h.2⟩
    · rintro e _ rfl
      exact Or.inl ⟨_, rfl, trivial, h₁⟩
  · rintro e _ rfl
    exact Or.inl ⟨_, rfl, trivial, h₁⟩

theorem ensures_undefineFdu (hs : s.Still) (hfree : ∀ p, (s.plugin p).locked = false) :
    Ensures z ok t (undefineFdu z n p u) s fun o s' =>
      (∃ e, o = .error e ∧ Leads s s.toStore s' ∧
        ∀ inst, (s.node n).getInstance u = .ok inst → inst.status ≠ .defined) ∨
      ∃ inst, (s.node n).getInstance u = .ok inst ∧ inst.status = .defined ∧ o = .ok u ∧
        Leads s (s.localDelete n inst.fduUuid inst.uuid) s' := by
  refine ensures_transition hs (fun inst s₁ hinst hst h₁ => ?_) fun e s₁ hbad h₁ =>
    Or.inl ⟨e, rfl, h₁, hbad⟩
  have hs₁ : s₁.Still := h₁.still hs
  have hfree₁ : (s₁.plugin p).locked = false := (h₁.locks p).trans (hfree p)
  refine ensures_withLock hs₁ hfree₁ (Ψ := fun o s' => o = .ok u ∧
    Leads (s₁.setLock p true) (s₁.localDelete n inst.fduUuid inst.uuid) s')
    (fun _ => (Leads.stable (hs₁.localDelete _ _ _)).and) ?_ ?_
  · refine ensures_bind (Ψ := fun o s' => o = .ok () ∧
      Leads (s₁.setLock p true) (s₁.localDelete n inst.fduUuid inst.uuid) s') ?_
      (fun _ s' h => ensures_pure ⟨rfl, h.2⟩) (fun _ _ h => by cases h.1)
    refine ensures_issue (P := (· = s₁.setLock p true)) (Store.Still.stable hs₁) rfl
      (fun s _ => ⟨.go, _, _, Fair.go, rfl⟩) ?_
    rintro _ ch r s₂ rfl - hx
    have h₂ : Leads (s₁.setLock p true) s₁.toStore s₂ := exec_remove hx ▸ (Leads.refl _).setFdus _ _
    have hget : (s₂.node n).getInstance u = .ok inst := by rw [h₂.store, h₁.store]; exact hinst
    refine ensures_ask_bind (h₂.still hs₁) (fun inst' hinst' => ?_) fun e he => ?_
    · simp only [Access.run, hget] at hinst'
      cases hinst'
      apply ensures_ask_final (h₂.still hs₁).stable rfl
      rintro _ rfl
      exact ⟨rfl, h₂.store ▸ h₂.withStore _⟩
    · simp only [Access.run, hget] at he
      cases he
  · rintro o s' ⟨rfl, hl⟩
    exact Or.inr ⟨inst, hinst, hst, rfl, h₁.trans (h₁.store ▸ hl.unlock hfree₁)⟩

theorem ensures_defineFdu (hs : s.Still) (hfree : ∀ p, (s.plugin p).locked = false)
    {fdu : FDUDescriptor} {f : Uuid} (hf : fdu.uuid = some f) :
    Ensures z ok t (defineFdu z n p fdu) s fun o s' =>
      ∃ u, u ∉ s.issued ∧ o = .ok (newInstance u f n) ∧
        Pending { s with issued := u :: s.issued } n (newInstance u f n) s' := by
  apply ensures_getNodeUuid hs
  intro s₁ h₁
  have hs₁ : s₁.Still := h₁.still hs
  have hfree₁ : (s₁.plugin p).locked = false := (h₁.locks p).trans (hfree p)
  refine ensures_withLock hs₁ hfree₁ (Ψ := fun o s' => ∃ u, u ∉ s₁.issued ∧
    o = .ok (newInstance u f n) ∧
    Pending { s₁.setLock p true with issued := u :: s₁.issued } n (newInstance u f n) s')
    (fun _ => .exists fun _ => .and (.and (Pending.stable hs₁))) ?_ ?_
  · apply ensures_newUuid (s := s₁.setLock p true) hs₁
    intro u hu
    rw [hf, unwrap_some_bind]
    refine ensures_bind (ensures_store (b := { s₁.setLock p true with issued := u :: s₁.issued })
      hs₁ (Leads.refl _) _) ?_ (fun _ _ h => by cases h.1)
    rintro _ s' ⟨-, hp⟩
    exact ensures_pure ⟨u, hu, rfl, hp⟩
  · rintro o s' ⟨u, hu, rfl, hp⟩
    refine ⟨u, fun h => hu (h₁.issued h), rfl, ?_⟩
    exact (hp.unlock (s := { s₁ with issued := u :: s₁.issued }) hfree₁).trans (h₁.cons u)

end DummyHypervisor

end Fog05
