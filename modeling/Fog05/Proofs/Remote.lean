import Fog05.Proofs.Refinement

/-! Lifecycle calls as an entity task makes them: remote, to the agent of the
node that owns the instance. What a call touches is bounded by `Only`. -/

namespace Fog05

open Conc M

/-- A settled state that differs from `s` only in records of the `touched` uuids. -/
structure Only (touched : Uuid → Prop) (s s' : Fos) : Prop where
  settled : Settled s'
  same : ∀ inst, ¬ touched inst.uuid →
    (inst ∈ s'.global.instances ↔ inst ∈ s.global.instances)
  rest : s'.global = { s.global with instances := s'.global.instances }
  hypervisors : ∀ n, (s'.node n).hypervisors = (s.node n).hypervisors
  issued : s.issued ⊆ s'.issued
  tasks : s'.tasks = s.tasks
  writes : s'.writes = s.writes

variable {s s₁ s' : Fos} {n u svc : Uuid} {P Q : Uuid → Prop}

namespace Only

theorem refl (hs : Settled s) : Only P s s :=
  ⟨hs, fun _ _ => Iff.rfl, rfl, fun _ => rfl, List.Subset.refl _, rfl, rfl⟩

theorem trans (h : Only P s s₁) (h' : Only P s₁ s') : Only P s s' where
  settled := h'.settled
  same inst hi := (h'.same inst hi).trans (h.same inst hi)
  rest := by rw [h'.rest, h.rest]
  hypervisors n := (h'.hypervisors n).trans (h.hypervisors n)
  issued := List.Subset.trans h.issued h'.issued
  tasks := h'.tasks.trans h.tasks
  writes := h'.writes.trans h.writes

theorem mono (h : Only P s s') (hPQ : ∀ u, P u → Q u) : Only Q s s' :=
  { h with same := fun inst hi => h.same inst fun hp => hi (hPQ _ hp) }

theorem of_leads (hs : Settled s) (h : Leads s s.toStore s') : Only P s s' where
  settled := hs.leads h
  same inst _ := by rw [h.store]
  rest := by rw [h.store]
  hypervisors n := by rw [h.store]
  issued := h.issued
  tasks := h.tasks
  writes := h.writes

theorem fdus (h : Only P s s') : s'.global.fdus = s.global.fdus := by rw [h.rest]

theorem nodes (h : Only P s s') : s'.global.nodes = s.global.nodes := by rw [h.rest]

end Only

theorem publish_hypervisors (st : Store) (n m : Uuid) (inst : FDURecord) :
    ((st.publish n inst).node m).hypervisors = (st.node m).hypervisors := by
  simp only [Store.publish, Store.globalPut, Store.setNode, Function.update_apply]
  split
  · next h => rw [h]
  · rfl

theorem withdraw_hypervisors (st : Store) (n m : Uuid) (inst : FDURecord) :
    ((st.withdraw n inst).node m).hypervisors = (st.node m).hypervisors := by
  simp only [Store.withdraw, Store.globalDelete, Store.localDelete, Store.setNode,
    Function.update_apply]
  split
  · next h => rw [h]
  · rfl

theorem Only.of_publish (hs : Settled s') {inst : FDURecord}
    (h : Leads s (s.publish n inst) s') (hold : ∀ i ∈ s.global.instances,
      i.path = inst.path → P i.uuid) (hP : P inst.uuid) : Only P s s' where
  settled := hs
  same i hi := by
    rw [h.store, mem_publish_global]
    refine ⟨?_, fun hmem => Or.inr ⟨hmem, fun hp => hi (hold i hmem hp)⟩⟩
    rintro (rfl | hmem)
    · exact absurd hP hi
    · exact hmem.1
  rest := by rw [h.store]; rfl
  hypervisors m := by rw [h.store, publish_hypervisors]
  issued := h.issued
  tasks := h.tasks
  writes := h.writes

theorem Only.of_withdraw (hs : Settled s') {inst : FDURecord}
    (h : Leads s (s.withdraw n inst) s') (hP : P inst.uuid) : Only P s s' where
  settled := hs
  same i hi := by
    rw [h.store, mem_withdraw_global]
    refine ⟨fun hmem => hmem.1, fun hmem => ⟨hmem, fun hp => hi ?_⟩⟩
    rw [show i.uuid = inst.uuid from congrArg Prod.snd hp]
    exact hP
  rest := by rw [h.store]; rfl
  hypervisors m := by rw [h.store, withdraw_hypervisors]
  issued := h.issued
  tasks := h.tasks
  writes := h.writes

theorem Settled.owned (hs : Settled s) {inst : FDURecord} (hknown : inst ∈ s.global.instances) :
    Owned s inst.node inst.uuid := fun i hi hu => by
  rw [hs.unique i hi inst hknown hu]

theorem Ready.owned (hs : Settled s) {before : FDUState} {inst : FDURecord}
    (hr : Ready s.toStore n before inst) : Owned s n inst.uuid :=
  hr.home ▸ hs.owned hr.known

theorem Ready.eq (hs : Settled s) {before before' : FDUState} {m : Uuid} {inst inst' : FDURecord}
    (hr : Ready s.toStore n before inst) (hr' : Ready s.toStore m before' inst')
    (hu : inst.uuid = inst'.uuid) : inst = inst' :=
  hs.unique inst hr.known inst' hr'.known hu

theorem Ready.update {before after : FDUState} {inst inst' : FDURecord}
    (hr : Ready s.toStore n before inst) (h : Leads s (s.publish n inst') s')
    (hpath : inst'.path = inst.path) (hnode : inst'.node = inst.node)
    (hst : inst'.status = after) : Ready s'.toStore n after inst' := by
  obtain ⟨-, hhome, ⟨d, p, hd, hp⟩, -⟩ := hr
  refine ⟨?_, hnode.trans hhome, ⟨d, p, ?_, ?_⟩, hst⟩
  · rw [h.store]
    exact mem_publish_global.2 (Or.inl rfl)
  · rw [h.store, show inst'.fduUuid = inst.fduUuid from congrArg Prod.fst hpath]
    exact hd
  · rw [h.store, publish_hypervisors]
    exact hp

theorem Ready.transfer {st : FDUState} {inst : FDURecord} (hr : Ready s.toStore n st inst)
    (hknown : inst ∈ s'.global.instances)
    (hfdu : s'.global.getFdu inst.fduUuid = s.global.getFdu inst.fduUuid)
    (hhypervisors : (s'.node n).hypervisors = (s.node n).hypervisors) :
    Ready s'.toStore n st inst := by
  obtain ⟨-, hhome, ⟨d, p, hd, hp⟩, hst⟩ := hr
  exact ⟨hknown, hhome, ⟨d, p, hfdu.trans hd, hhypervisors ▸ hp⟩, hst⟩

theorem Ready.only {st : FDUState} {inst : FDURecord} (hr : Ready s.toStore n st inst)
    (h : Only P s s') (hu : ¬ P inst.uuid) : Ready s'.toStore n st inst :=
  hr.transfer ((h.same inst hu).2 hr.known) (by rw [Global.getFdu, h.fdus, Global.getFdu])
    (h.hypervisors n)

/-- The outcome of a call that moves instance `u`: it failed and changed no
store, or it returned the record, ready in its new status. -/
def Moved (s : Fos) (n u : Uuid) (before after : FDUState) (bad : FDURecord → Prop)
    (new : FDURecord → FDURecord → Prop) (o : Except Exn FDURecord) (s' : Fos) : Prop :=
  Only (· = u) s s' ∧
    ((∃ e, o = .error e ∧ s'.toStore = s.toStore ∧
      ∀ inst, Ready s.toStore n before inst → inst.uuid = u → bad inst) ∨
    ∃ inst inst', Ready s.toStore n before inst ∧ inst.uuid = u ∧ new inst inst' ∧
      o = .ok inst' ∧ Ready s'.toStore n after inst' ∧ inst'.uuid = u)

theorem Moves.moved (hs : Settled s) {before after : FDUState} {bad : FDURecord → Prop}
    {new : FDURecord → FDURecord → Prop} {o : Except Exn FDURecord}
    (h : Moves s n u before bad new o s')
    (hnew : ∀ inst inst', new inst inst' → Advances after inst inst') :
    Moved s n u before after bad new o s' := by
  obtain ⟨e, rfl, hl, hbad⟩ | ⟨inst, inst', hr, rfl, hn, rfl, hl⟩ := h
  · exact ⟨Only.of_leads hs hl, Or.inl ⟨e, rfl, hl.store, hbad⟩⟩
  · obtain ⟨hpath, hnode, hst⟩ := hnew inst inst' hn
    have hu : inst'.uuid = inst.uuid := congrArg Prod.snd hpath
    refine ⟨Only.of_publish (hs.update hl hr.known hr.home hpath hnode) hl ?_ hu, Or.inr
      ⟨inst, inst', hr, rfl, hn, rfl, hr.update hl hpath hnode hst, hu⟩⟩
    intro i _ hi
    exact (congrArg Prod.snd hi).trans hu

/-- The outcome of a call that removes instance `u`. -/
def Removed (s : Fos) (n u : Uuid) (o : Except Exn FDURecord) (s' : Fos) : Prop :=
  Only (· = u) s s' ∧
    ((∃ e, o = .error e ∧ s'.toStore = s.toStore ∧
      ∀ inst, Ready s.toStore n .defined inst → inst.uuid ≠ u) ∨
    ∃ inst, o = .ok inst ∧ ∀ i ∈ s'.global.instances, i.uuid ≠ u)

theorem Removes.removed (hs : Settled s) {o : Except Exn FDURecord} (h : Removes s n u o s') :
    Removed s n u o s' := by
  have hc := (h.completes hs).2
  obtain ⟨e, rfl, hl, hbad⟩ | ⟨inst, hr, rfl, rfl, hl⟩ := h
  · exact ⟨Only.of_leads hs hl, Or.inl ⟨e, rfl, hl.store, hbad⟩⟩
  · exact ⟨Only.of_withdraw (hs.withdraw hl hr.known hr.home) hl rfl, Or.inr ⟨inst, rfl, hc.2⟩⟩

variable {z : Session} {ok : Choice → Prop} [Fair ok] {t : Prop}

theorem ensures_rpc (hs : s.Still) (hsvc : z.server svc = some n) {q : Request}
    {Ψ Φ : Except Exn q.Ret → Fos → Prop}
    (h : Ensures z ok t (Agent.handle z ⟨n, svc⟩ q) s Ψ) (hstable : ∀ o, Stable (Ψ o))
    (hΦ : ∀ o s' l, Ψ o s' → Φ ((received z o).mapError .err) { s' with replies := l }) :
    Ensures z ok t (rpc z svc q) s Φ :=
  ensures_remote hs (ensures_invoke hs hsvc h) hstable hΦ

section Calls

variable (hs : Settled s) (howned : Owned s n u) (hsvc : z.server svc = some n)

include hs howned hsvc

theorem ensures_rpc_configureFdu : Ensures z ok t (rpc z svc (.configureFdu u)) s
    (Moved s n u .defined .configured (fun _ => True) Configured) :=
  ensures_rpc hs.still hsvc (ensures_configureFdu hs howned) (Moves.stable hs.still)
    fun _ _ l h => (h.received l).moved hs fun _ _ h => h.advances

theorem ensures_rpc_startFdu : Ensures z ok t (rpc z svc (.startFdu u)) s
    (Moved s n u .configured .running (fun _ => False) fun inst inst' =>
      inst' = { inst with status := .running }) :=
  ensures_rpc hs.still hsvc (ensures_startFdu hs howned) (Moves.stable hs.still)
    fun _ _ l h => (h.received l).moved hs fun _ _ h => h ▸ advances_status _ _

theorem ensures_rpc_stopFdu : Ensures z ok t (rpc z svc (.stopFdu u)) s
    (Moved s n u .running .configured (fun _ => False) fun inst inst' =>
      inst' = { inst with status := .configured }) :=
  ensures_rpc hs.still hsvc (ensures_stopFdu hs howned) (Moves.stable hs.still)
    fun _ _ l h => (h.received l).moved hs fun _ _ h => h ▸ advances_status _ _

theorem ensures_rpc_cleanFdu : Ensures z ok t (rpc z svc (.cleanFdu u)) s
    (Moved s n u .configured .defined
      (fun inst => DummyHypervisor.Decodable inst → ∃ e, ok (.net (.error e)))
      fun inst inst' => inst' = DummyHypervisor.cleaned inst) :=
  ensures_rpc hs.still hsvc (ensures_cleanFdu hs howned) (Moves.stable hs.still)
    fun _ _ l h => (h.received l).moved hs fun _ _ h => h ▸ advances_cleaned _

theorem ensures_rpc_undefineFdu : Ensures z ok t (rpc z svc (.undefineFdu u)) s
    (Removed s n u) :=
  ensures_rpc hs.still hsvc (ensures_undefineFdu hs howned) (Removes.stable hs.still)
    fun _ _ l h => (h.received l).removed hs

end Calls

namespace Agent

variable {inst : FDURecord}

/-- Configuring and starting an instance: on success it is running, and its
namespace is on record. -/
theorem ensures_bringUp (hs : Settled s) (hsvc : z.server svc = some n)
    (hknown : inst ∈ s.global.instances) (hhome : inst.node = n) :
    Ensures z ok t (bringUp z svc inst.uuid) s fun o s' =>
      Only (· = inst.uuid) s s' ∧ (o = .ok () → ∃ inst', inst'.path = inst.path ∧
        Ready s'.toStore n .running inst' ∧ DummyHypervisor.Decodable inst') := by
  refine ensures_bind (ensures_rpc_configureFdu hs (hhome ▸ hs.owned hknown) hsvc) ?_
    fun e s₁ h => ⟨h.1, nofun⟩
  rintro i s₁ ⟨honly, ⟨_, h, -⟩ | ⟨j, i', hj, hju, hconf, h, hi, hiu⟩⟩ <;> cases h
  obtain rfl := hs.unique j hj.known inst hknown hju
  have hs₁ := honly.settled
  refine ensures_bind (ensures_rpc_startFdu hs₁ (hiu ▸ hi.owned hs₁) hsvc) ?_
    fun e s₂ h => ⟨honly.trans h.1, nofun⟩
  rintro i' s₂ ⟨honly', ⟨_, h, -⟩ | ⟨k, i'', hk, hku, rfl, h, hi', -⟩⟩ <;> cases h
  obtain rfl := hk.eq hs₁ hi (hku.trans hiu.symm)
  exact ensures_pure ⟨honly.trans honly', fun _ =>
    ⟨{ k with status := .running }, hconf.advances.1, hi', hconf.decodable⟩⟩

/-- Taking an instance down: on success it is gone, and it does succeed on a
running instance when the networking plugin does what it is asked. -/
theorem ensures_takeDown (hs : Settled s) (hsvc : z.server svc = some n) (howned : Owned s n u) :
    Ensures z ok t (takeDown z svc u) s fun o s' =>
      Only (· = u) s s' ∧ (o = .ok () → ∀ i ∈ s'.global.instances, i.uuid ≠ u) ∧
      ((∀ e, ¬ ok (.net (.error e))) → ∀ inst, Ready s.toStore n .running inst →
        inst.uuid = u → DummyHypervisor.Decodable inst → o = .ok ()) := by
  refine ensures_bind (ensures_rpc_stopFdu hs howned hsvc) ?_ ?_
  · rintro i s₁ ⟨honly, ⟨_, h, -⟩ | ⟨j, i', hj, hju, hstop, h, hi, hiu⟩⟩ <;> cases h
    have hs₁ := honly.settled
    have howned₁ : Owned s₁ n u := hiu ▸ hi.owned hs₁
    refine ensures_bind (ensures_rpc_cleanFdu hs₁ howned₁ hsvc) ?_ ?_
    · rintro i' s₂ ⟨honly', ⟨_, h, -⟩ | ⟨k, i'', hk, hku, hclean, h, hi', hiu'⟩⟩ <;> cases h
      have hs₂ := honly'.settled
      refine ensures_bind (ensures_rpc_undefineFdu hs₂ (hiu' ▸ hi'.owned hs₂) hsvc) ?_ ?_
      · rintro i'' s₃ ⟨honly'', ⟨_, h, -⟩ | ⟨_, h, hgone⟩⟩ <;> cases h
        exact ensures_pure ⟨(honly.trans honly').trans honly'', fun _ => hgone,
          fun _ _ _ _ _ => rfl⟩
      · rintro e s₃ ⟨honly'', ⟨_, h, -, hbad⟩ | ⟨_, h, -⟩⟩ <;> cases h
        exact ⟨(honly.trans honly').trans honly'', nofun,
          fun _ _ _ _ _ => absurd hiu' (hbad _ hi')⟩
    · rintro e s₂ ⟨honly', ⟨_, h, -, hbad⟩ | ⟨_, _, _, _, _, h, -⟩⟩ <;> cases h
      refine ⟨honly.trans honly', nofun, fun hnet inst hr hu hd => ?_⟩
      obtain rfl := hj.eq hs hr (hju.trans hu.symm)
      obtain ⟨e', he'⟩ := hbad i hi hiu (hstop ▸ hd)
      exact absurd he' (hnet e')
  · rintro e s₁ ⟨honly, ⟨_, h, -, hbad⟩ | ⟨_, _, _, _, _, h, -⟩⟩ <;> cases h
    exact ⟨honly, nofun, fun _ inst hr hu _ => (hbad inst hr hu).elim⟩

end Agent

end Fog05
