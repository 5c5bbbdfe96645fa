import Fog05.Proofs.Plugin

/-! The lifecycle calls at the agent of the node that owns the instance, in a
settled state: nothing is on its way, and the global store mirrors the local
ones. A call ends settled again; in between, one record is ahead of its copy. -/

namespace Fog05

open Conc M Relation

structure Settled (s : Fos) : Prop where
  still : s.Still
  free : ∀ p, (s.plugin p).locked = false
  mirror : ∀ inst, inst ∈ s.global.instances ↔ inst ∈ (s.node inst.node).instances
  home : ∀ n, ∀ inst ∈ (s.node n).instances, inst.node = n
  unique : ∀ i ∈ s.global.instances, ∀ j ∈ s.global.instances, i.uuid = j.uuid → i = j
  issued : ∀ inst ∈ s.global.instances, inst.uuid ∈ s.issued

theorem Store.Still.withdraw {st : Store} (h : st.Still) (n : Uuid) (inst : FDURecord) :
    (st.withdraw n inst).Still :=
  (h.localDelete n inst.fduUuid inst.uuid).globalDelete _ _

theorem mem_publish_global {st : Store} {n : Uuid} {inst i : FDURecord} :
    i ∈ (st.publish n inst).global.instances ↔
      i = inst ∨ i ∈ st.global.instances ∧ i.path ≠ inst.path :=
  Table.mem_put

theorem mem_publish_local {st : Store} {n m : Uuid} {inst i : FDURecord} :
    i ∈ ((st.publish n inst).node m).instances ↔
      if m = n then i = inst ∨ i ∈ (st.node n).instances ∧ i.path ≠ inst.path
      else i ∈ (st.node m).instances := by
  simp only [Store.publish, Store.globalPut, Store.setNode, Function.update_apply]
  split
  · exact Table.mem_put
  · rfl

theorem mem_withdraw_global {st : Store} {n : Uuid} {inst i : FDURecord} :
    i ∈ (st.withdraw n inst).global.instances ↔
      i ∈ st.global.instances ∧ i.path ≠ inst.path :=
  Table.mem_erase

theorem mem_withdraw_local {st : Store} {n m : Uuid} {inst i : FDURecord} :
    i ∈ ((st.withdraw n inst).node m).instances ↔
      i ∈ (st.node m).instances ∧ (m = n → i.path ≠ inst.path) := by
  simp only [Store.withdraw, Store.globalDelete, Store.localDelete, Store.setNode,
    Function.update_apply]
  split
  · next h =>
    subst h
    exact Table.mem_erase.trans (by simp [FDURecord.path])
  · next h => simp [h]

namespace Settled

variable {s s' : Fos} {n u : Uuid} {inst inst' : FDURecord}

theorem getInstance (hs : Settled s) :
    s.global.getInstance u = .ok inst ↔ inst ∈ s.global.instances ∧ inst.uuid = u := by
  refine ⟨single_select_key, ?_⟩
  rintro ⟨hmem, rfl⟩
  exact (single_select_eq_ok fun j hj hu => hs.unique j hj inst hmem hu).2 ⟨hmem, rfl⟩

theorem mem_local (hs : Settled s) :
    inst ∈ (s.node n).instances ↔ inst ∈ s.global.instances ∧ inst.node = n := by
  constructor
  · intro hi
    have hn := hs.home n inst hi
    exact ⟨(hs.mirror inst).2 (hn.symm ▸ hi), hn⟩
  · rintro ⟨hi, rfl⟩
    exact (hs.mirror inst).1 hi

theorem localGetInstance (hs : Settled s) :
    (s.node n).getInstance u = .ok inst ↔
      inst ∈ s.global.instances ∧ inst.uuid = u ∧ inst.node = n := by
  constructor
  · intro h
    obtain ⟨hmem, hu⟩ := single_select_key h
    obtain ⟨hi, hn⟩ := hs.mem_local.1 hmem
    exact ⟨hi, hu, hn⟩
  · rintro ⟨hmem, rfl, rfl⟩
    refine (single_select_eq_ok fun j hj hu => ?_).2 ⟨(hs.mirror inst).1 hmem, rfl⟩
    exact hs.unique j (hs.mem_local.1 hj).1 inst hmem hu

theorem leads (hs : Settled s) (h : Leads s s.toStore s') : Settled s' := by
  obtain ⟨st, locks, issued, -, -⟩ := h
  have hg : s'.global = s.global := by rw [st]
  have hn : s'.node = s.node := by rw [st]
  refine ⟨st ▸ hs.still, fun p => (locks p).trans (hs.free p), ?_, ?_, ?_, ?_⟩
  · rw [hg, hn]; exact hs.mirror
  · rw [hn]; exact hs.home
  · rw [hg]; exact hs.unique
  · rw [hg]; exact fun i hi => issued (hs.issued i hi)

theorem publish (hs : Settled s) (h : Leads s (s.publish n inst) s') (hnode : inst.node = n)
    (hold : ∀ i ∈ s.global.instances, i.uuid = inst.uuid → i.path = inst.path ∧ i.node = n)
    (hissued : inst.uuid ∈ s'.issued) : Settled s' := by
  obtain ⟨st, locks, issued, -, -⟩ := h
  have hpath : ∀ {i : FDURecord}, i.path = inst.path → i.uuid = inst.uuid :=
    fun h => congrArg Prod.snd h
  refine ⟨st ▸ hs.still.publish n inst, fun p => (locks p).trans (hs.free p), ?_, ?_, ?_, ?_⟩
  · intro i
    rw [st, mem_publish_global, mem_publish_local]
    split
    · next hi => rw [hs.mirror i, hi]
    · next hi =>
      rw [← hs.mirror i]
      refine ⟨?_, fun hmem => Or.inr ⟨hmem, fun h => hi (hold i hmem (hpath h)).2⟩⟩
      rintro (rfl | h)
      · exact absurd hnode hi
      · exact h.1
  · intro m i hi
    rw [st, mem_publish_local] at hi
    split at hi
    · next hm =>
      subst hm
      rcases hi with rfl | hi
      · exact hnode
      · exact hs.home _ i hi.1
    · exact hs.home m i hi
  · intro i hi j hj hij
    rw [st, mem_publish_global] at hi hj
    rcases hi with rfl | ⟨hi, hpi⟩ <;> rcases hj with rfl | ⟨hj, hpj⟩
    · rfl
    · exact absurd (hold j hj hij.symm).1 hpj
    · exact absurd (hold i hi hij).1 hpi
    · exact hs.unique i hi j hj hij
  · intro i hi
    rw [st, mem_publish_global] at hi
    rcases hi with rfl | hi
    · exact hissued
    · exact issued (hs.issued i hi.1)

theorem withdraw (hs : Settled s) (h : Leads s (s.withdraw n inst) s')
    (hmem : inst ∈ s.global.instances) (hnode : inst.node = n) : Settled s' := by
  obtain ⟨st, locks, issued, -, -⟩ := h
  refine ⟨st ▸ hs.still.withdraw n inst,
    fun p => (locks p).trans (hs.free p), ?_, ?_, ?_, ?_⟩
  · intro i
    rw [st, mem_withdraw_global, mem_withdraw_local, ← hs.mirror i]
    refine and_congr_right fun hi => ⟨fun h _ => h, fun h hp => ?_⟩
    obtain rfl := hs.unique i hi inst hmem (congrArg Prod.snd hp)
    exact h hnode hp
  · intro m i hi
    rw [st, mem_withdraw_local] at hi
    exact hs.home m i hi.1
  · intro i hi j hj
    rw [st, mem_withdraw_global] at hi hj
    exact hs.unique i hi.1 j hj.1
  · intro i hi
    rw [st, mem_withdraw_global] at hi
    exact issued (hs.issued i hi.1)

end Settled

variable {z : Session} {ok : Choice → Prop} [Fair ok] {t : Prop} {s s₁ : Fos} {n u : Uuid}

/-- The polling loop, while the record it waits for is on its way: what the
global store still has does not settle it. -/
theorem ensures_poll (hs : s.Still) {awaited : FDUState} {inst : FDURecord}
    (hwait : settle awaited (s.global.getInstance u) = none)
    (hdone : (s.publish n inst).global.getInstance u = .ok inst) (hst : inst.status = awaited)
    (hp : Pending s n inst s₁) :
    Ensures z ok t (Prog.invoke (Proc.poll u awaited)) s₁ fun o s' =>
      o = .ok inst ∧ Leads s (s.publish n inst) s' := by
  have hsettle : settle awaited (.ok inst) = some (.ok inst) := by simp [settle, hst]
  have hread : ∀ s₂, Leads s (s.publish n inst) s₂ → s₂.global.getInstance u = .ok inst :=
    fun s₂ h => by rw [h.store]; exact hdone
  refine System.ensures_retry (Pending s n inst) rfl ?_ ?_ ?_ hp
  · rintro s₂ s₃ h ⟨m, hm⟩
    obtain ⟨st, hst', rfl⟩ := Option.map_eq_some_iff.1 hm
    exact Pending.stable hs s₂ m st h hst'
  · rintro s₂ r s₃ h ⟨ch, hch, hx⟩
    obtain ⟨-, hr⟩ | ⟨e, rfl, rfl, rfl⟩ := exec_access hx
    · cases hr
      rcases h with h | h
      · have hold : s₂.global = s.global := by rw [h.store]; rfl
        exact Or.inr ⟨by rw [hold]; exact hwait, Or.inl h⟩
      · exact Or.inl ⟨.ok inst, by rw [hread s₂ h, hsettle], Or.inl ⟨rfl, h⟩⟩
    · -- a failure that reads as "not found" is another round
      cases hf : settle awaited (.error e) with
      | none => exact Or.inr ⟨rfl, h⟩
      | some o =>
        obtain ⟨e', rfl⟩ := settle_error hf
        exact Or.inl ⟨_, rfl, Or.inr ⟨⟨e, hch⟩, e', rfl⟩⟩
  · intro _ s₂ h
    have last : ∀ s₃, Leads s (s.publish n inst) s₃ → ∃ r s₄ o,
        (system z ok).act (.access (.getInstance u)) s₃ r s₄ ∧ settle awaited r = some o :=
      fun s₃ h₃ => ⟨_, s₃, .ok inst, ⟨.go, Fair.go, rfl⟩, by rw [hread s₃ h₃, hsettle]⟩
    rcases h with h | h
    · obtain ⟨r, s₄, o, ha, ho⟩ := last _ (h.withStore (s.publish n inst))
      have hm := monitor_localPut_self hs n inst
      rw [← h.store] at hm
      exact ⟨_, r, s₄, o, .single ⟨n, by simp [machine, hm]⟩, ha, ho⟩
    · obtain ⟨r, s₄, o, ha, ho⟩ := last s₂ h
      exact ⟨s₂, r, s₄, o, .refl, ha, ho⟩

/-- The agent of node `n` knows `inst`, owns it, can dispatch to its plugin, and
has it in status `before`. -/
structure Ready (st : Store) (n : Uuid) (before : FDUState) (inst : FDURecord) : Prop where
  known : inst ∈ st.global.instances
  home : inst.node = n
  plugin : ∃ d p, st.global.getFdu inst.fduUuid = .ok d ∧
    (st.node n).hypervisors d.hypervisor = some p
  status : inst.status = before

/-- The call failed and left the stores as they were, and if the instance was
ready then for the reason `bad`; or both its copies became what `new` allows. -/
def Moves (s : Fos) (n u : Uuid) (before : FDUState) (bad : FDURecord → Prop)
    (new : FDURecord → FDURecord → Prop) (o : Except Exn FDURecord) (s' : Fos) : Prop :=
  (∃ e, o = .error e ∧ Leads s s.toStore s' ∧
    ∀ inst, Ready s.toStore n before inst → inst.uuid = u → bad inst) ∨
  ∃ inst inst', Ready s.toStore n before inst ∧ inst.uuid = u ∧ new inst inst' ∧
    o = .ok inst' ∧ Leads s (s.publish n inst') s'

/-- Every record of `u` is one of node `n`. -/
def Owned (s : Fos) (n u : Uuid) : Prop :=
  ∀ inst ∈ s.global.instances, inst.uuid = u → inst.node = n

theorem getInstance_publish {inst inst' : FDURecord}
    (h : s.global.getInstance u = .ok inst) (hpath : inst'.path = inst.path) :
    (s.publish n inst').global.getInstance u = .ok inst' :=
  single_eq_ok.2 (Table.select_put_of_single (single_eq_ok.1 h) hpath.symm)

/-- A later version of a record, in status `after`. -/
def Advances (after : FDUState) (inst inst' : FDURecord) : Prop :=
  inst'.path = inst.path ∧ inst'.node = inst.node ∧ inst'.status = after

theorem advances_status (inst : FDURecord) (after : FDUState) :
    Advances after inst { inst with status := after } :=
  ⟨rfl, rfl, rfl⟩

theorem advances_cleaned (inst : FDURecord) :
    Advances .defined inst (DummyHypervisor.cleaned inst) :=
  ⟨rfl, rfl, rfl⟩

/-- What `configure_fdu` makes of a record. -/
def Configured (inst inst' : FDURecord) : Prop :=
  ∃ netns interfaces cps, inst' = { inst with
    hypervisorSpecific := some (.dummy netns)
    interfaces
    connectionPoints := cps
    status := .configured }

theorem Configured.advances {inst inst' : FDURecord} (h : Configured inst inst') :
    Advances .configured inst inst' := by
  obtain ⟨_, _, _, rfl⟩ := h
  exact ⟨rfl, rfl, rfl⟩

theorem Configured.decodable {inst inst' : FDURecord} (h : Configured inst inst') :
    DummyHypervisor.Decodable inst' := by
  obtain ⟨netns, _, _, rfl⟩ := h
  exact ⟨netns, rfl⟩

/-- What the owner's agent does before it calls the plugin changes nothing. -/
theorem ensures_dispatch (hs : Settled s) (howned : Owned s n u) {svc : Uuid}
    {work : FDURecord → Uuid → M FDURecord} {forward : Uuid → M FDURecord}
    {Φ : Except Exn FDURecord → Fos → Prop}
    (hwork : ∀ inst p, inst.uuid = u → Ready s.toStore n inst.status inst →
      Ensures z ok t (work inst p) s Φ)
    (herr : ∀ e, (∀ inst, inst.uuid = u → ¬ Ready s.toStore n inst.status inst) →
      Φ (.error e) s) :
    Ensures z ok t (Agent.dispatch ⟨n, svc⟩ u work forward) s Φ := by
  refine ensures_ask_bind hs.still (fun inst hinst => ?_) fun e he => herr _ fun i hi hr => ?_
  · obtain ⟨hknown, hu⟩ := hs.getInstance.1 hinst
    have hhome : inst.node = n := howned inst hknown hu
    have only : ∀ i ∈ s.global.instances, i.uuid = u → i = inst := fun i hi hiu =>
      hs.unique i hi inst hknown (hiu.trans hu.symm)
    simp only [hhome, if_true]
    refine ensures_ask_bind hs.still (fun d hd => ?_) fun e he => herr _ fun i hi hr => ?_
    · apply ensures_hypervisor hs.still
      cases hp : (s.node n).hypervisors d.hypervisor with
      | none =>
        refine ensures_fail (herr _ fun i hi hr => ?_)
        obtain rfl := only i hr.known hi
        obtain ⟨d', p, hd', hp'⟩ := hr.plugin
        rw [show s.global.getFdu i.fduUuid = .ok d from hd] at hd'
        cases hd'
        rw [hp] at hp'
        cases hp'
      | some p =>
        rw [okOr_some_bind]
        exact hwork inst p hu ⟨hknown, hhome, ⟨d, p, hd, hp⟩, rfl⟩
    · obtain rfl := only i hr.known hi
      obtain ⟨d', p, hd', -⟩ := hr.plugin
      rw [show s.global.getFdu i.fduUuid = .error e from he] at hd'
      cases hd'
  · have := hs.getInstance.2 ⟨hr.known, hi⟩
    rw [show s.global.getInstance u = .error e from he] at this
    cases this

theorem Ready.localGetInstance (hs : Settled s) {before : FDUState} {inst : FDURecord}
    (hr : Ready s.toStore n before inst) : (s.node n).getInstance inst.uuid = .ok inst :=
  hs.localGetInstance.2 ⟨hr.known, rfl, hr.home⟩

theorem ensures_move (hs : Settled s) (howned : Owned s n u) {svc : Uuid}
    {q : PluginRequest} {before awaited : FDUState} {forward : Uuid → M FDURecord}
    {bad : FDURecord → Prop} {new : FDURecord → FDURecord → Prop}
    (hcall : ∀ p, Ensures z ok t (DummyHypervisor.call z n p q) s (Publishes s n
      (∀ inst, (s.node n).getInstance u = .ok inst → inst.status = before → bad inst)
      fun _ inst' => ∃ inst, (s.node n).getInstance u = .ok inst ∧
        inst.status = before ∧ new inst inst'))
    (hbefore : before ≠ awaited) (herror : ∀ e, before ≠ .error e)
    (hnew : ∀ inst inst', new inst inst' → Advances awaited inst inst') :
    Ensures z ok t
      (Agent.dispatch ⟨n, svc⟩ u (fun _ => Agent.move z ⟨n, svc⟩ q awaited u) forward) s
      (Moves s n u before bad new) := by
  refine ensures_dispatch hs howned (fun inst p hu hready => ?_) fun e h =>
    Or.inl ⟨e, rfl, Leads.refl s, fun i hr hi => absurd (hr.status.symm ▸ hr) (h i hi)⟩
  subst hu
  have hlocal := hready.localGetInstance hs
  refine ensures_bind (hcall p) ?_ ?_
  · rintro _ s₁ (⟨e, he, -⟩ | ⟨a, inst', -, ⟨i, hi, hst, hn⟩, hp₁⟩)
    · cases he
    · rw [hlocal] at hi
      cases hi
      obtain ⟨hpath, -, hst'⟩ := hnew inst inst' hn
      have hget := hs.getInstance.2 ⟨hready.known, rfl⟩
      refine (ensures_poll hs.still ?_ (getInstance_publish hget hpath) hst' hp₁).mono ?_
      · rw [hget]
        exact settle_of_ne (hst ▸ hbefore) (hst ▸ herror)
      · rintro o s' ⟨rfl, hl⟩
        exact Or.inr ⟨inst, inst', hst ▸ hready, rfl, hn, rfl, hl⟩
  · rintro e s₁ (⟨e', he, hbad, hl⟩ | ⟨_, _, h, -⟩)
    · cases he
      refine Or.inl ⟨e, rfl, hl, fun i hr hi => ?_⟩
      exact hbad i (hi ▸ hr.localGetInstance hs) hr.status
    · cases h

theorem Moves.stable (hs : s.Still) {before : FDUState} {bad : FDURecord → Prop}
    {new : FDURecord → FDURecord → Prop} (o : Except Exn FDURecord) :
    Stable (Moves s n u before bad new o) := by
  rintro s' m st (⟨e, ho, hl, hbad⟩ | ⟨i, i', hr, hu, hn, ho, hl⟩) hm
  · exact Or.inl ⟨e, ho, Leads.stable hs s' m st hl hm, hbad⟩
  · exact Or.inr ⟨i, i', hr, hu, hn, ho, Leads.stable (hs.publish n i') s' m st hl hm⟩

theorem Moves.received {before : FDUState} {bad : FDURecord → Prop}
    {new : FDURecord → FDURecord → Prop} {o : Except Exn FDURecord} {s' : Fos}
    (h : Moves s n u before bad new o s') (l : List ((q : Rpc) × Except FError q.Ret)) :
    Moves s n u before bad new ((received z o).mapError .err) { s' with replies := l } := by
  obtain ⟨e, rfl, hl, hbad⟩ | ⟨i, i', hr, hu, hn, rfl, hl⟩ := h
  · cases e with
    | err e => exact Or.inl ⟨_, rfl, hl.replies l, hbad⟩
    | panic => exact Or.inl ⟨_, rfl, hl.replies l, hbad⟩
  · exact Or.inr ⟨i, i', hr, hu, hn, rfl, hl.replies l⟩

section Calls

variable (hs : Settled s) (howned : Owned s n u) {svc : Uuid}

include hs howned

theorem ensures_configureFdu : Ensures z ok t (Agent.configureFdu z ⟨n, svc⟩ u) s
    (Moves s n u .defined (fun _ => True) Configured) := by
  refine ensures_move hs howned (fun p => ?_) (by simp) (by simp) fun _ _ h => h.advances
  exact ensures_remote hs.still (DummyHypervisor.ensures_configureFdu hs.still hs.free)
    (Publishes.stable hs.still) fun _ _ l h => (h.received l).mono fun _ _ h => h.2

theorem ensures_startFdu : Ensures z ok t (Agent.startFdu z ⟨n, svc⟩ u) s
    (Moves s n u .configured (fun _ => False) fun inst inst' =>
      inst' = { inst with status := .running }) := by
  refine ensures_move hs howned (fun p => ?_) (by simp) (by simp)
    fun _ _ h => h ▸ advances_status _ _
  exact ensures_remote hs.still (DummyHypervisor.ensures_startFdu hs.still hs.free)
    (Publishes.stable hs.still) fun _ _ l h => (h.received l).mono fun _ _ h => h.2

theorem ensures_stopFdu : Ensures z ok t (Agent.stopFdu z ⟨n, svc⟩ u) s
    (Moves s n u .running (fun _ => False) fun inst inst' =>
      inst' = { inst with status := .configured }) := by
  refine ensures_move hs howned (fun p => ?_) (by simp) (by simp)
    fun _ _ h => h ▸ advances_status _ _
  exact ensures_remote hs.still (DummyHypervisor.ensures_stopFdu hs.still hs.free)
    (Publishes.stable hs.still) fun _ _ l h => (h.received l).mono fun _ _ h => h.2

theorem ensures_cleanFdu : Ensures z ok t (Agent.cleanFdu z ⟨n, svc⟩ u) s
    (Moves s n u .configured
      (fun inst => DummyHypervisor.Decodable inst → ∃ e, ok (.net (.error e)))
      fun inst inst' => inst' = DummyHypervisor.cleaned inst) := by
  refine ensures_move hs howned (fun p => ?_) (by simp) (by simp)
    fun _ _ h => h ▸ advances_cleaned _
  exact ensures_remote hs.still (DummyHypervisor.ensures_cleanFdu hs.still hs.free)
    (Publishes.stable hs.still) fun _ _ l h => (h.received l).mono fun _ _ h => h.2

end Calls

/-- The outcome of `undefine_fdu`: both copies of a defined instance are gone, or
there was none that is ready and nothing has changed. -/
def Removes (s : Fos) (n u : Uuid) (o : Except Exn FDURecord) (s' : Fos) : Prop :=
  (∃ e, o = .error e ∧ Leads s s.toStore s' ∧
    ∀ inst, Ready s.toStore n .defined inst → inst.uuid ≠ u) ∨
  ∃ inst, Ready s.toStore n .defined inst ∧ inst.uuid = u ∧ o = .ok inst ∧
    Leads s (s.withdraw n inst) s'

theorem Removes.stable (hs : s.Still) (o : Except Exn FDURecord) : Stable (Removes s n u o) := by
  rintro s' m st (⟨e, ho, hl, hbad⟩ | ⟨i, hr, hu, ho, hl⟩) hm
  · exact Or.inl ⟨e, ho, Leads.stable hs s' m st hl hm, hbad⟩
  · exact Or.inr ⟨i, hr, hu, ho, Leads.stable (hs.withdraw n i) s' m st hl hm⟩

theorem Removes.received {o : Except Exn FDURecord} {s' : Fos} (h : Removes s n u o s')
    (l : List ((q : Rpc) × Except FError q.Ret)) :
    Removes s n u ((received z o).mapError .err) { s' with replies := l } := by
  obtain ⟨e, rfl, hl, hbad⟩ | ⟨i, hr, hu, rfl, hl⟩ := h
  · cases e with
    | err e => exact Or.inl ⟨_, rfl, hl.replies l, hbad⟩
    | panic => exact Or.inl ⟨_, rfl, hl.replies l, hbad⟩
  · exact Or.inr ⟨i, hr, hu, rfl, hl.replies l⟩

theorem ensures_call_undefineFdu (hs : Settled s) {p : Uuid} :
    Ensures z ok t (DummyHypervisor.call z n p (.undefineFdu u)) s fun o s' =>
      (∃ e, o = .error e ∧ Leads s s.toStore s' ∧
        ∀ inst, (s.node n).getInstance u = .ok inst → inst.status ≠ .defined) ∨
      ∃ inst, (s.node n).getInstance u = .ok inst ∧ inst.status = .defined ∧ o = .ok u ∧
        Leads s (s.localDelete n inst.fduUuid inst.uuid) s' := by
  refine ensures_remote hs.still (DummyHypervisor.ensures_undefineFdu hs.still hs.free) ?_ ?_
  · rintro o s' m st (⟨e, ho, hl, hbad⟩ | ⟨i, hi, hst, ho, hl⟩) hm
    · exact Or.inl ⟨e, ho, Leads.stable hs.still s' m st hl hm, hbad⟩
    · exact Or.inr ⟨i, hi, hst, ho, Leads.stable (hs.still.localDelete _ _ _) s' m st hl hm⟩
  · rintro o s' l (⟨e, rfl, hl, hbad⟩ | ⟨i, hi, hst, rfl, hl⟩)
    · cases e with
      | err e => exact Or.inl ⟨_, rfl, hl.replies l, hbad⟩
      | panic => exact Or.inl ⟨_, rfl, hl.replies l, hbad⟩
    · exact Or.inr ⟨i, hi, hst, rfl, hl.replies l⟩

theorem ensures_undefineFdu (hs : Settled s) (howned : Owned s n u) {svc : Uuid} :
    Ensures z ok t (Agent.undefineFdu z ⟨n, svc⟩ u) s (Removes s n u) := by
  refine ensures_dispatch hs howned (fun inst p hu hready => ?_) fun e h =>
    Or.inl ⟨e, rfl, Leads.refl s, fun i hr hi => h i hi (hr.status.symm ▸ hr)⟩
  subst hu
  have hlocal := hready.localGetInstance hs
  refine ensures_bind (ensures_call_undefineFdu hs) ?_ ?_
  · rintro _ s₁ (⟨e, he, -⟩ | ⟨i, hi, hst, -, hl⟩)
    · cases he
    · rw [hlocal] at hi
      cases hi
      have hs₁ : s₁.Still := hl.still (hs.still.localDelete _ _ _)
      have hg : s₁.global = s.global := by rw [hl.store]; rfl
      refine ensures_bind (Ψ := fun o s' => o = .ok () ∧ Leads s (s.withdraw n inst) s') ?_
        (fun _ s' h => ensures_pure (Or.inr ⟨inst, hst ▸ hready, rfl, rfl, h.2⟩))
        (fun _ _ h => by cases h.1)
      refine ensures_ask_bind hs₁ (fun i hi => ?_) fun e he => ?_
      · have hi' : s₁.global.getInstance inst.uuid = .ok i := hi
        rw [hg, hs.getInstance.2 ⟨hready.known, rfl⟩] at hi'
        cases hi'
        apply ensures_ask_final hs₁.stable rfl
        rintro _ rfl
        exact ⟨rfl, by rw [Store.withdraw, ← hl.store]; exact hl.withStore _⟩
      · have he' : s₁.global.getInstance inst.uuid = .error e := he
        rw [hg, hs.getInstance.2 ⟨hready.known, rfl⟩] at he'
        cases he'
  · rintro e s₁ (⟨e', he, hl, hbad⟩ | ⟨_, _, _, h, -⟩)
    · cases he
      refine Or.inl ⟨e, rfl, hl, fun i hr hi => hbad i (hi ▸ hr.localGetInstance hs) hr.status⟩
    · cases h

theorem getFdu_uuid {g : Global} {f : Uuid} {d : FDUDescriptor} (h : g.getFdu f = .ok d) :
    d.uuid = some f :=
  (single_select_key h).2

/-- The outcome of `define_fdu`: it failed and changed nothing, or both stores have
a new instance under a fresh uuid. -/
def Creates (s : Fos) (n f : Uuid) (o : Except Exn FDURecord) (s' : Fos) : Prop :=
  (∃ e, o = .error e ∧ Leads s s.toStore s') ∨
  ∃ u, u ∉ s.issued ∧ u ∈ s'.issued ∧ o = .ok (DummyHypervisor.newInstance u f n) ∧
    Leads s (s.publish n (DummyHypervisor.newInstance u f n)) s'

theorem ensures_defineFdu (hs : Settled s) {f svc : Uuid} :
    Ensures z ok t (Agent.defineFdu z ⟨n, svc⟩ f) s (Creates s n f) := by
  refine ensures_ask_bind hs.still (fun d hd => ?_) fun e _ => Or.inl ⟨_, rfl, Leads.refl s⟩
  apply ensures_hypervisor hs.still
  cases (s.node n).hypervisors d.hypervisor with
  | none => exact ensures_fail (Or.inl ⟨_, rfl, Leads.refl s⟩)
  | some p =>
    rw [okOr_some_bind]
    refine ensures_bind (Ψ := fun o s' => ∃ u, u ∉ s.issued ∧
      o = .ok (DummyHypervisor.newInstance u f n) ∧
      Pending { s with issued := u :: s.issued } n (DummyHypervisor.newInstance u f n) s') ?_ ?_
      (fun _ _ ⟨_, _, h, _⟩ => by cases h)
    · refine ensures_remote hs.still
        (DummyHypervisor.ensures_defineFdu hs.still hs.free (getFdu_uuid hd))
        (fun _ => .exists fun _ => .and (.and (Pending.stable hs.still))) ?_
      rintro o s' l ⟨u, hu, rfl, hp⟩
      exact ⟨u, hu, rfl, hp.replies l⟩
    · rintro _ s₁ ⟨u, hu, h, hp⟩
      cases h
      have hnone : s.global.instances.select (fun path => path.2 = u) = [] := by
        rw [List.eq_nil_iff_forall_not_mem]
        intro i hi
        obtain ⟨hmem, rfl⟩ := Table.mem_select.1 hi
        exact hu (hs.issued i hmem)
      have hget : s.global.getInstance u = .error .notFound := single_eq_notFound.2 hnone
      refine (ensures_poll (s := { s with issued := u :: s.issued }) hs.still ?_ ?_ rfl hp).mono ?_
      · exact congrArg (settle .defined) hget
      · exact single_eq_ok.2 (Table.select_put_of_nil hnone rfl)
      · rintro o s' ⟨rfl, hl⟩
        exact Or.inr ⟨u, hu, hl.issued (List.mem_cons_self ..), rfl,
          ⟨hl.store, hl.locks, fun v hv => hl.issued (List.mem_cons_of_mem _ hv), hl.tasks,
            hl.writes⟩⟩

end Fog05
