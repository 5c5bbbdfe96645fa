import Fog05.Proofs.Boot

/-! Runs of lifecycle calls that do not overlap. Each call starts and ends in a
settled state, so the global instance view is that of the local stores whenever
a call returns, however the monitoring tasks are scheduled. -/

namespace Fog05

open Conc M

inductive Op
  | define (fduUuid : Uuid)
  | configure (instanceUuid : Uuid)
  | start (instanceUuid : Uuid)
  | stop (instanceUuid : Uuid)
  | clean (instanceUuid : Uuid)
  | undefine (instanceUuid : Uuid)

namespace Op

def call (service : Uuid) : Op → M FDURecord
  | .define f => Prog.invoke (Proc.agent service (.defineFdu f))
  | .configure u => Prog.invoke (Proc.agent service (.configureFdu u))
  | .start u => Prog.invoke (Proc.agent service (.startFdu u))
  | .stop u => Prog.invoke (Proc.agent service (.stopFdu u))
  | .clean u => Prog.invoke (Proc.agent service (.cleanFdu u))
  | .undefine u => Prog.invoke (Proc.agent service (.undefineFdu u))

/-- The instance it names, if it exists, is one of node `n`. -/
def Owned (s : Fos) (n : Uuid) : Op → Prop
  | .define _ => True
  | .configure u | .start u | .stop u | .clean u | .undefine u => Fog05.Owned s n u

/-- The instance whose stored record has this uuid and this status. -/
def Stored (s : Fos) (u : Uuid) (status : FDUState) (inst : FDURecord) : Prop :=
  inst ∈ s.global.instances ∧ inst.uuid = u ∧ inst.status = status

/-- What a successful call from `s` to `s'` returns: the stored record in the
awaited status; for `undefine` the record that there is no longer. -/
def Returns (s s' : Fos) (inst : FDURecord) : Op → Prop
  | .define f => Stored s' inst.uuid .defined inst ∧ inst.fduUuid = f
  | .configure u => Stored s' u .configured inst
  | .start u => Stored s' u .running inst
  | .stop u => Stored s' u .configured inst
  | .clean u => Stored s' u .defined inst
  | .undefine u => Stored s u .defined inst ∧ ∀ i ∈ s'.global.instances, i.uuid ≠ u

end Op

variable {z : Session} {ok : Choice → Prop} {t : Prop} {s s₀ s' : Fos} {n u svc : Uuid}

theorem ensures_invoke_stable {P : Fos → Prop} (hP : Stable P) (hs : P s)
    (hsvc : z.server svc = some n) {q : Request} {Φ : Except Exn q.Ret → Fos → Prop}
    (h : ∀ s, P s → Ensures z ok t (Agent.handle z ⟨n, svc⟩ q) s Φ) :
    Ensures z ok t (Prog.invoke (Proc.agent svc q)) s Φ := by
  apply System.ensures_call
  intro s₁ hs₁
  have hbody : (system z ok).body (Proc.agent svc q) = Agent.handle z ⟨n, svc⟩ q := by
    simp [machine, Machine.system, body, hsvc]
  rw [Prog.bindE_final_right, hbody]
  exact h s₁ (hP.env hs hs₁)

theorem ensures_invoke (hs : s.Still) (hsvc : z.server svc = some n) {q : Request}
    {Φ : Except Exn q.Ret → Fos → Prop}
    (h : Ensures z ok t (Agent.handle z ⟨n, svc⟩ q) s Φ) :
    Ensures z ok t (Prog.invoke (Proc.agent svc q)) s Φ :=
  ensures_invoke_stable hs.stable rfl hsvc fun _ hs' => hs' ▸ h

variable [Fair ok]

theorem Settled.update (hs : Settled s) {inst inst' : FDURecord}
    (hl : Leads s (s.publish n inst') s') (hknown : inst ∈ s.global.instances)
    (hhome : inst.node = n) (hpath : inst'.path = inst.path) (hnode : inst'.node = inst.node) :
    Settled s' := by
  have hu : inst'.uuid = inst.uuid := congrArg Prod.snd hpath
  refine hs.publish hl (hnode.trans hhome) (fun i hi hiu => ?_) ?_
  · obtain rfl := hs.unique i hi inst hknown (hiu.trans hu)
    exact ⟨hpath.symm, hhome⟩
  · rw [hu]
    exact hl.issued (hs.issued inst hknown)

/-- A call ends settled. It has failed and changed no store, or returns what its
operation promises. -/
def Completes (op : Op) (s : Fos) (o : Except Exn FDURecord) (s' : Fos) : Prop :=
  Settled s' ∧ match o with
    | .ok inst => op.Returns s s' inst
    | .error _ => s'.toStore = s.toStore

theorem Moves.completes (hs : Settled s) {op : Op} {before after : FDUState}
    {bad : FDURecord → Prop} {new : FDURecord → FDURecord → Prop} {o : Except Exn FDURecord}
    (hnew : ∀ inst inst', new inst inst' → Advances after inst inst')
    (hop : ∀ inst, op.Returns s s' inst ↔ Op.Stored s' u after inst)
    (h : Moves s n u before bad new o s') : Completes op s o s' := by
  obtain ⟨e, rfl, hl, -⟩ | ⟨inst, inst', hr, hu, hn, rfl, hl⟩ := h
  · exact ⟨hs.leads hl, hl.store⟩
  · obtain ⟨hpath, hnode, hst⟩ := hnew inst inst' hn
    refine ⟨hs.update hl hr.known hr.home hpath hnode, (hop inst').2 ⟨?_, ?_, hst⟩⟩
    · rw [hl.store]
      exact mem_publish_global.2 (Or.inl rfl)
    · exact (congrArg Prod.snd hpath).trans hu

theorem Removes.completes (hs : Settled s) {o : Except Exn FDURecord}
    (h : Removes s n u o s') : Completes (.undefine u) s o s' := by
  obtain ⟨e, rfl, hl, -⟩ | ⟨inst, hr, hu, rfl, hl⟩ := h
  · exact ⟨hs.leads hl, hl.store⟩
  · refine ⟨hs.withdraw hl hr.known hr.home, ⟨hr.known, hu, hr.status⟩, fun i hi hiu => ?_⟩
    rw [hl.store, mem_withdraw_global] at hi
    obtain rfl := hs.unique i hi.1 inst hr.known (hiu.trans hu.symm)
    exact hi.2 rfl

theorem Creates.completes (hs : Settled s) {f : Uuid} {o : Except Exn FDURecord}
    (h : Creates s n f o s') : Completes (.define f) s o s' := by
  obtain ⟨e, rfl, hl⟩ | ⟨u, hu, hu', rfl, hl⟩ := h
  · exact ⟨hs.leads hl, hl.store⟩
  · refine ⟨hs.publish hl rfl (fun i hi hiu => absurd (hs.issued i hi) (hiu ▸ hu)) hu', ?_⟩
    refine ⟨⟨?_, rfl, rfl⟩, rfl⟩
    rw [hl.store]
    exact mem_publish_global.2 (Or.inl rfl)

theorem ensures_op (hs : Settled s) (hsvc : z.server svc = some n) {op : Op}
    (howned : op.Owned s n) :
    Ensures z ok t (op.call svc) s (Completes op s) := by
  cases op with
  | define f =>
    exact (ensures_invoke hs.still hsvc (ensures_defineFdu hs)).mono fun _ _ h => h.completes hs
  | configure u =>
    exact (ensures_invoke hs.still hsvc (ensures_configureFdu hs howned)).mono fun _ _ h =>
      h.completes hs (fun _ _ h => h.advances) fun _ => Iff.rfl
  | start u =>
    exact (ensures_invoke hs.still hsvc (ensures_startFdu hs howned)).mono fun _ _ h =>
      h.completes hs (fun _ _ h => h ▸ advances_status _ _) fun _ => Iff.rfl
  | stop u =>
    exact (ensures_invoke hs.still hsvc (ensures_stopFdu hs howned)).mono fun _ _ h =>
      h.completes hs (fun _ _ h => h ▸ advances_status _ _) fun _ => Iff.rfl
  | clean u =>
    exact (ensures_invoke hs.still hsvc (ensures_cleanFdu hs howned)).mono fun _ _ h =>
      h.completes hs (fun _ _ h => h ▸ advances_cleaned _) fun _ => Iff.rfl
  | undefine u =>
    exact (ensures_invoke hs.still hsvc (ensures_undefineFdu hs howned)).mono fun _ _ h =>
      h.completes hs

/-- States reached by lifecycle calls at the agent of node `n`, each on an
instance it owns and each starting after the one before has returned. The
monitoring tasks move at any time, between the calls as well as during them. -/
inductive Serial (z : Session) (svc n : Uuid) (s₀ : Fos) : Fos → Prop
  | refl : Serial z svc n s₀ s₀
  | monitor {s s' m} : Serial z svc n s₀ s → (machine z).move m s = some s' →
      Serial z svc n s₀ s'
  | call {s s' k} {op : Op} {o} : Serial z svc n s₀ s → op.Owned s n →
      (system z Reliable).Runs k s (op.call svc) s' (.final o) → Serial z svc n s₀ s'

theorem Serial.settled (hsvc : z.server svc = some n) (h₀ : Settled s₀)
    (h : Serial z svc n s₀ s) : Settled s := by
  induction h with
  | refl => exact h₀
  | monitor _ hm ih =>
    obtain ⟨st, hst, -⟩ := Option.map_eq_some_iff.1 hm
    rw [ih.still.monitor] at hst
    cases hst
  | call _ howned hrun ih =>
    exact (((ensures_op (t := False) ih hsvc howned).bound not_faulty_reliable).1 _ _ _ hrun).1

/-- Whenever a call returns, nothing is on its way and the local store has
exactly the global store's records of this node. A successful call returns the
stored record in the status it awaited; a failed one has changed no store. -/
theorem global_refines_local (hsvc : z.server svc = some n) (h₀ : Settled s₀)
    (hserial : Serial z svc n s₀ s) (op : Op) (howned : op.Owned s n) {k : ℕ}
    {o : Except Exn FDURecord} (hrun : (system z Reliable).Runs k s (op.call svc) s' (.final o)) :
    (s'.node n).changes = [] ∧
      (∀ inst, inst ∈ (s'.node n).instances ↔ inst ∈ s'.global.instances ∧ inst.node = n) ∧
      (∀ inst, o = .ok inst → op.Returns s s' inst) ∧
      ∀ e, o = .error e → s'.toStore = s.toStore := by
  have hs := hserial.settled hsvc h₀
  obtain ⟨hs', ho⟩ :=
    ((ensures_op (t := False) hs hsvc howned).bound not_faulty_reliable).1 _ _ _ hrun
  refine ⟨hs'.still n, fun inst => hs'.mem_local, ?_, ?_⟩
  · rintro inst rfl
    exact ho
  · rintro e rfl
    exact ho

instance (op : Op) (s : Fos) (n : Uuid) : Decidable (op.Owned s n) :=
  match op with
  | .define _ => inferInstanceAs (Decidable True)
  | .configure u | .start u | .stop u | .clean u | .undefine u =>
      inferInstanceAs (Decidable (∀ inst ∈ s.global.instances.rows, inst.uuid = u → inst.node = n))

/-- Play these calls one after the other, whether they succeed or not. -/
def playOps (sites : List Site) (svc n : Uuid) : List Op → Fos → Option Fos
  | [], s => some s
  | op :: ops, s =>
      if op.Owned s n then
        (playUsual sites s (op.call svc)).bind fun x => playOps sites svc n ops x.2
      else none

omit [Fair ok] in
theorem serial_of_playOps {sites : List Site} {ops : List Op}
    (hs : Serial (Site.session sites) svc n s₀ s) (h : playOps sites svc n ops s = some s') :
    Serial (Site.session sites) svc n s₀ s' := by
  induction ops generalizing s with
  | nil => exact Option.some.inj h ▸ hs
  | cons op ops ih =>
    rw [playOps] at h
    split at h
    · next howned =>
      obtain ⟨⟨o, s₁⟩, hplay, hrest⟩ := Option.bind_eq_some_iff.1 h
      obtain ⟨k, hrun⟩ := runs_of_playUsual (fun _ => Healthy.reliable) hplay
      exact ih (hs.call howned hrun) hrest
    · cases h

/-- An instance is defined, started too early, configured, started and then stopped. -/
theorem global_refines_local_stop : ∃ s s' inst,
    Serial (Site.session oneSite) 100 0 (boot oneSite [.plain 50] []) s ∧
      recorded s 0 0 = some .running ∧ (Op.stop 0).Returns s s' inst ∧ (s'.node 0).changes = [] := by
  obtain ⟨s, hops, h⟩ := (Option.any_eq_true _ _).1
    (show ((playOps oneSite 100 0 [.define 50, .start 0, .configure 0, .start 0]
      (boot oneSite [.plain 50] [])).any fun s => recorded s 0 0 = some .running ∧
        (Op.stop 0).Owned s 0 ∧ (playUsual oneSite s ((Op.stop 0).call 100)).any fun x =>
          x.1.toBool) = true by decide +kernel)
  obtain ⟨hstatus, howned, h⟩ := of_decide_eq_true h
  obtain ⟨⟨o, s'⟩, hplay, ho⟩ := (Option.any_eq_true _ _).1 h
  obtain ⟨k, hrun⟩ := runs_of_playUsual (fun _ => Healthy.reliable) hplay
  have hserial := serial_of_playOps .refl hops
  obtain ⟨hq, -, hok, -⟩ :=
    global_refines_local rfl (boot_settled _ _ _) hserial (.stop 0) howned hrun
  cases o with
  | error e => cases ho
  | ok inst => exact ⟨s, s', inst, hserial, hstatus, hok inst rfl, hq⟩

/-- A store fails. A request or a reply that is lost is none of its failures. -/
def storeFails : Cmd → Choice → Bool
  | .access (.request _), _ | .access (.reply _ _), _ => false
  | .access _, .fault _ => true
  | _, _ => false

/-- The deployment when the stores do not fail and remote calls may. -/
def storesWork (z : Session) : Machine Cmd.Ans Proc.Ret Exn Choice Uuid Fos :=
  { machine z with exec := fun c ch s => if storeFails c ch then none else exec c ch s }

/-- The replies of a hypervisor plugin that has configured an instance. -/
def configured : Cmd → Bool
  | .access (.reply (.plugin _ (.configureFdu _)) _) => true
  | _ => false

/-- With nothing lost but the plugin's reply, `configure_fdu` fails, and both stores have
the instance configured. -/
theorem lost_reply : ∃ s s' k e, Serial (Site.session oneSite) 100 0 (boot oneSite [.plain 50] []) s ∧
    (Op.configure 0).Owned s 0 ∧
    ((storesWork (Site.session oneSite)).system Unreliable).Runs k s ((Op.configure 0).call 100) s'
      (.final (.error e)) ∧
    recorded s 0 0 = some .defined ∧ recorded s' 0 0 = some .configured := by
  obtain ⟨s, hops, h⟩ := (Option.any_eq_true _ _).1
    (show ((playOps oneSite 100 0 [.define 50] (boot oneSite [.plain 50] [])).any fun s =>
      recorded s 0 0 = some .defined ∧ (Op.configure 0).Owned s 0 ∧
        ((storesWork (Site.session oneSite)).drive (failing configured (.zError "timeout")) [0] 100 s
          ((Op.configure 0).call 100)).any fun x =>
            (failure x.1).isSome ∧ recorded x.2 0 0 = some .configured) = true by decide +kernel)
  obtain ⟨hdefined, howned, h⟩ := of_decide_eq_true h
  obtain ⟨⟨o, s'⟩, hdrive, h⟩ := (Option.any_eq_true _ _).1 h
  obtain ⟨ho, hconfigured⟩ := of_decide_eq_true h
  obtain ⟨e, he⟩ := Option.isSome_iff_exists.1 ho
  obtain rfl := failure_eq_some.1 he
  obtain ⟨k, hrun⟩ := Machine.runs_of_drive Unreliable (fun _ _ => trivial) hdrive
  exact ⟨s, s', k, e, serial_of_playOps .refl hops, howned, hrun, hdefined, hconfigured⟩

end Fog05
