import Fog05.Proofs.Unscheduling

/-! Two instances of one entity. A call that schedules or deschedules returns
before its task has run; here each task runs to its end before the next call. -/

namespace Fog05

open Conc M

variable {z : Session} {ok : Choice → Prop} [Fair ok] {t : Prop} {s s₀ s₁ s₂ s' : Fos}
variable {a b c c' : Agent} {u entity : Uuid} {inst r : EntityRecord}
variable {descriptor : EntityDescriptor}

/-- A call that spawns a task, and then the task, with nothing else running. -/
inductive Served (z : Session) (service : Uuid) (q : Request) (s : Fos) :
    q.Ret → Fos → Prop
  | intro {k k' x t s₁ s₂ s'} :
      (system z Healthy).Runs k s (Prog.invoke (Proc.agent service q)) s₁ (.final (.ok x)) →
      launch s₁ = some (.task t, s₂) →
      (system z Healthy).Runs k' s₂ (t.body z) s' (.final (.ok ())) → Served z service q s x s'

def serve (sites : List Site) (s : Fos) (service : Uuid) (q : Request) : Option (q.Ret × Fos) :=
  match playUsual sites s (Prog.invoke (Proc.agent service q)) with
  | some (.ok x, s₁) =>
      match launch s₁ with
      | some (.task t, s₂) =>
          match playUsual sites s₂ (t.body (Site.session sites)) with
          | some (.ok (), s') => some (x, s')
          | _ => none
      | _ => none
  | _ => none

omit [Fair ok] in
theorem served_of_serve {sites : List Site} {service : Uuid} {q : Request} {x : q.Ret}
    (h : serve sites s service q = some (x, s')) :
    Served (Site.session sites) service q s x s' := by
  unfold serve at h
  split at h
  · next hcall =>
    split at h
    · next hlaunch =>
      split at h
      · next htask =>
        cases h
        obtain ⟨k, hk⟩ := runs_of_playUsual (fun _ h => h) hcall
        obtain ⟨k', hk'⟩ := runs_of_playUsual (fun _ h => h) htask
        exact .intro hk hlaunch hk'
      · cases h
    · cases h
  · cases h

/-- The agent serves its service uuid, and has advertised its node. -/
def Member (z : Session) (s : Fos) (a : Agent) : Prop :=
  z.server a.instanceUuid = some a.nodeUuid ∧ ∃ info, s.global.getNodeInfo a.nodeUuid = .ok info

namespace Agent

theorem ensures_report (hok : ¬ Faulty ok) {p : M Unit} {Ψ Φ : Except Exn Unit → Fos → Prop}
    (P : FError → Fos → Prop) (hp : Ensures z ok t p s Ψ)
    (hdone : ∀ s', Ψ (.ok ()) s' → Φ (.ok ()) s') (hP : ∀ e, Stable (P e))
    (herr : ∀ e s', Ψ (.error (.err e)) s' → P e s')
    (hwrite : ∀ e s', P e s' → Φ (.ok ()) (s'.write { inst with status := .error e.display }))
    (hpanic : ∀ s', Ψ (.error .panic) s' → Φ (.error .panic) s') :
    Ensures z ok t (report inst p) s Φ := by
  refine ensures_bindE hp (fun o s' ho => ?_) fun hf => absurd hf hok
  rcases o with (e | _) | _
  · refine ensures_ask (hP e) (herr e s' ho) (fun s₁ hs₁ => ?_) fun hf => absurd hf hok
    exact ensures_final (o := .ok ()) (hwrite e s₁ hs₁)
  · exact ensures_err (hpanic s' ho)
  · exact ensures_pure (hdone s' ho)

def newRecord (u entity : Uuid) : EntityRecord where
  uuid := u
  id := entity
  status := .onboarding
  fdus := []
  virtualLinks := []
  fimId := none
  cloudId := none

theorem getEntity_uuid {g : Global} {e : Uuid} {d : EntityDescriptor} (h : g.getEntity e = .ok d) :
    d.uuid = some e :=
  (single_select_key h).2

theorem ensures_scheduleEntity (hs : s.Still) :
    Ensures z ok t (scheduleEntity a entity) s fun o s' => ∀ u, o = .ok u → ∃ descriptor,
      s.global.getEntity entity = .ok descriptor ∧ u ∉ s.issued ∧
        s' = { ({ s with issued := u :: s.issued } : Fos).write (newRecord u entity) with
          tasks := s.tasks ++
            [.schedule a.nodeUuid a.instanceUuid (newRecord u entity) descriptor] } := by
  refine ensures_ask_bind hs (fun (descriptor : EntityDescriptor) hdescr => ?_) fun _ _ _ => nofun
  apply ensures_newUuid hs
  intro u hu
  rw [getEntity_uuid hdescr, okOr_some_bind]
  refine ensures_ask_bind (s := { s with issued := u :: s.issued }) hs (fun _ _ => ?_) nofun
  have hs₁ : (Fos.write { s with issued := u :: s.issued } (newRecord u entity)).Still := hs
  apply ensures_issue hs₁.stable rfl (fun _ _ => ⟨.go, _, _, Fair.go, rfl⟩)
  rintro _ ch r s' rfl - hx
  rw [exec_spawn hx]
  apply ensures_pure
  intro v hv
  cases hv
  exact ⟨descriptor, hdescr, hu, rfl⟩

theorem ensures_descheduleEntity (hs : s.Still) :
    Ensures z ok t (descheduleEntity a u) s fun o s' =>
      (∃ e, s.global.getEntityInstance u = .error e ∧ o = .error (.err e) ∧ s' = s) ∨
      ∃ inst, s.global.getEntityInstance u = .ok inst ∧ o = .ok u ∧
        s' = { s with tasks := s.tasks ++ [.deschedule a.nodeUuid a.instanceUuid inst] } := by
  refine ensures_ask_bind hs (fun (inst : EntityRecord) hinst => ?_) fun e he =>
    Or.inl ⟨e, he, rfl, rfl⟩
  apply ensures_issue hs.stable rfl (fun _ _ => ⟨.go, _, _, Fair.go, rfl⟩)
  rintro _ ch r s' rfl - hx
  rw [exec_spawn hx]
  exact ensures_pure (Or.inr ⟨inst, hinst, rfl, rfl⟩)

end Agent

open Agent

theorem getEntityInstance_of_mem {r r' : EntityRecord} (h : s.global.getEntityInstance u = .ok r)
    (hr' : r' ∈ s.global.entityInstances) (hu : r'.uuid = u) : r' = r :=
  eq_of_single h hr' hu

theorem getEntityInstance_mem (h : s.global.getEntityInstance u = .ok r) :
    r ∈ s.global.entityInstances ∧ r.uuid = u :=
  single_select_key h

theorem getEntityInstance_congr (h : s.global.getEntityInstance u = .ok r)
    (hsame : ∀ x, x.uuid = u → (x ∈ s'.global.entityInstances ↔ x ∈ s.global.entityInstances)) :
    s'.global.getEntityInstance u = .ok r := by
  obtain ⟨hmem, hu⟩ := getEntityInstance_mem h
  refine (single_select_eq_ok fun x hx hxu => ?_).2 ⟨(hsame r hu).2 hmem, hu⟩
  exact getEntityInstance_of_mem h ((hsame x hxu).1 hx) hxu

theorem getEntityInstance_write {r' : EntityRecord} (h : s.global.getEntityInstance r.uuid = .ok r')
    (hpath : r'.path = r.path) (status : EntityStatus) :
    (s.write { r with status }).global.getEntityInstance r.uuid = .ok { r with status } :=
  single_eq_ok.2 (Table.select_put_of_single (single_eq_ok.1 h) hpath)

theorem Only.getEntityInstance {P : Uuid → Prop} (h : Only P s s') :
    s'.global.getEntityInstance u = s.global.getEntityInstance u := by
  rw [Global.getEntityInstance, h.rest]
  rfl

theorem getEntityInstance_write_of_ne (h : u ≠ r.uuid) (status : EntityStatus) :
    (s.write { r with status }).global.getEntityInstance u = s.global.getEntityInstance u :=
  congrArg single (Table.select_put_of_not h.symm)

theorem CatalogOnly.getEntityInstance {A : Option Uuid → Prop} (h : CatalogOnly A s s') :
    s'.global.getEntityInstance u = s.global.getEntityInstance u := by
  rw [Global.getEntityInstance, h.rest]
  rfl

def Fos.scheduling (s : Fos) (u entity : Uuid) : Fos :=
  { ({ s with issued := u :: s.issued } : Fos).write (newRecord u entity) with tasks := [] }

/-- A scheduled entity whose record says that it is running has been brought up. -/
theorem Served.scheduled (hs : Settled s) (hidle : s.tasks = [])
    (ha : z.server a.instanceUuid = some a.nodeUuid) (hadv : Advertised z s)
    (h : Served z a.instanceUuid (.scheduleEntity entity) s u s')
    (hr : s'.global.getEntityInstance u = .ok r) (hrun : r.status = .running) :
    ∃ descriptor us, s.global.getEntity entity = .ok descriptor ∧ u ∉ s.issued ∧
      Scheduled a (newRecord u entity) descriptor (s.scheduling u entity) us s' ∧
      r = runningRecord (newRecord u entity) us := by
  obtain ⟨hcall, hlaunch, htask⟩ := h
  obtain ⟨descriptor, hdescr, hu, rfl⟩ :=
    (ensures_invoke (t := False) hs.still ha (ensures_scheduleEntity hs.still)).of_ok hcall u rfl
  simp only [hidle, List.nil_append, launch, Option.some.injEq, Prod.mk.injEq,
    Proc.task.injEq] at hlaunch
  obtain ⟨rfl, rfl⟩ := hlaunch
  have hs₁ : Settled (s.scheduling u entity) :=
    ⟨hs.still, hs.free, hs.mirror, hs.home, hs.unique,
      fun i hi => List.mem_cons_of_mem _ (hs.issued i hi)⟩
  have htriple : Ensures z Healthy False (report (newRecord u entity)
      (entityScheduling z a (newRecord u entity) descriptor)) (s.scheduling u entity)
      fun o s' => o = .ok () →
        (∃ us, Scheduled a (newRecord u entity) descriptor (s.scheduling u entity) us s') ∨
        ∃ e s₂, s' = Fos.write s₂ { newRecord u entity with status := .error e } :=
    ensures_report not_faulty_healthy (fun _ _ => True)
      (ensures_entityScheduling hs₁ ha hadv) (fun s' h _ => Or.inl (h rfl))
      (fun _ _ _ _ _ _ => trivial) (fun _ _ _ => trivial)
      (fun e s' _ _ => Or.inr ⟨_, s', rfl⟩) fun _ _ => nofun
  rcases htriple.of_ok htask rfl with ⟨us, hup⟩ | ⟨e, s₂, rfl⟩
  · refine ⟨descriptor, us, hdescr, hu, hup, ?_⟩
    exact (getEntityInstance_of_mem hr ((hup.records _).2 (Or.inl rfl)) rfl).symm
  · have := getEntityInstance_of_mem hr (mem_write.2 (Or.inl rfl)) rfl
    rw [← this] at hrun
    cases hrun

/-- How the task of `deschedule_entity` ends. -/
inductive Descheduled (c : Agent) (r : EntityRecord) (descriptor : EntityDescriptor) (s : Fos) :
    Except Exn Unit → Fos → Prop
  | offloaded {s' : Fos} : Unschedules Healthy c r descriptor s (.ok ()) s' →
      Descheduled c r descriptor s (.ok ()) s'
  | error {e s₁} : Unschedules Healthy c r descriptor s (.error (.err e)) s₁ →
      Descheduled c r descriptor s (.ok ()) (s₁.write { r with status := .error e.display })
  | panic {s' : Fos} : Unschedules Healthy c r descriptor s (.error .panic) s' →
      Descheduled c r descriptor s (.error .panic) s'

omit [Fair ok] in
theorem Agent.Unschedules.settled {o : Except Exn Unit}
    (h : Unschedules ok c r descriptor s o s') : Settled s' := by
  cases h with
  | stuck h => exact h.only.settled
  | kept h₁ h₂ => exact h₂.only.settled ((h₁.only.settled.write _).write _)
  | offloaded h₁ h₂ => exact (h₂.only.settled ((h₁.only.settled.write _).write _)).write _

theorem ensures_descheduling (hs : Settled s) (hc : z.server c.instanceUuid = some c.nodeUuid)
    (hadv : Advertised z s) (hentity : s.global.getEntity r.id = .ok descriptor) :
    Ensures z Healthy t (report r (entityUnscheduling z c r)) s (Descheduled c r descriptor s) := by
  refine ensures_report not_faulty_healthy
    (fun e s' => Unschedules Healthy c r descriptor s (.error (.err e)) s')
    ((ensures_entityUnscheduling hs hc hadv).mono (Φ := Unschedules Healthy c r descriptor s) ?_)
    (fun _ => .offloaded) ?_ (fun _ _ => id) (fun _ _ => .error) fun _ => .panic
  · rintro o s' (⟨e, he, -⟩ | ⟨d, hd, h⟩)
    · rw [hentity] at he
      cases he
    · rw [hentity] at hd
      cases hd
      exact h
  · intro e s₁ n st h hm
    rw [h.settled.still.monitor] at hm
    cases hm

theorem Served.descheduled {x : Uuid} (hs : Settled s) (hidle : s.tasks = [])
    (hc : z.server c.instanceUuid = some c.nodeUuid) (hadv : Advertised z s)
    (hr : s.global.getEntityInstance u = .ok r) (hentity : s.global.getEntity r.id = .ok descriptor)
    (h : Served z c.instanceUuid (.descheduleEntity u) s x s') :
    Descheduled c r descriptor s (.ok ()) s' := by
  obtain ⟨hcall, hlaunch, htask⟩ := h
  have hpost := (ensures_invoke (t := False) hs.still hc (ensures_descheduleEntity hs.still)).of_ok
    hcall
  obtain ⟨_, -, h, -⟩ | ⟨inst, hinst, -, rfl⟩ := hpost
  · cases h
  rw [hr] at hinst
  cases hinst
  have hidle' : { s with tasks := [] } = s := by rw [← hidle]
  simp only [hidle, List.nil_append, launch, Option.some.injEq, Prod.mk.injEq,
    Proc.task.injEq] at hlaunch
  obtain ⟨rfl, rfl⟩ := hlaunch
  rw [hidle'] at htask
  exact (ensures_descheduling (t := False) hs hc hadv hentity).of_ok htask

theorem exists_descheduled (hs : Settled s) (hidle : s.tasks = [])
    (hc : z.server c.instanceUuid = some c.nodeUuid) (hadv : Advertised z s)
    (hr : s.global.getEntityInstance u = .ok r) (hentity : s.global.getEntity r.id = .ok descriptor)
    (hdescheduled : ∀ o s', Descheduled c r descriptor s o s' → o = .ok ()) :
    ∃ s', Served z c.instanceUuid (.descheduleEntity u) s u s' := by
  have hidle' : { s with tasks := [] } = s := by rw [← hidle]
  obtain ⟨k, s₁, o, hcall, hpost⟩ := ((ensures_invoke (t := True)
    (q := .descheduleEntity u) hs.still hc (ensures_descheduleEntity hs.still)).bound not_faulty_healthy).exists_end
  obtain ⟨e, he, -⟩ | ⟨inst, hinst, rfl, rfl⟩ := hpost
  · rw [hr] at he
    cases he
  rw [hr] at hinst
  cases hinst
  obtain ⟨k', s', o, htask, hpost⟩ := ((ensures_descheduling (t := True) hs hc hadv
    hentity).bound not_faulty_healthy).exists_end
  obtain rfl := hdescheduled o s' hpost
  refine ⟨s', .intro (t := .deschedule c.nodeUuid c.instanceUuid r) hcall ?_ htask⟩
  simp [launch, hidle, hidle']

/-- An entity instance whose FDU instances are all up, one for each FDU. -/
structure Alive (c : Agent) (s : Fos) (descriptor : EntityDescriptor) (r : EntityRecord) :
    Prop where
  record : s.global.getEntityInstance r.uuid = .ok r
  entity : s.global.getEntity r.id = .ok descriptor
  nodup : r.fdus.Nodup
  up : List.Forall₂ (Up c s) descriptor.fdus r.fdus

theorem Agent.Up.live {d : FDUDescriptor} (h : Up c s d u) : Live c s u := by
  obtain ⟨inst, hu, -, hr, hdec, hl⟩ := h
  exact ⟨inst, inst.node, hu, hr, hdec, hl⟩

theorem Alive.live {r : EntityRecord} (h : Alive c s descriptor r) : ∀ u ∈ r.fdus, Live c s u := by
  intro u hu
  obtain ⟨d, -, hd⟩ := exists_of_forall₂ h.up.flip hu
  exact Up.live hd

theorem not_healthy_netError (e : FError) : ¬ Healthy (.net (.error e)) := id

theorem Alive.unscheduled {r : EntityRecord} {status : EntityStatus} {o : Except Exn Unit}
    (h : Alive c s descriptor r)
    (hun : UnschedulesFdus Healthy c r.fdus (s.write { r with status }) o s') : o = .ok () := by
  apply hun.succeeds not_healthy_netError h.nodup
  intro u hu
  obtain ⟨inst, n, hiu, hr, hdec, hl⟩ := h.live u hu
  exact ⟨inst, n, hiu, hr.write _, hdec, hl⟩

/-- What is left when a live instance has been descheduled: its FDU instances are
gone, and other instances and records are as they were. -/
structure TakenDown (s : Fos) (x : EntityRecord) (s' : Fos) : Prop where
  settled : Settled s'
  others : ∀ u, u ≠ x.uuid → s'.global.getEntityInstance u = s.global.getEntityInstance u
  gone : ∀ i ∈ s'.global.instances, i.uuid ∉ x.fdus
  same : ∀ i, i.uuid ∉ x.fdus → (i ∈ s'.global.instances ↔ i ∈ s.global.instances)
  nodes : s'.global.nodes = s.global.nodes
  entities : s'.global.entities = s.global.entities
  hypervisors : ∀ n, (s'.node n).hypervisors = (s.node n).hypervisors
  tasks : s'.tasks = s.tasks

variable {x y : EntityRecord}

theorem TakenDown.write (h : TakenDown s x s') (status : EntityStatus) :
    TakenDown s x (s'.write { x with status }) where
  settled := h.settled.write _
  others u hu := (getEntityInstance_write_of_ne hu status).trans (h.others u hu)
  gone := h.gone
  same := h.same
  nodes := h.nodes
  entities := h.entities
  hypervisors := h.hypervisors
  tasks := h.tasks

theorem takenDown_of_loops {A : Option Uuid → Prop}
    (h₁ : UnschedulesFdus Healthy c x.fdus (s.write { x with status := .stopping }) (.ok ()) s₁)
    (h₂ : CatalogOnly A ((s₁.write { x with status := .stopped }).write
      { x with status := .offloading }) s₂) : TakenDown s x s₂ where
  settled := h₂.settled ((h₁.only.settled.write _).write _)
  others u hu := by
    rw [h₂.getEntityInstance, getEntityInstance_write_of_ne hu, getEntityInstance_write_of_ne hu,
      h₁.only.getEntityInstance]
    exact getEntityInstance_write_of_ne hu _
  gone i hi hu := h₁.gone rfl _ hu i (h₂.instances ▸ hi) rfl
  same i hi := by
    rw [h₂.instances]
    exact h₁.only.same i hi
  nodes := (congrArg (·.nodes) h₂.rest).trans h₁.only.nodes
  entities := (congrArg (·.entities) h₂.rest).trans (congrArg (·.entities) h₁.only.rest)
  hypervisors n := by
    rw [h₂.1.store]
    exact h₁.only.hypervisors n
  tasks := h₂.1.tasks.trans h₁.only.tasks

theorem getEntityInstance_of_loops {A : Option Uuid → Prop} (hx : Alive c s descriptor x)
    (h₁ : UnschedulesFdus Healthy c x.fdus (s.write { x with status := .stopping }) (.ok ()) s₁)
    (h₂ : CatalogOnly A ((s₁.write { x with status := .stopped }).write
      { x with status := .offloading }) s₂) (status : EntityStatus) :
    (s₂.write { x with status }).global.getEntityInstance x.uuid = .ok { x with status } := by
  have hstopping := getEntityInstance_write hx.record rfl .stopping
  have hstopped :=
    getEntityInstance_write (h₁.only.getEntityInstance.trans hstopping) rfl .stopped
  have hoffloading := getEntityInstance_write hstopped rfl .offloading
  exact getEntityInstance_write (h₂.getEntityInstance.trans hoffloading) rfl status

theorem Descheduled.takenDown (hx : Alive c s descriptor x) {o : Except Exn Unit}
    (h : Descheduled c x descriptor s o s') : TakenDown s x s' := by
  cases h with
  | offloaded h =>
    cases h with
    | offloaded h₁ h₂ => exact (takenDown_of_loops h₁ h₂.only).write _
  | panic h =>
    cases h with
    | stuck h₁ => cases hx.unscheduled h₁
    | kept h₁ h₂ => exact takenDown_of_loops h₁ h₂.only
  | error h =>
    cases h with
    | stuck h₁ => cases hx.unscheduled h₁
    | kept h₁ h₂ => exact (takenDown_of_loops h₁ h₂.only).write _

theorem Descheduled.kept (hx : Alive c s descriptor x) (hy : Alive c s descriptor y)
    (hdisjoint : List.Disjoint x.fdus y.fdus) (hfdus : descriptor.fdus ≠ [])
    {o : Except Exn Unit} (h : Descheduled c x descriptor s o s') :
    o = .ok () ∧ s'.global.fdus = s.global.fdus ∧ s'.global.getEntityInstance x.uuid =
      .ok { x with status := .error FError.hasInstances.display } := by
  obtain ⟨d, l, hl⟩ := List.exists_cons_of_ne_nil hfdus
  obtain ⟨v, hv, i, hiv, hdi, hready, -⟩ := exists_of_forall₂ hy.up (hl ▸ List.mem_cons_self ..)
  -- the first FDU that the task tries to offload has an instance of `y`
  have hinUse : ∀ {s₁ : Fos}, Only (· ∈ x.fdus) (s.write { x with status := .stopping }) s₁ →
      InUse ((s₁.write { x with status := .stopped }).write { x with status := .offloading })
        i.fduUuid := fun honly => by
    have hr := (hready.write _).only honly fun h => hdisjoint h (hiv ▸ hv)
    obtain ⟨d', -, hd', -⟩ := hr.plugin
    exact ⟨⟨d', hd'⟩, i, hr.known, rfl⟩
  cases h with
  | offloaded h =>
    cases h with
    | offloaded h₁ h₂ => cases (h₂.fails d l _ hl hdi (hinUse h₁.only)).1
  | panic h =>
    cases h with
    | stuck h₁ => cases hx.unscheduled h₁
    | kept h₁ h₂ => cases (h₂.fails d l _ hl hdi (hinUse h₁.only)).1
  | error h =>
    cases h with
    | stuck h₁ => cases hx.unscheduled h₁
    | kept h₁ h₂ =>
      obtain ⟨he, hst⟩ := h₂.fails d l _ hl hdi (hinUse h₁.only)
      cases he
      refine ⟨rfl, ?_, getEntityInstance_of_loops hx h₁ h₂.only _⟩
      exact (congrArg (fun st : Store => st.global.fdus) hst).trans h₁.only.fdus

theorem Descheduled.last (hx : Alive c s descriptor x)
    (hnodup : (descriptor.fdus.map FDUDescriptor.uuid).Nodup)
    (hothers : ∀ d ∈ descriptor.fdus, ∀ i ∈ s.global.instances, i.uuid ∉ x.fdus →
      some i.fduUuid ≠ d.uuid) {o : Except Exn Unit} (h : Descheduled c x descriptor s o s') :
    o = .ok () ∧
      s'.global.getEntityInstance x.uuid = .ok { x with status := .offloaded } := by
  have hunused : ∀ {s₁ : Fos},
      UnschedulesFdus Healthy c x.fdus (s.write { x with status := .stopping }) (.ok ()) s₁ →
      ∀ d ∈ descriptor.fdus, ∃ f, d.uuid = some f ∧ Agent.Unused
        ((s₁.write { x with status := .stopped }).write { x with status := .offloading }) f := by
    intro s₁ h₁ d hd
    obtain ⟨u, hu, i, hiu, hdi, hready, -⟩ := exists_of_forall₂ hx.up hd
    obtain ⟨-, -, ⟨d', p, hd', -⟩, -⟩ := hready
    refine ⟨i.fduUuid, hdi, ⟨d', ?_⟩, fun j hj hjf => ?_⟩
    · change s₁.global.getFdu _ = _
      rw [Global.getFdu, h₁.only.fdus]
      exact hd'
    · have hj' : j.uuid ∉ x.fdus := fun h => h₁.gone rfl _ h j hj rfl
      exact hothers d hd j ((h₁.only.same j hj').1 hj) hj' (by rw [hdi, hjf])
  cases h with
  | offloaded h =>
    cases h with
    | offloaded h₁ h₂ => exact ⟨rfl, getEntityInstance_of_loops hx h₁ h₂.only _⟩
  | panic h =>
    cases h with
    | stuck h₁ => cases hx.unscheduled h₁
    | kept h₁ h₂ => cases h₂.succeeds hnodup (hunused h₁)
  | error h =>
    cases h with
    | stuck h₁ => cases hx.unscheduled h₁
    | kept h₁ h₂ => cases h₂.succeeds hnodup (hunused h₁)

/-- A live instance stays so while others come and go, as long as its FDUs and
its record are left alone. -/
theorem Alive.takenDown (hy : Alive c s descriptor y) (h : TakenDown s x s')
    (hfdus : s'.global.fdus = s.global.fdus) (hdisjoint : List.Disjoint x.fdus y.fdus)
    (hne : y.uuid ≠ x.uuid) : Alive c s' descriptor y where
  record := (h.others _ hne).trans hy.record
  entity := by
    rw [Global.getEntity, h.entities]
    exact hy.entity
  nodup := hy.nodup
  up := forall₂_imp_of_mem hy.up fun d _ u hu h' =>
    h'.transfer (fun i hi hiu => (h.same i fun hx => hdisjoint hx (hiu ▸ hu)).2 hi)
      (fun _ _ => by rw [Global.getFdu, hfdus, Global.getFdu]) h.hypervisors h.nodes

theorem Alive.of_member (h : Alive a s descriptor x)
    (ha : ∃ info, s.global.getNodeInfo a.nodeUuid = .ok info) : Alive c s descriptor x where
  record := h.record
  entity := h.entity
  nodup := h.nodup
  up := h.up.imp fun _ _ ⟨inst, hu, hd, hr, hdec, hl⟩ =>
    ⟨inst, hu, hd, hr, hdec, Or.inr (hl.elim (fun h => h ▸ ha) id)⟩

theorem Alive.fdu_of_mem (h : Alive c s descriptor x) (hu : u ∈ x.fdus) : ∃ d ∈ descriptor.fdus,
    ∃ i, i ∈ s.global.instances ∧ i.uuid = u ∧ i.status = .running ∧ d.uuid = some i.fduUuid ∧
      ∃ d', s.global.getFdu i.fduUuid = .ok d' := by
  obtain ⟨d, hd, i, hiu, hdi, ⟨hknown, -, ⟨d', -, hd', -⟩, hst⟩, -⟩ := exists_of_forall₂ h.up.flip hu
  exact ⟨d, hd, i, hknown, hiu, hst, hdi, d', hd'⟩

section Schedules

variable {us : List Uuid}

theorem Agent.Scheduled.alive (hentity : s.global.getEntity entity = .ok descriptor)
    (h : Scheduled a (newRecord u entity) descriptor (s.scheduling u entity) us s')
    (hr : s'.global.getEntityInstance u = .ok (runningRecord (newRecord u entity) us)) :
    Alive a s' descriptor (runningRecord (newRecord u entity) us) where
  record := hr
  entity := by
    rw [Global.getEntity, h.entities]
    exact hentity
  nodup := h.nodup
  up := h.up

theorem Alive.scheduled (hx : Alive a s descriptor x) (hs : Settled s)
    (hissued : x.uuid ∈ s.issued) (hu : u ∉ s.issued) {fdus : Table FDUDescriptor.uuid}
    (hcatalog : s.global.fdus = descriptor.fdus.foldl Table.put fdus)
    (h : Scheduled b (newRecord u entity) descriptor (s.scheduling u entity) us s') :
    Alive a s' descriptor x where
  record := by
    have hne : ∀ {r : EntityRecord}, r.uuid = x.uuid → r.uuid ≠ u := fun hr hru =>
      hu (hru ▸ hr ▸ hissued)
    have hpath : ∀ {r : EntityRecord}, r.uuid = x.uuid → r.path ≠ (newRecord u entity).path :=
      fun hr hp => hne hr (congrArg Prod.snd hp)
    apply getEntityInstance_congr hx.record
    intro r hr
    rw [h.records, and_iff_left (hpath hr), or_iff_right]
    · exact mem_write_of_ne (hpath hr)
    · rintro rfl
      exact hne hr rfl
  entity := by
    rw [Global.getEntity, h.entities]
    exact hx.entity
  nodup := hx.nodup
  up := by
    refine forall₂_imp_of_mem hx.up fun d hd v hv h' => h'.transfer (fun i hi hiv => ?_)
      (fun f hf => ?_) h.hypervisors h.nodes
    · refine (h.same i fun hmem => h.fresh _ hmem ?_).2 hi
      exact List.mem_cons_of_mem _ (hs.issued i hi)
    · rw [Global.getFdu, h.catalog, Global.getFdu, hcatalog]
      exact congrArg single (Table.select_foldl_put ⟨d, hd, hf⟩)

end Schedules

theorem descheduled_pair (hs : Settled s) (hidle : s.tasks = []) (hadv : Advertised z s)
    (hc : z.server c.instanceUuid = some c.nodeUuid)
    (hc' : z.server c'.instanceUuid = some c'.nodeUuid)
    (hx : Alive c s descriptor x) (hy : Alive c s descriptor y) (hy' : Alive c' s descriptor y)
    (hdisjoint : List.Disjoint x.fdus y.fdus) (hne : y.uuid ≠ x.uuid)
    (hfdus : descriptor.fdus ≠ []) :
    (∃ s₁, Served z c.instanceUuid (.descheduleEntity x.uuid) s x.uuid s₁) ∧
      ∀ w s₁, Served z c.instanceUuid (.descheduleEntity x.uuid) s w s₁ →
        s₁.global.getEntityInstance x.uuid =
          .ok { x with status := .error FError.hasInstances.display } ∧
        (∀ i ∈ s₁.global.instances, i.uuid ∉ x.fdus) ∧
        s₁.global.getEntityInstance y.uuid = .ok y ∧
        (∀ u ∈ y.fdus, ∃ i d, s₁.global.getInstance u = .ok i ∧ i.status = .running ∧
          s₁.global.getFdu i.fduUuid = .ok d) ∧
        (∀ w' s₂, Served z c'.instanceUuid (.descheduleEntity y.uuid) s₁ w' s₂ →
          s₂.global.getEntityInstance x.uuid =
            .ok { x with status := .error FError.hasInstances.display } ∧
          ∀ i ∈ s₂.global.instances, i.uuid ∉ x.fdus ∧ i.uuid ∉ y.fdus) ∧
        ((descriptor.fdus.map FDUDescriptor.uuid).Nodup →
          (∀ d ∈ descriptor.fdus, ∀ i ∈ s.global.instances, i.uuid ∉ x.fdus → i.uuid ∉ y.fdus →
            some i.fduUuid ≠ d.uuid) →
          (∃ s₂, Served z c'.instanceUuid (.descheduleEntity y.uuid) s₁ y.uuid s₂) ∧
          ∀ w' s₂, Served z c'.instanceUuid (.descheduleEntity y.uuid) s₁ w' s₂ →
            s₂.global.getEntityInstance y.uuid = .ok { y with status := .offloaded }) := by
  refine ⟨exists_descheduled hs hidle hc hadv hx.record hx.entity fun o s' h =>
    (h.kept hx hy hdisjoint hfdus).1, fun w s₁ hserved => ?_⟩
  have hdescheduled := hserved.descheduled hs hidle hc hadv hx.record hx.entity
  have hdown := hdescheduled.takenDown hx
  obtain ⟨-, hcatalog, hrecord⟩ := hdescheduled.kept hx hy hdisjoint hfdus
  have hy₁ := hy'.takenDown hdown hcatalog hdisjoint hne
  have hidle₁ : s₁.tasks = [] := hdown.tasks.trans hidle
  have hadv₁ : Advertised z s₁ := by
    rw [Advertised, hdown.nodes]
    exact hadv
  have hlast : ∀ {w' s₂}, Served z c'.instanceUuid (.descheduleEntity y.uuid) s₁ w' s₂ →
      Descheduled c' y descriptor s₁ (.ok ()) s₂ := fun h =>
    h.descheduled hdown.settled hidle₁ hc' hadv₁ hy₁.record hy₁.entity
  refine ⟨hrecord, hdown.gone, hy₁.record, fun u hu => ?_, fun w' s₂ h => ?_, fun hnodup hothers => ?_⟩
  · obtain ⟨-, -, i, hi, hiu, hst, -, d, hd⟩ := hy₁.fdu_of_mem hu
    exact ⟨i, d, hdown.settled.getInstance.2 ⟨hi, hiu⟩, hst, hd⟩
  · have hdown' := (hlast h).takenDown hy₁
    refine ⟨(hdown'.others _ hne.symm).trans hrecord, fun i hi => ⟨?_, hdown'.gone i hi⟩⟩
    exact hdown.gone i ((hdown'.same i (hdown'.gone i hi)).1 hi)
  · have hothers₁ : ∀ d ∈ descriptor.fdus, ∀ i ∈ s₁.global.instances, i.uuid ∉ y.fdus →
        some i.fduUuid ≠ d.uuid := fun d hd i hi hiy => by
      have hix := hdown.gone i hi
      exact hothers d hd i ((hdown.same i hix).1 hi) hix hiy
    exact ⟨exists_descheduled hdown.settled hidle₁ hc' hadv₁ hy₁.record hy₁.entity
      fun o s' h => (h.last hy₁ hnodup hothers₁).1, fun w' s₂ h =>
      ((hlast h).last hy₁ hnodup hothers₁).2⟩

/-- The status in the record of an entity instance. -/
def entityStatus (s : Fos) (u : Uuid) : Option EntityStatus :=
  match s.global.getEntityInstance u with
  | .ok r => some r.status
  | .error _ => none

omit [Fair ok] in
theorem exists_record {status : EntityStatus} (h : entityStatus s u = some status) :
    ∃ r, s.global.getEntityInstance u = .ok r ∧ r.status = status := by
  unfold entityStatus at h
  split at h
  · next r hr => exact ⟨r, hr, Option.some.inj h⟩
  · cases h

def twoSitesBoot : Fos := boot twoSites [] [.plain 60 [.plain 50]]

theorem two_scheduled : ∃ s₁ s₂ uA uB,
    Served (Site.session twoSites) 100 (.scheduleEntity 60) twoSitesBoot uA s₁ ∧
      entityStatus s₁ uA = some .running ∧
      Served (Site.session twoSites) 101 (.scheduleEntity 60) s₁ uB s₂ ∧
      entityStatus s₂ uB = some .running ∧
      (serve twoSites s₂ 100 (.descheduleEntity uA)).any fun x =>
        entityStatus x.2 uA = some (.error "Has instances!") := by
  have h : ((serve twoSites twoSitesBoot 100 (.scheduleEntity 60)).any fun x =>
      entityStatus x.2 x.1 = some .running ∧
      (serve twoSites x.2 101 (.scheduleEntity 60)).any fun y =>
        entityStatus y.2 y.1 = some .running ∧
        (serve twoSites y.2 100 (.descheduleEntity x.1)).any fun w =>
          entityStatus w.2 x.1 = some (.error "Has instances!")) = true := by
    decide +kernel
  obtain ⟨⟨uA, s₁⟩, hA, h⟩ := (Option.any_eq_true _ _).1 h
  obtain ⟨hrunA, h⟩ := of_decide_eq_true h
  obtain ⟨⟨uB, s₂⟩, hB, h⟩ := (Option.any_eq_true _ _).1 h
  obtain ⟨hrunB, h⟩ := of_decide_eq_true h
  exact ⟨s₁, s₂, uA, uB, served_of_serve hA, hrunA, served_of_serve hB, hrunB, h⟩

/-- Descheduling one of two running instances of an entity, created one after the
other, takes its FDU instances down but ends in ERROR: the FDUs are in use by the
other instance, which is not affected. Descheduling the other one after it leaves
no FDU instance of either and, when nothing else uses the FDUs, ends OFFLOADED. -/
theorem entity_instances_independent (hs : Settled s₀) (hidle : s₀.tasks = [])
    (hadv : Advertised z s₀) (ha : Member z s₀ a) (hb : Member z s₀ b) (hc : Member z s₀ c)
    (hc' : Member z s₀ c') (hentity : s₀.global.getEntity entity = .ok descriptor)
    (hfdus : descriptor.fdus ≠ []) {uA uB : Uuid} {rA rB p q : EntityRecord}
    (hA : Served z a.instanceUuid (.scheduleEntity entity) s₀ uA s₁)
    (hrA : s₁.global.getEntityInstance uA = .ok rA) (hrunA : rA.status = .running)
    (hB : Served z b.instanceUuid (.scheduleEntity entity) s₁ uB s₂)
    (hrB : s₂.global.getEntityInstance uB = .ok rB) (hrunB : rB.status = .running)
    (hpq : p = rA ∧ q = rB ∨ p = rB ∧ q = rA) :
    p.status = .running ∧ q.status = .running ∧
      (∃ s₃, Served z c.instanceUuid (.descheduleEntity p.uuid) s₂ p.uuid s₃) ∧
      ∀ w s₃, Served z c.instanceUuid (.descheduleEntity p.uuid) s₂ w s₃ →
        s₃.global.getEntityInstance p.uuid =
          .ok { p with status := .error FError.hasInstances.display } ∧
        (∀ i ∈ s₃.global.instances, i.uuid ∉ p.fdus) ∧
        s₃.global.getEntityInstance q.uuid = .ok q ∧
        (∀ u ∈ q.fdus, ∃ i d, s₃.global.getInstance u = .ok i ∧ i.status = .running ∧
          s₃.global.getFdu i.fduUuid = .ok d) ∧
        (∀ w' s₄, Served z c'.instanceUuid (.descheduleEntity q.uuid) s₃ w' s₄ →
          s₄.global.getEntityInstance p.uuid =
            .ok { p with status := .error FError.hasInstances.display } ∧
          ∀ i ∈ s₄.global.instances, i.uuid ∉ p.fdus ∧ i.uuid ∉ q.fdus) ∧
        ((descriptor.fdus.map FDUDescriptor.uuid).Nodup →
          (∀ d ∈ descriptor.fdus, ∀ i ∈ s₀.global.instances, some i.fduUuid ≠ d.uuid) →
          (∃ s₄, Served z c'.instanceUuid (.descheduleEntity q.uuid) s₃ q.uuid s₄) ∧
          ∀ w' s₄, Served z c'.instanceUuid (.descheduleEntity q.uuid) s₃ w' s₄ →
            s₄.global.getEntityInstance q.uuid = .ok { q with status := .offloaded }) := by
  obtain ⟨dA, usA, hdA, huA, hupA, rfl⟩ := hA.scheduled hs hidle ha.1 hadv hrA hrunA
  rw [hentity] at hdA
  cases hdA
  have hs₁ := hupA.settled
  have hadv₁ : Advertised z s₁ := by
    rw [Advertised, hupA.nodes]
    exact hadv
  have hentity₁ : s₁.global.getEntity entity = .ok descriptor := by
    rw [Global.getEntity, hupA.entities]
    exact hentity
  obtain ⟨dB, usB, hdB, huB, hupB, rfl⟩ := hB.scheduled hs₁ hupA.tasks hb.1 hadv₁ hrB hrunB
  rw [hentity₁] at hdB
  cases hdB
  have huA₁ : uA ∈ s₁.issued := hupA.issued (List.mem_cons_self ..)
  have hmember : ∀ {d : Agent}, Member z s₀ d → ∃ info, s₂.global.getNodeInfo d.nodeUuid = .ok info :=
    fun hd => by
      rw [Global.getNodeInfo, hupB.nodes]
      change ∃ info, s₁.global.getNodeInfo _ = _
      rw [Global.getNodeInfo, hupA.nodes]
      exact hd.2
  have hadv₂ : Advertised z s₂ := by
    rw [Advertised, hupB.nodes]
    exact hadv₁
  have haliveA : ∀ d : Agent, Alive d s₂ descriptor (runningRecord (newRecord uA entity) usA) :=
    fun d => ((hupA.alive hentity hrA).scheduled hs₁ huA₁ huB hupA.catalog hupB).of_member (hmember ha)
  have haliveB : ∀ d : Agent, Alive d s₂ descriptor (runningRecord (newRecord uB entity) usB) :=
    fun d => (hupB.alive hentity₁ hrB).of_member (hmember hb)
  have hne : uB ≠ uA := fun h => huB (h ▸ huA₁)
  have hdisjoint : List.Disjoint usA usB := fun u hA hB => by
    obtain ⟨-, -, i, hi, hiu, -⟩ := (hupA.alive hentity hrA).fdu_of_mem hA
    exact hupB.fresh u hB (List.mem_cons_of_mem _ (hiu ▸ hs₁.issued i hi))
  have hold : ∀ i ∈ s₂.global.instances, i.uuid ∉ usA → i.uuid ∉ usB → i ∈ s₀.global.instances :=
    fun i hi hA hB => (hupA.same i hA).1 ((hupB.same i hB).1 hi)
  rcases hpq with ⟨rfl, rfl⟩ | ⟨rfl, rfl⟩
  · obtain ⟨hex, hall⟩ := descheduled_pair hupB.settled hupB.tasks hadv₂ hc.1 hc'.1 (haliveA c)
      (haliveB c) (haliveB c') hdisjoint hne hfdus
    refine ⟨rfl, rfl, hex, fun w s₃ h => ?_⟩
    obtain ⟨hrecord, hgone, hother, hup, hleft, hlast⟩ := hall w s₃ h
    exact ⟨hrecord, hgone, hother, hup, hleft, fun hnodup hnone =>
      hlast hnodup fun d hd i hi hA hB => hnone d hd i (hold i hi hA hB)⟩
  · obtain ⟨hex, hall⟩ := descheduled_pair hupB.settled hupB.tasks hadv₂ hc.1 hc'.1 (haliveB c)
      (haliveA c) (haliveA c') hdisjoint.symm hne.symm hfdus
    refine ⟨rfl, rfl, hex, fun w s₃ h => ?_⟩
    obtain ⟨hrecord, hgone, hother, hup, hleft, hlast⟩ := hall w s₃ h
    exact ⟨hrecord, hgone, hother, hup, hleft, fun hnodup hnone =>
      hlast hnodup fun d hd i hi hB hA => hnone d hd i (hold i hi hA hB)⟩

/-- An entity of one FDU, scheduled at both sites. -/
theorem entity_instances_independent_two : ∃ (s₃ s₄ : Fos) (p q : EntityRecord),
    s₃.global.getEntityInstance p.uuid = .ok { p with status := .error "Has instances!" } ∧
      s₃.global.getEntityInstance q.uuid = .ok q ∧ q.status = .running ∧
      s₄.global.getEntityInstance q.uuid = .ok { q with status := .offloaded } := by
  have hmember : ∀ site ∈ twoSites, Member (Site.session twoSites) twoSitesBoot
      ⟨site.info.uuid, site.info.agentServiceUuid⟩ := by
    intro site hsite
    simp only [twoSites, List.mem_cons, List.not_mem_nil, or_false] at hsite
    rcases hsite with rfl | rfl <;> exact ⟨rfl, _, rfl⟩
  have h₀ := hmember (.small 0 100 7) (by simp [twoSites])
  have h₁ := hmember (.small 1 101 8) (by simp [twoSites])
  obtain ⟨s₁, s₂, uA, uB, hA, hrunA, hB, hrunB, -⟩ := two_scheduled
  obtain ⟨rA, hrA, hstA⟩ := exists_record hrunA
  obtain ⟨rB, hrB, hstB⟩ := exists_record hrunB
  obtain ⟨-, hq, ⟨s₃, hs₃⟩, hall⟩ := entity_instances_independent (boot_settled _ _ _) rfl
    (by decide +kernel) h₀ h₁ h₀ h₁ rfl (List.cons_ne_nil _ _) hA hrA hstA hB hrB hstB (Or.inl ⟨rfl, rfl⟩)
  obtain ⟨hp, -, hqr, -, -, hlast⟩ := hall _ _ hs₃
  obtain ⟨⟨s₄, hs₄⟩, hoff⟩ := hlast (by decide) fun _ _ i hi => absurd hi (Table.not_mem_empty i)
  exact ⟨s₃, s₄, rA, rB, hp, hqr, hq, hoff _ _ hs₄⟩

/-- Two running instances of one entity: descheduling the first alone ends in ERROR. -/
theorem deschedule_in_use : ∃ s₁ s₂ s₃ uA uB w,
    Served (Site.session twoSites) 100 (.scheduleEntity 60) twoSitesBoot uA s₁ ∧
      entityStatus s₁ uA = some .running ∧
      Served (Site.session twoSites) 101 (.scheduleEntity 60) s₁ uB s₂ ∧
      entityStatus s₂ uB = some .running ∧
      Served (Site.session twoSites) 100 (.descheduleEntity uA) s₂ w s₃ ∧
      entityStatus s₃ uA = some (.error "Has instances!") := by
  obtain ⟨s₁, s₂, uA, uB, hA, hrunA, hB, hrunB, h⟩ := two_scheduled
  obtain ⟨⟨w, s₃⟩, hdown, hend⟩ := (Option.any_eq_true _ _).1 h
  exact ⟨s₁, s₂, s₃, uA, uB, w, hA, hrunA, hB, hrunB, served_of_serve hdown,
    of_decide_eq_true hend⟩

end Fog05
