import Fog05.Proofs.Scheduling

/-! The task that takes an entity instance down: a loop over the instances of
its record, then one over the FDUs of its descriptor. -/

namespace Fog05

open Conc M

variable {s s₁ s' : Fos} {n u svc f : Uuid}
variable {z : Session} {ok : Choice → Prop} [Fair ok] {t : Prop}

/-- The outcomes of `offload_fdu`: no descriptor, one that is in use, or one
that is in the catalog no longer. -/
inductive Offloads (s : Fos) (f : Uuid) : Except Exn Uuid → Fos → Prop
  | missing {e s'} : s.global.getFdu f = .error e → Leads s s.toStore s' →
      Offloads s f (.error (.err e)) s'
  | inUse {d i s'} : s.global.getFdu f = .ok d → i ∈ s.global.instances → i.fduUuid = f →
      Leads s s.toStore s' → Offloads s f (.error (.err .hasInstances)) s'
  | gone {d s'} : s.global.getFdu f = .ok d → (∀ i ∈ s.global.instances, i.fduUuid ≠ f) →
      Leads s (s.withFdus (s.global.fdus.erase (some f))) s' → Offloads s f (.ok f) s'

theorem Offloads.stable (hs : s.Still) (o : Except Exn Uuid) : Stable (Offloads s f o) := by
  intro s' m st h hm
  cases h with
  | missing he hl => exact .missing he (Leads.stable hs s' m st hl hm)
  | inUse hd hi hf hl => exact .inUse hd hi hf (Leads.stable hs s' m st hl hm)
  | gone hd hi hl =>
    exact .gone hd hi (leads_withFdus_stable hs _ s' m st hl hm)

theorem Offloads.received {o : Except Exn Uuid} (h : Offloads s f o s')
    (l : List ((q : Rpc) × Except FError q.Ret)) :
    Offloads s f ((received z o).mapError .err) { s' with replies := l } := by
  cases h with
  | missing he hl => exact .missing he (hl.replies l)
  | inUse hd hi hf hl => exact .inUse hd hi hf (hl.replies l)
  | gone hd hi hl => exact .gone hd hi (hl.replies l)

namespace Agent

variable {a : Agent}

theorem ensures_offloadFdu (hs : s.Still) :
    Ensures z ok t (offloadFdu f) s (Offloads s f) := by
  refine ensures_ask_bind hs (fun d hd => ?_) fun e he => .missing he (Leads.refl s)
  refine ensures_ask_bind hs (fun l hl => ?_) nofun
  cases hl
  split
  · next hempty =>
    refine ensures_ask_bind hs (fun _ _ => ensures_pure ?_) nofun
    refine .gone hd (fun i hi hf => ?_) ((Leads.refl s).withStore _)
    have : i ∈ s.global.getAllFduInstances f := Table.mem_select.2 ⟨hi, hf⟩
    rw [List.isEmpty_iff.1 hempty] at this
    cases this
  · next hne =>
    obtain ⟨i, hi⟩ := List.exists_mem_of_ne_nil _ fun h => hne (List.isEmpty_iff.2 h)
    obtain ⟨hi, hf⟩ := Table.mem_select.1 hi
    exact ensures_fail (.inUse hd hi hf (Leads.refl s))

theorem ensures_rpc_offloadFdu (hs : s.Still) (hsvc : z.server svc = some n) :
    Ensures z ok t (rpc z svc (.offloadFdu f)) s (Offloads s f) :=
  ensures_rpc hs hsvc (ensures_offloadFdu hs) (Offloads.stable hs) fun _ _ l h => h.received l

/-- An instance that the task can take down from where it is. -/
def Live (a : Agent) (s : Fos) (u : Uuid) : Prop :=
  ∃ inst n, inst.uuid = u ∧ Ready s.toStore n .running inst ∧ DummyHypervisor.Decodable inst ∧
    Located a s n

theorem Live.only {P : Uuid → Prop} (h : Live a s u) (ho : Only P s s') (hu : ¬ P u) :
    Live a s' u := by
  obtain ⟨inst, n, rfl, hr, hd, hl⟩ := h
  exact ⟨inst, n, rfl, hr.only ho hu, hd, ho.located hl⟩

/-- The outcome of the loop over the instances of the record. It touches only
these; when it succeeds they are gone, and on live ones it does succeed. -/
structure UnschedulesFdus (ok : Choice → Prop) (a : Agent) (l : List Uuid) (s : Fos)
    (o : Except Exn Unit) (s' : Fos) : Prop where
  only : Only (· ∈ l) s s'
  gone : o = .ok () → ∀ u ∈ l, ∀ i ∈ s'.global.instances, i.uuid ≠ u
  succeeds : (∀ e, ¬ ok (.net (.error e))) → l.Nodup → (∀ u ∈ l, Live a s u) → o = .ok ()

theorem ensures_unscheduleFdus (hs : Settled s) (ha : z.server a.instanceUuid = some a.nodeUuid)
    (hadv : Advertised z s) (l : List Uuid) :
    Ensures z ok t (unscheduleFdus z a l) s (UnschedulesFdus ok a l s) := by
  induction l generalizing s with
  | nil => exact ensures_pure ⟨Only.refl hs, by simp, fun _ _ _ => rfl⟩
  | cons u l ih =>
    refine ensures_ask_bind hs.still (fun (inst : FDURecord) hinst => ?_) fun e he => ?_
    · obtain ⟨hknown, rfl⟩ := hs.getInstance.1 hinst
      refine ensures_client hs.still ha hadv (fun svc hsvc _ => ?_) fun e hloc => ?_
      · refine ensures_bind (ensures_takeDown hs hsvc (hs.owned hknown)) ?_ ?_
        · rintro _ s₁ ⟨honly, hgone, -⟩
          have ho : Only (· ∈ inst.uuid :: l) s s₁ := honly.mono (by rintro _ rfl; simp)
          apply (ih honly.settled (honly.advertised hadv)).mono
          rintro o s' ⟨honly', hgone', hok⟩
          refine ⟨ho.trans (honly'.mono fun v hv => List.mem_cons_of_mem _ hv), ?_, ?_⟩
          · intro ho' v hv i hi hiv
            rcases List.mem_cons.1 hv with rfl | hv
            · by_cases hmem : inst.uuid ∈ l
              · exact hgone' ho' _ hmem i hi hiv
              · exact hgone rfl i ((honly'.same i (hiv ▸ hmem)).1 hi) hiv
            · exact hgone' ho' v hv i hi hiv
          · intro hnet hnodup hlive
            obtain ⟨hnot, hnodup⟩ := List.nodup_cons.1 hnodup
            apply hok hnet hnodup
            intro v hv
            exact (hlive v (List.mem_cons_of_mem _ hv)).only honly fun h => hnot (h ▸ hv)
        · rintro e s₁ ⟨honly, -, hok⟩
          refine ⟨honly.mono (by rintro _ rfl; simp), nofun, fun hnet _ hlive => ?_⟩
          obtain ⟨i, n, hiu, hr, hd, -⟩ := hlive inst.uuid (List.mem_cons_self ..)
          obtain rfl := hs.unique i hr.known inst hknown hiu
          cases hok hnet i (hr.home.symm ▸ hr) rfl hd
      · refine ⟨Only.refl hs, nofun, fun _ _ hlive => absurd ?_ hloc⟩
        obtain ⟨i, n, hiu, hr, -, hl⟩ := hlive inst.uuid (List.mem_cons_self ..)
        obtain rfl := hs.unique i hr.known inst hknown hiu
        exact hr.home ▸ hl
    · refine ⟨Only.refl hs, nofun, fun _ _ hlive => ?_⟩
      obtain ⟨i, n, hiu, hr, -⟩ := hlive u (List.mem_cons_self ..)
      have := hs.getInstance.2 ⟨hr.known, hiu⟩
      rw [show s.global.getInstance u = .error e from he] at this
      cases this

/-- The catalog has FDU `f`, and no instance of it is left. -/
def Unused (s : Fos) (f : Uuid) : Prop :=
  (∃ d, s.global.getFdu f = .ok d) ∧ ∀ i ∈ s.global.instances, i.fduUuid ≠ f

/-- The FDU that cannot be offloaded: the catalog has it, and it has an instance. -/
def InUse (s : Fos) (f : Uuid) : Prop :=
  (∃ d, s.global.getFdu f = .ok d) ∧ ∃ i ∈ s.global.instances, i.fduUuid = f

/-- The outcome of the loop over the FDUs of the descriptor. -/
structure OffloadsFdus (l : List FDUDescriptor) (s : Fos) (o : Except Exn Unit) (s' : Fos) :
    Prop where
  only : CatalogOnly (· ∈ l.map FDUDescriptor.uuid) s s'
  gone : o = .ok () → ∀ d ∈ l, (∀ d' ∈ s'.global.fdus, d'.uuid ≠ d.uuid) ∧
    ∀ i ∈ s.global.instances, some i.fduUuid ≠ d.uuid
  succeeds : (l.map FDUDescriptor.uuid).Nodup →
    (∀ d ∈ l, ∃ f, d.uuid = some f ∧ Unused s f) → o = .ok ()
  fails : ∀ d l' f, l = d :: l' → d.uuid = some f → InUse s f →
    o = .error (.err .hasInstances) ∧ s'.toStore = s.toStore

theorem ensures_offloadFdus (hs : Settled s) (ha : z.server a.instanceUuid = some a.nodeUuid)
    (l : List FDUDescriptor) :
    Ensures z ok t (offloadFdus z a l) s (OffloadsFdus l s) := by
  induction l generalizing s with
  | nil => exact ensures_pure ⟨.of_leads (Leads.refl s), by simp, fun _ _ => rfl, fun _ _ _ h => by cases h⟩
  | cons d l ih =>
    cases hd : d.uuid with
    | none =>
      simp only [offloadFdus, hd, okOr_none_bind]
      refine ensures_fail ⟨.of_leads (Leads.refl s), fun h => (by cases h), fun _ h => ?_, ?_⟩
      · obtain ⟨f, hf, -⟩ := h d (List.mem_cons_self ..)
        rw [hd] at hf
        cases hf
      · rintro _ _ f ⟨rfl, rfl⟩ hf -
        rw [hd] at hf
        cases hf
    | some f =>
      simp only [offloadFdus, hd, okOr_some_bind]
      refine ensures_bind (ensures_rpc_offloadFdu hs.still ha) ?_ ?_
      · rintro _ s₁ (_ | _ | ⟨hget, hfree, hl⟩)
        have hfirst : CatalogOnly (· = some f) s s₁ := by
          refine ⟨by rw [hl.store]; exact hl, fun d' hd' => ?_⟩
          rw [hl.store]
          exact Table.mem_erase.trans (and_iff_left hd')
        apply (ih (hfirst.settled hs)).mono
        intro o s' h
        have hrest := h.only
        refine ⟨(hfirst.mono ?_).trans (hrest.mono ?_), ?_, ?_, ?_⟩
        · rintro _ rfl
          simp [hd]
        · exact fun x hx => List.mem_cons_of_mem _ hx
        · intro ho d' hd'
          have hgone := h.gone ho
          rw [hfirst.instances] at hgone
          rcases List.mem_cons.1 hd' with rfl | hd'
          · refine ⟨fun d'' hd'' hu => ?_, fun i hi hf => hfree i hi (by simpa [hd] using hf)⟩
            by_cases hmem : d''.uuid ∈ l.map FDUDescriptor.uuid
            · obtain ⟨e, he, heu⟩ := List.mem_map.1 hmem
              exact (hgone e he).1 d'' hd'' heu.symm
            · have hin := (hrest.2 d'' hmem).1 hd''
              rw [hl.store] at hin
              exact (Table.mem_erase.1 hin).2 (hu.trans hd)
          · exact hgone d' hd'
        · intro hnodup hunused
          obtain ⟨hnot, hnodup⟩ := List.nodup_cons.1 hnodup
          apply h.succeeds hnodup
          intro d' hd'
          obtain ⟨f', hf', ⟨d'', hd''⟩, hfree'⟩ := hunused d' (List.mem_cons_of_mem _ hd')
          have hne : f' ≠ f := fun h => hnot (List.mem_map.2 ⟨d', hd', by rw [hf', hd, h]⟩)
          refine ⟨f', hf', ⟨d'', ?_⟩, by rw [hfirst.instances]; exact hfree'⟩
          rw [Global.getFdu, hl.store]
          exact (congrArg single (Table.select_erase_of_not (by simpa using hne.symm))).trans hd''
        · rintro _ _ f' ⟨rfl, rfl⟩ hf' ⟨-, i, hi, hif⟩
          rw [hd] at hf'
          cases hf'
          exact absurd hif (hfree i hi)
      · intro e s₁ h
        refine ⟨?_, fun h => (by cases h), fun _ hunused => ?_, ?_⟩
        · cases h with
          | missing _ hl => exact .of_leads hl
          | inUse _ _ _ hl => exact .of_leads hl
        · obtain ⟨f', hf', ⟨d', hd'⟩, hfree⟩ := hunused d (List.mem_cons_self ..)
          rw [hd] at hf'
          cases hf'
          cases h with
          | missing he _ => rw [he] at hd'; cases hd'
          | inUse _ hi hif _ => exact absurd hif (hfree _ hi)
        · rintro _ _ f' ⟨rfl, rfl⟩ hf' ⟨⟨d', hd'⟩, -⟩
          rw [hd] at hf'
          cases hf'
          cases h with
          | missing he _ => rw [he] at hd'; cases hd'
          | inUse _ _ _ hl => exact ⟨rfl, hl.store⟩

/-- The outcomes of the task: it fails in one of its loops, or goes through. -/
inductive Unschedules (ok : Choice → Prop) (a : Agent) (inst : EntityRecord) (descriptor : EntityDescriptor)
    (s : Fos) : Except Exn Unit → Fos → Prop
  | stuck {e s'} : UnschedulesFdus ok a inst.fdus (s.write { inst with status := .stopping })
      (.error e) s' → Unschedules ok a inst descriptor s (.error e) s'
  | kept {e s₁ s'} : UnschedulesFdus ok a inst.fdus (s.write { inst with status := .stopping })
      (.ok ()) s₁ → OffloadsFdus descriptor.fdus ((s₁.write { inst with status := .stopped }).write
      { inst with status := .offloading }) (.error e) s' →
      Unschedules ok a inst descriptor s (.error e) s'
  | offloaded {s₁ s₂} : UnschedulesFdus ok a inst.fdus (s.write { inst with status := .stopping })
      (.ok ()) s₁ → OffloadsFdus descriptor.fdus ((s₁.write { inst with status := .stopped }).write
      { inst with status := .offloading }) (.ok ()) s₂ →
      Unschedules ok a inst descriptor s (.ok ()) (s₂.write { inst with status := .offloaded })

theorem ensures_entityUnscheduling (hs : Settled s)
    (ha : z.server a.instanceUuid = some a.nodeUuid) (hadv : Advertised z s)
    {inst : EntityRecord} :
    Ensures z ok t (entityUnscheduling z a inst) s fun o s' =>
      (∃ e, s.global.getEntity inst.id = .error e ∧ o = .error (.err e) ∧ s' = s) ∨
      ∃ descriptor, s.global.getEntity inst.id = .ok descriptor ∧
        Unschedules ok a inst descriptor s o s' := by
  refine ensures_ask_bind hs.still (fun descriptor hdescr => ?_) fun e he =>
    Or.inl ⟨e, he, rfl, rfl⟩
  refine Ensures.mono ?_ fun o s' h => Or.inr ⟨descriptor, hdescr, h⟩
  apply ensures_writeStatus hs.still
  have hs₁ := hs.write { inst with status := .stopping }
  refine ensures_bind (ensures_unscheduleFdus hs₁ ha hadv inst.fdus) ?_ fun e s₁ h => .stuck h
  rintro _ s₁ h₁
  apply ensures_writeStatus h₁.only.settled.still
  have hs₂ := h₁.only.settled.write { inst with status := .stopped }
  apply ensures_writeStatus hs₂.still
  have hs₃ := hs₂.write { inst with status := .offloading }
  refine ensures_bind (ensures_offloadFdus hs₃ ha descriptor.fdus) ?_ fun e s₂ h => .kept h₁ h
  rintro _ s₂ h₂
  exact ensures_writeStatus (h₂.only.settled hs₃).still (ensures_pure (.offloaded h₁ h₂))

end Agent

/-- If the task of `deschedule_entity` succeeds, whatever failed on the way, it has
written STOPPING, STOPPED, OFFLOADING and OFFLOADED; the listed instances and the
FDUs of the entity are gone from every store, and everything else is unchanged. -/
theorem entityUnscheduling_takes_down {a : Agent} {inst : EntityRecord} {k : ℕ}
    (hs : Settled s) (ha : z.server a.instanceUuid = some a.nodeUuid) (hadv : Advertised z s)
    (hrun : (system z Unreliable).Runs k s (Agent.entityUnscheduling z a inst) s'
      (.final (.ok ()))) :
    ∃ descriptor, s.global.getEntity inst.id = .ok descriptor ∧
      s'.writes = s.writes ++ [{ inst with status := .stopping }, { inst with status := .stopped },
        { inst with status := .offloading }, { inst with status := .offloaded }] ∧
      (∀ i, i.uuid ∈ inst.fdus →
        i ∉ s'.global.instances ∧ ∀ n, i ∉ (s'.node n).instances) ∧
      (∀ d ∈ descriptor.fdus, ∀ d' ∈ s'.global.fdus, d'.uuid ≠ d.uuid) ∧
      (∀ d ∈ descriptor.fdus, ∀ i ∈ s'.global.instances, some i.fduUuid ≠ d.uuid) ∧
      (∀ i, i.uuid ∉ inst.fdus → (i ∈ s'.global.instances ↔ i ∈ s.global.instances) ∧
        ∀ n, i ∈ (s'.node n).instances ↔ i ∈ (s.node n).instances) ∧
      (∀ d, d.uuid ∉ descriptor.fdus.map FDUDescriptor.uuid →
        (d ∈ s'.global.fdus ↔ d ∈ s.global.fdus)) ∧
      s'.global.entities = s.global.entities ∧
      ∀ r, r.path ≠ inst.path →
        (r ∈ s'.global.entityInstances ↔ r ∈ s.global.entityInstances) := by
  obtain ⟨_, -, h, -⟩ | ⟨descriptor, hdescr, h⟩ :=
    (Agent.ensures_entityUnscheduling (t := False) hs ha hadv).of_ok hrun
  · cases h
  cases h with
  | @offloaded s₁ s₂ h₁ h₂ =>
    have hs₁ := h₁.only.settled
    have hs₂ := h₂.only.settled ((hs₁.write _).write _)
    have hinst : s₂.global.instances = s₁.global.instances := h₂.only.instances
    have hfdus : s₁.global.fdus = s.global.fdus := h₁.only.fdus
    have hgone : ∀ i, i.uuid ∈ inst.fdus → i ∉ s₂.global.instances := fun i hi hmem =>
      h₁.gone rfl i.uuid hi i (hinst ▸ hmem) rfl
    have hsame : ∀ i, i.uuid ∉ inst.fdus →
        (i ∈ s₂.global.instances ↔ i ∈ s.global.instances) := fun i hi => by
      rw [hinst]
      exact h₁.only.same i hi
    refine ⟨descriptor, hdescr, ?_, fun i hi => ⟨hgone i hi, fun n hn => ?_⟩,
      fun d hd => (h₂.gone rfl d hd).1, fun d hd i hi => (h₂.gone rfl d hd).2 i (hinst ▸ hi),
      fun i hi => ⟨hsame i hi, fun n => ?_⟩, fun d hd => ?_, ?_, fun r hr => ?_⟩
    · change s₂.writes ++ _ = _
      rw [h₂.only.1.writes]
      change s₁.writes ++ _ ++ _ ++ _ = _
      rw [h₁.only.writes]
      change s.writes ++ _ ++ _ ++ _ ++ _ = _
      simp
    · exact hgone i hi (hs₂.mem_local.1 hn).1
    · exact hs₂.mem_local.trans ((and_congr_left' (hsame i hi)).trans hs.mem_local.symm)
    · rw [← hfdus]
      exact h₂.only.2 d hd
    · exact (congrArg (·.entities) h₂.only.rest).trans (congrArg (·.entities) h₁.only.rest)
    · have hwrite : ∀ (s : Fos) status, r ∈ (s.write { inst with status }).global.entityInstances ↔
          r ∈ s.global.entityInstances := fun _ _ => mem_write_of_ne hr
      rw [hwrite, h₂.only.rest]
      change r ∈ ((s₁.write _).write _).global.entityInstances ↔ _
      rw [hwrite, hwrite, h₁.only.rest]
      exact hwrite _ _

/-- An entity of two FDUs on two nodes, up and down again. -/
theorem entityUnscheduling_takes_down_two : ∃ (s s' : Fos) (us : List Uuid), us.length = 2 ∧
    (∀ u ∈ us, ∃ i, s.global.getInstance u = .ok i) ∧
    ∀ i ∈ s'.global.instances, i.uuid ∉ us := by
  let sites : List Site := [.small 0 100 7, .small 1 101 8]
  let descriptor : EntityDescriptor := .plain 60 [.plain 50, .plain 51]
  let inst : EntityRecord := ⟨70, 60, .onboarding, [], [], none, none⟩
  obtain ⟨o, s, hplay, ho⟩ := Machine.exists_drive
    (f := fun o s => o.toBool && s.global.entityInstances.rows.any fun r =>
      (playUsual sites s (Agent.entityUnscheduling (Site.session sites) ⟨1, 101⟩ r)).any
        fun x => x.1.toBool)
    (show (playUsual sites (boot sites [] [descriptor])
      (Agent.entityScheduling (Site.session sites) ⟨0, 100⟩ inst descriptor)).any _ = true by
      decide +kernel)
  obtain ⟨ho, hany⟩ := Bool.and_eq_true_iff.1 ho
  obtain ⟨r, hr, hdown⟩ := List.any_eq_true.1 hany
  obtain ⟨⟨o', s'⟩, hplay', ho'⟩ := (Option.any_eq_true _ _).1 hdown
  obtain ⟨k, hrun⟩ := runs_of_playUsual unreliable hplay
  obtain ⟨k', hrun'⟩ := runs_of_playUsual unreliable hplay'
  cases o with
  | error e => cases ho
  | ok x =>
    cases o' with
    | error e => cases ho'
    | ok x' =>
      have hs := boot_settled sites [] [descriptor]
      obtain ⟨us, h⟩ :=
        (Agent.ensures_entityScheduling hs rfl (by decide +kernel)).of_ok hrun rfl
      obtain rfl : r = Agent.runningRecord inst us := by
        rcases (h.records r).1 hr with hr | ⟨hr, -⟩
        · exact hr
        · exact absurd hr (Table.not_mem_empty r)
      have hadv : Advertised (Site.session sites) s := by
        rw [Advertised, h.nodes]
        decide +kernel
      obtain ⟨-, -, -, hgone, -⟩ := entityUnscheduling_takes_down h.settled rfl hadv hrun'
      refine ⟨s, s', us, h.up.length_eq.symm, fun u hu => ?_, fun i hi hu => ?_⟩
      · obtain ⟨d, -, i, hiu, -, hi, -⟩ := exists_of_forall₂ h.up.flip hu
        exact ⟨i, h.settled.getInstance.2 ⟨hi.known, hiu⟩⟩
      · exact (hgone i (by simpa [Agent.runningRecord, inst] using hu)).1 hi

end Fog05
