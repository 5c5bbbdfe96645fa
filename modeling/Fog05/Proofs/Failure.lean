import Fog05.Proofs.Footprint
import Fog05.Proofs.Independence

/-! A scheduling that fails. The task collects the instances it creates in its own
copy of the record, and its error handler writes the copy it was given. -/

namespace Fog05

open Conc M

variable {z : Session} {s s' : Fos} {u f svc : Uuid}

def learned (known : List Uuid) : (c : Cmd) → c.Ans → List Uuid
  | .access (.getInstance _), .ok r => r.uuid :: known
  | _, _ => known

def Proc.Raises : Proc → Prop
  | .poll _ _ | .agent _ (.checkFduCompatibility _) | .agent _ (.scheduleFdu _)
  | .agent _ (.onboardFdu _) | .agent _ (.defineFdu _) | .agent _ (.configureFdu _)
  | .agent _ (.startFdu _) => True
  | _ => False

/-- What the calls of a scheduling promise about the record they return. -/
def Proc.Returns : (p : Proc) → Except Exn p.Ret → List Uuid → Prop
  | .poll _ _, .ok r, known | .agent _ (.scheduleFdu _), .ok r, known
  | .agent _ (.defineFdu _), .ok r, known => r.uuid ∈ known
  | _, _, _ => True

/-- To delete nothing, to say that an FDU was scheduled only of an instance that is
in the global store, and to write no entity record in ERROR that lists instances. -/
def Tracking : Discipline Cmd.Ans Proc.Ret Exn (List Uuid) where
  allows known
    | .access (.reply (.agent _ (.scheduleFdu _)) (.ok r)) => r.uuid ∈ known
    | .access (.putEntityInstance r) => ∀ e, r.status = .error e → r.fdus = []
    | c => c.Keeps ∨ ∃ v f e, c = .access (.reply (.agent v (.scheduleFdu f)) (.error e))
  next known c r known' := known' = learned known c r ∧ c.Honest r
  calls _ p := p.Raises
  back known p o known' := known ⊆ known' ∧ p.Returns o known'

theorem subset_learned (known : List Uuid) (c : Cmd) (r : c.Ans) : known ⊆ learned known c r := by
  unfold learned
  split
  · exact List.subset_cons_self _ _
  · exact List.Subset.refl _

theorem tracking_of_keeps {known : List Uuid} {c : Cmd} (h : c.Keeps) :
    Tracking.allows known c := by
  unfold Tracking
  dsimp only
  split
  · exact absurd trivial h
  · exact h.elim
  · exact Or.inl h

section Follows

variable {α : Type} {known : List Uuid}

theorem tracking_of_within {p : M α} (h : p.Within Cmd.Keeps Proc.Raises) (known : List Uuid) :
    p.Follows Tracking (fun _ known' => known ⊆ known') known :=
  h.grows (G := (· ⊆ ·)) (fun _ _ _ => List.Subset.trans)
    (fun _ _ hc => ⟨tracking_of_keeps hc, fun _ _ hn => hn.1 ▸ subset_learned _ _ _⟩)
    (fun _ _ hp => ⟨hp, fun _ _ hb => hb.1⟩) (List.Subset.refl known)

/-- What a call ends with, given what was known when it began. -/
def Tracked (known : List Uuid) (o : Except Exn FDURecord) (known' : List Uuid) : Prop :=
  known ⊆ known' ∧ ∀ r, o = .ok r → r.uuid ∈ known'

theorem tracking_bind {β : Type} {p : M α} {k : α → M β} {Φ : Except Exn β → List Uuid → Prop}
    (hp : p.Within Cmd.Keeps Proc.Raises)
    (hk : ∀ x known', known ⊆ known' → (k x).Follows Tracking Φ known')
    (herr : ∀ e known', known ⊆ known' → Φ (.error e) known') :
    (p >>= k).Follows Tracking Φ known :=
  follows_bind (tracking_of_within hp known) (fun x known' h => hk x known' h) herr

theorem Tracked.error {known' : List Uuid} (h : known ⊆ known') (e : Exn) :
    Tracked known (.error e) known' :=
  ⟨h, nofun⟩

theorem Tracked.weaken {known₁ known' : List Uuid} {o : Except Exn FDURecord} (h : known ⊆ known₁)
    (h' : Tracked known₁ o known') : Tracked known o known' :=
  ⟨List.Subset.trans h h'.1, h'.2⟩

theorem poll_tracking {awaited : FDUState} :
    (body z (.poll u awaited)).Follows Tracking (Tracked known) known := by
  have hallow : Tracking.allows known (.access (.getInstance u)) := Or.inl trivial
  refine Prog.follows_retry (p := Proc.poll u awaited) (f := settle awaited) hallow (fun r known' hn => ?_) fun r known' o hn ho => ?_
  · refine follows_invoke (D := Tracking) (show Tracking.calls _ (.poll u awaited) from trivial)
      fun o known'' hb => ?_
    have h : Tracked known' o known'' := ⟨hb.1, fun r hr => by subst hr; exact hb.2⟩
    exact h.weaken (hn.1 ▸ subset_learned _ _ _)
  · refine ⟨hn.1 ▸ subset_learned _ _ _, fun i hi => ?_⟩
    subst hi
    obtain rfl := settle_ok ho
    rw [hn.1]
    exact List.mem_cons_self ..

theorem invoke_tracking {p : Proc} (hp : p.Raises) {Φ : Except Exn p.Ret → List Uuid → Prop}
    (h : ∀ o known', known ⊆ known' → p.Returns o known' → Φ o known') :
    (Prog.invoke p : M p.Ret).Follows Tracking Φ known :=
  follows_invoke hp fun o known' hb => h o known' hb.1 hb.2

theorem defineFdu_tracking {a : Agent} :
    (Agent.defineFdu z a f).Follows Tracking (Tracked known) known := by
  refine tracking_bind (within_ask trivial) (fun d known₁ h₁ => ?_) fun e _ h => Tracked.error h e
  refine tracking_bind (within_issue trivial) (fun hv known₂ h₂ => ?_) fun e _ h =>
    Tracked.error (List.Subset.trans h₁ h) e
  have h₁₂ := List.Subset.trans h₁ h₂
  refine tracking_bind within_okOr (fun p known₃ h₃ => ?_) fun e _ h =>
    Tracked.error (List.Subset.trans h₁₂ h) e
  have h₁₃ := List.Subset.trans h₁₂ h₃
  refine tracking_bind (DummyHypervisor.within_call (fun _ h => h) nofun) (fun inst known₄ h₄ => ?_)
    fun e _ h => Tracked.error (List.Subset.trans h₁₃ h) e
  apply invoke_tracking (p := .poll inst.uuid .defined) trivial
  intro o known' h hret
  refine ⟨List.Subset.trans h₁₃ (List.Subset.trans h₄ h), fun r hr => ?_⟩
  subst hr
  exact hret

theorem Proc.returns_error (p : Proc) (e : Exn) : p.Returns (.error e) known := by
  cases p with
  | agent v q => cases q <;> trivial
  | _ => trivial

theorem tracking_reply {q : Request} {o : Except Exn q.Ret} (h : (Proc.agent svc q).Returns o known) :
    Tracking.allows known (.access (.reply (.agent svc q) (received z o))) := by
  cases q with
  | scheduleFdu f =>
    rcases o with (e | _) | r
    · exact Or.inr ⟨svc, f, e, rfl⟩
    · exact Or.inr ⟨svc, f, _, rfl⟩
    · exact h
  | _ => exact Or.inl id

theorem rpc_tracking {q : Request} (hraises : (Proc.agent svc q).Raises) :
    (rpc z svc q).Follows Tracking
      (fun o known' => known ⊆ known' ∧ (Proc.agent svc q).Returns o known') known := by
  refine follows_remote (Or.inl trivial) (fun (_ : Unit) known₁ hn => ?_) fun e known₁ hn =>
    ⟨hn.1 ▸ List.Subset.refl _, Proc.returns_error _ _⟩
  obtain rfl : known₁ = known := hn.1
  refine invoke_tracking hraises fun o known₂ hsub hret => ⟨tracking_reply hret, fun (y : Except FError q.Ret) known₃ hn' => ?_⟩
  obtain rfl : known₃ = known₂ := hn'.1
  refine ⟨hsub, ?_⟩
  cases y with
  | error e => exact Proc.returns_error _ _
  | ok x =>
    have ho : o = .ok x := received_eq_ok.1 hn'.2
    rw [ho] at hret
    exact hret

theorem scheduleFdu_tracking {a : Agent} :
    (Agent.scheduleFdu z a f).Follows Tracking (Tracked known) known := by
  have hidle : ∀ c : Cmd, c.Idle → c.Keeps := fun _ h => h.keeps
  refine tracking_bind (Agent.within_getCompatibleNodes (plain_of_idle hidle) fun _ => trivial)
    (fun nodes known₁ h₁ => ?_) fun e _ h => Tracked.error h e
  refine tracking_bind (within_issue trivial) (fun selected known₂ h₂ => ?_) fun e _ h =>
    Tracked.error (List.Subset.trans h₁ h) e
  have h₁₂ := List.Subset.trans h₁ h₂
  cases selected with
  | none => exact Tracked.error h₁₂ _
  | some v =>
    dsimp only
    split
    · exact defineFdu_tracking.mono fun o _ h => h.weaken h₁₂
    · apply (rpc_tracking (q := .defineFdu f) trivial).mono
      intro o known₃ h
      refine ⟨List.Subset.trans h₁₂ h.1, fun r hr => ?_⟩
      subst hr
      exact h.2

theorem Tracked.returns {p : Proc} {o : Except Exn p.Ret} {known' : List Uuid}
    (hsub : known ⊆ known') (h : ∀ r, o = .ok r → p.Returns (.ok r) known') :
    Tracking.back known p o known' := by
  refine ⟨hsub, ?_⟩
  cases o with
  | ok r => exact h r rfl
  | error e => exact Proc.returns_error p e

theorem handle_tracking {a : Agent} {q : Request} (hq : (Proc.agent svc q).Raises) :
    (Agent.handle z a q).Follows Tracking (Tracking.back known (.agent svc q)) known := by
  have hidle : ∀ c : Cmd, c.Idle → c.Keeps := fun _ h => h.keeps
  have hkeeps : ∀ c : Cmd, c.Keeps → c.Keeps := fun _ h => h
  have hpoll : ∀ u awaited, (Proc.poll u awaited).Raises := fun _ _ => trivial
  -- calls that promise nothing about what they return
  have silent : ∀ {q : Request}, (∀ r known', (Proc.agent svc q).Returns (.ok r) known') →
      (Agent.handle z a q).Within Cmd.Keeps Proc.Raises →
      (Agent.handle z a q).Follows Tracking (Tracking.back known (.agent svc q)) known :=
    fun hret hw => (tracking_of_within hw known).mono fun o known' h =>
      Tracked.returns h fun r _ => hret r known'
  cases q with
  | checkFduCompatibility f =>
    exact silent (fun _ _ => trivial) (Agent.within_checkFduCompatibility (plain_of_idle hidle))
  | onboardFdu fdu => exact silent (fun _ _ => trivial) (Agent.within_onboardFdu fdu trivial fun _ => trivial)
  | configureFdu u =>
    exact silent (fun _ _ => trivial) (Agent.within_configureFdu hkeeps hpoll fun _ => trivial)
  | startFdu u =>
    exact silent (fun _ _ => trivial) (Agent.within_startFdu hkeeps hpoll fun _ => trivial)
  | scheduleFdu f => exact scheduleFdu_tracking.mono fun o known' h => Tracked.returns h.1 h.2
  | defineFdu f => exact defineFdu_tracking.mono fun o known' h => Tracked.returns h.1 h.2
  | _ => exact hq.elim

theorem tracking_sound : Tracking.Sound (body z) := by
  intro known p hp
  cases p with
  | poll u awaited => exact poll_tracking.mono fun o known' h => Tracked.returns h.1 h.2
  | task t => exact hp.elim
  | agent svc q =>
    simp only [body]
    split
    · exact handle_tracking hp
    · exact Tracked.returns (List.Subset.refl _) fun _ h => by cases h

theorem scheduleFdus_tracking {a : Agent} (fdus : List FDUDescriptor) (inst : EntityRecord) :
    (Agent.scheduleFdus z a fdus inst).Follows Tracking (fun _ _ => True) known := by
  induction fdus generalizing inst known with
  | nil => trivial
  | cons fdu fdus ih =>
    refine follows_okOr_bind (fun f _ => ?_) fun _ => trivial
    refine follows_bind (rpc_tracking (q := .scheduleFdu f) trivial) (fun i known₁ _ => ?_)
      fun _ _ _ => trivial
    refine tracking_bind (Agent.within_client fun _ h => h.idle.keeps) (fun v known₂ _ => ?_)
      fun _ _ _ => trivial
    exact tracking_bind (Agent.within_bringUp (fun _ h => h.keeps) trivial trivial)
      (fun _ _ _ => ih _) fun _ _ _ => trivial

theorem writeStatus_tracking {inst : EntityRecord} {status : EntityStatus}
    (hst : ∀ e, status ≠ .error e) : (Agent.writeStatus inst status).Follows Tracking
      (fun o _ => ∀ r, o = .ok r → r = { inst with status }) known :=
  follows_ask_bind (fun e he => absurd he (hst e)) (fun _ _ _ => fun r hr => by cases hr; rfl)
    fun _ _ _ => nofun

theorem schedule_tracking {nodeUuid : Uuid} {inst : EntityRecord} {descriptor : EntityDescriptor}
    (hfdus : inst.fdus = []) :
    ((Task.schedule nodeUuid svc inst descriptor).body z).Follows Tracking (fun _ _ => True) known := by
  have honboard : ∀ (fdus : List FDUDescriptor) known,
      (Agent.onboardFdus z ⟨nodeUuid, svc⟩ fdus).Follows Tracking (fun _ _ => True) known := by
    intro fdus
    induction fdus with
    | nil => exact fun _ => trivial
    | cons fdu fdus ih =>
      exact fun known => follows_bind (rpc_tracking (q := .onboardFdu fdu) trivial)
        (fun _ _ _ => ih _) fun _ _ _ => trivial
  have hbody : ∀ known, (Agent.entityScheduling z ⟨nodeUuid, svc⟩ inst descriptor).Follows Tracking
      (fun _ _ => True) known := fun known =>
    follows_bind (honboard _ _) (fun _ _ _ =>
      follows_bind (writeStatus_tracking (by simp)) (fun _ _ _ =>
        follows_bind (writeStatus_tracking (by simp)) (fun _ _ _ =>
          follows_bind (scheduleFdus_tracking _ _) (fun _ _ _ =>
            follows_bind (writeStatus_tracking (by simp)) (fun _ _ _ => trivial)
              fun _ _ _ => trivial) fun _ _ _ => trivial)
          fun _ _ _ => trivial) fun _ _ _ => trivial) fun _ _ _ => trivial
  refine (Prog.follows_bindE _ _ _).2 ((hbody known).mono fun o known' _ => ?_)
  rcases o with (e | _) | _
  · exact ⟨fun _ _ => hfdus, fun r _ _ => by cases r <;> trivial⟩
  · trivial
  · trivial

end Follows

/-- The record of an FDU instance that `schedule_fdu` has returned. -/
def scheduled : ((q : Rpc) × Except FError q.Ret) → Option FDURecord
  | ⟨.agent _ (.scheduleFdu _), .ok i⟩ => some i
  | _ => none

theorem scheduled_eq_some {x : (q : Rpc) × Except FError q.Ret} {i : FDURecord}
    (h : scheduled x = some i) : ∃ v f, x = ⟨.agent v (.scheduleFdu f), .ok i⟩ := by
  unfold scheduled at h
  split at h
  · cases h
    exact ⟨_, _, rfl⟩
  · cases h

/-- The instances that `schedule_fdu` has returned between `s` and `s'`. -/
def created (s s' : Fos) : List FDURecord :=
  (s'.replies.drop s.replies.length).filterMap scheduled

/-- What ties the task's knowledge to the state: `s₀` is where it started, `path`
its record's. -/
structure Tracks (s₀ : Fos) (path : Uuid × Uuid) (known : List Uuid) (s : Fos) : Prop where
  stored : ∀ u ∈ known, ∃ i ∈ s.global.instances, i.uuid = u
  replies : ∃ l, s.replies = s₀.replies ++ l ∧ ∀ i ∈ l.filterMap scheduled, i.uuid ∈ known
  record : ∀ r ∈ s.global.entityInstances, r.path = path → ∀ e, r.status = .error e → r.fdus = []

theorem Tracks.move {s₀ : Fos} {path : Uuid × Uuid} {known : List Uuid} {n : Uuid} {st : Store}
    (h : Tracks s₀ path known s) (hm : s.toStore.monitor n = some st) :
    Tracks s₀ path known { s with toStore := st } := by
  unfold Store.monitor at hm
  split at hm
  · cases hm
  · next inst _ _ =>
    cases hm
    refine ⟨fun u hu => ?_, h.replies, h.record⟩
    obtain ⟨i, hi, hiu⟩ := h.stored u hu
    by_cases hp : i.path = inst.path
    · exact ⟨inst, Table.mem_put_self _ _, hiu ▸ (congrArg Prod.snd hp).symm⟩
    · exact ⟨i, Table.mem_put.2 (Or.inr ⟨hi, hp⟩), hiu⟩

theorem Tracks.exec {s₀ : Fos} {path : Uuid × Uuid} {known : List Uuid} {c : Cmd} {ch : Choice}
    {r : c.Ans} (h : Tracks s₀ path known s) (hallow : Tracking.allows known c)
    (hx : exec c ch s = some (r, s')) : Tracks s₀ path (learned known c r) s' := by
  cases c with
  | access a =>
    rcases exec_access hx with ⟨-, hr⟩ | ⟨e, -, rfl, rfl⟩
    · obtain ⟨rfl, rfl⟩ := Prod.mk.inj hr
      cases a with
      | getInstance u =>
        cases hget : s.global.getInstance u with
        | error e => simpa [Access.run, hget, learned] using h
        | ok i =>
          simp only [hget, learned]
          obtain ⟨l, hl, hknown⟩ := h.replies
          refine ⟨fun v hv => ?_, ⟨l, hl, fun j hj => ?_⟩, h.record⟩
          · rcases List.mem_cons.1 hv with rfl | hv
            · exact ⟨i, (single_select_key hget).1, rfl⟩
            · exact h.stored v hv
          · exact List.mem_cons_of_mem _ (hknown j hj)
      | deleteInstance f u => rcases hallow with hk | ⟨_, _, _, hk⟩ <;> cases hk
      | reply q o =>
        obtain ⟨l, hl, hknown⟩ := h.replies
        refine ⟨h.stored, ⟨l ++ [⟨q, o⟩], by simp [hl], fun i hi => ?_⟩, h.record⟩
        rw [List.filterMap_append, List.mem_append] at hi
        rcases hi with hi | hi
        · exact hknown i hi
        · obtain ⟨x, hx, hi⟩ := List.mem_filterMap.1 hi
          obtain rfl := List.mem_singleton.1 hx
          obtain ⟨v, f, hi⟩ := scheduled_eq_some hi
          cases hi
          exact hallow
      | putEntityInstance x =>
        refine ⟨h.stored, h.replies, fun r hr hp e he => ?_⟩
        rcases Table.mem_put.1 hr with rfl | hr
        · exact hallow e he
        · exact h.record r hr.1 hp e he
      | _ => exact ⟨h.stored, h.replies, h.record⟩
    · cases a <;> exact h
  | _ =>
    obtain ⟨hst, -, hrep⟩ := exec_internal (by simp) hx
    refine ⟨?_, ?_, ?_⟩
    · rw [hst]; exact h.stored
    · rw [hrep]; exact h.replies
    · rw [hst]; exact h.record

def starts : Cmd → Bool
  | .access (.request (.agent _ (.startFdu _))) => true
  | _ => false

theorem failed_start : ∃ k s' r i, (system (Site.session twoSites) Unreliable).Runs k
    (twoSitesBoot.scheduling 0 60)
    ((Task.schedule 0 100 (Agent.newRecord 0 60) (.plain 60 [.plain 50])).body
      (Site.session twoSites)) s' (.final (.ok ())) ∧
    r ∈ s'.global.entityInstances ∧ r.path = (Agent.newRecord 0 60).path ∧
    r.status = .error "timeout" ∧ r.fdus = [] ∧ i ∈ created (twoSitesBoot.scheduling 0 60) s' ∧
    ∃ j ∈ s'.global.instances, j.uuid = i.uuid := by
  obtain ⟨o, s', hplay, h⟩ := Machine.exists_drive (f := fun o s' => o.toBool &&
      s'.global.entityInstances.rows.any fun r => r.path = (Agent.newRecord 0 60).path &&
        r.status = .error "timeout" && r.fdus = [] &&
        (created (twoSitesBoot.scheduling 0 60) s').any fun i =>
          s'.global.instances.rows.any fun j => j.uuid = i.uuid)
    (show ((machine (Site.session twoSites)).drive (failing starts (.zError "timeout")) [0, 1] 10000
      (twoSitesBoot.scheduling 0 60)
      ((Task.schedule 0 100 (Agent.newRecord 0 60) (.plain 60 [.plain 50])).body
        (Site.session twoSites))).any _ = true by decide +kernel)
  obtain ⟨k, hrun⟩ := Machine.runs_of_drive Unreliable (fun _ _ => trivial) hplay
  simp only [Bool.and_eq_true, List.any_eq_true, decide_eq_true_eq] at h
  obtain ⟨ho, r, hr, ⟨⟨hp, he⟩, hf⟩, i, hi, j, hj, hji⟩ := h
  cases o with
  | error e => cases ho
  | ok u => exact ⟨k, s', r, i, hrun, hr, hp, he, hf, hi, j, hj, hji⟩

/-- A scheduling that ends in ERROR, wherever it failed, lists the instances it has
created and that still exist exactly when it has not created any. -/
theorem error_record_lists_iff {nodeUuid : Uuid} {inst : EntityRecord}
    {descriptor : EntityDescriptor} (hinst : inst ∈ s.global.entityInstances)
    (hfdus : inst.fdus = []) {k : ℕ} {o : Except Exn Unit}
    (hrun : (system z Unreliable).Runs k s ((Task.schedule nodeUuid svc inst descriptor).body z) s'
      (.final o)) {r : EntityRecord} (hr : r ∈ s'.global.entityInstances)
    (hpath : r.path = inst.path) {e : String} (hend : r.status = .error e) :
    (∀ i ∈ created s s', (∃ j ∈ s'.global.instances, j.uuid = i.uuid) → i.uuid ∈ r.fdus) ↔
      created s s' = [] := by
  have hstart : Tracks s inst.path [] s := by
    refine ⟨nofun, ⟨[], by simp, nofun⟩, fun x hx hp e' he' => ?_⟩
    obtain rfl := Table.eq_of_key hx hinst hp
    exact hfdus
  have htask : ((Task.schedule nodeUuid svc inst descriptor).body z).Follows Tracking
      (fun _ _ => True) [] := schedule_tracking hfdus
  obtain ⟨known, -, hend'⟩ := (ensures_of_follows tracking_sound (Tracks s inst.path)
    (fun _ _ _ _ h hm => h.move hm)
    (fun _ _ _ _ _ _ h hallow hx => ⟨_, ⟨rfl, exec_honest hx⟩, h.exec hallow hx⟩)
    htask hstart).1 k s' o hrun
  have hempty : r.fdus = [] := hend'.record r hr hpath e hend
  obtain ⟨l, hl, hknown⟩ := hend'.replies
  rw [created, hl, List.drop_left]
  constructor
  · intro h
    apply List.eq_nil_iff_forall_not_mem.2
    intro i hi
    have hlisted := h i hi (hend'.stored _ (hknown i hi))
    rw [hempty] at hlisted
    cases hlisted
  · intro h i hi
    rw [h] at hi
    cases hi

/-- The entity whose only instance could not be started. -/
theorem error_record_lists_iff_failed_start : ∃ s' r, r ∈ s'.global.entityInstances ∧
    r.status = .error "timeout" ∧ ¬ ∀ i ∈ created (twoSitesBoot.scheduling 0 60) s',
      (∃ j ∈ s'.global.instances, j.uuid = i.uuid) → i.uuid ∈ r.fdus := by
  obtain ⟨k, s', r, i, hrun, hr, hp, he, -, hi, -⟩ := failed_start
  refine ⟨s', r, hr, he, fun h => ?_⟩
  rw [(error_record_lists_iff (Table.mem_put_self _ _) rfl hrun hr hp he).1 h] at hi
  cases hi

/-- It ends in ERROR with no instance on record, and the instance is still there. -/
theorem failed_start_unlisted : ∃ k s' r i, (system (Site.session twoSites) Unreliable).Runs k
    (twoSitesBoot.scheduling 0 60)
    ((Task.schedule 0 100 (Agent.newRecord 0 60) (.plain 60 [.plain 50])).body
      (Site.session twoSites)) s' (.final (.ok ())) ∧
    r ∈ s'.global.entityInstances ∧ r.path = (Agent.newRecord 0 60).path ∧
    r.status = .error "timeout" ∧ i ∈ created (twoSitesBoot.scheduling 0 60) s' ∧
    (∃ j ∈ s'.global.instances, j.uuid = i.uuid) ∧ i.uuid ∉ r.fdus := by
  obtain ⟨k, s', r, i, hrun, hr, hp, he, hf, hi, hj⟩ := failed_start
  exact ⟨k, s', r, i, hrun, hr, hp, he, hi, hj, by simp [hf]⟩

end Fog05
