import Fog05.Proofs.Entity
import Fog05.Proofs.Follows

/-! The task that brings an entity instance up. Choosing a node reads only; each
FDU of the descriptor then gets an instance of its own, under a fresh uuid. -/

namespace Fog05

open Conc M

variable {s s₁ s' : Fos} {n u svc f : Uuid}
variable {z : Session} {ok : Choice → Prop} {t : Prop}

theorem Creates.stable (hs : s.Still) (o : Except Exn FDURecord) : Stable (Creates s n f o) := by
  rintro s' m st (⟨e, ho, hl⟩ | ⟨u, hu, hu', ho, hl⟩) hm
  · exact Or.inl ⟨e, ho, Leads.stable hs s' m st hl hm⟩
  · exact Or.inr ⟨u, hu, hu', ho, Leads.stable (hs.publish n _) s' m st hl hm⟩

theorem Creates.received {o : Except Exn FDURecord} (h : Creates s n f o s')
    (l : List ((q : Rpc) × Except FError q.Ret)) :
    Creates s n f ((received z o).mapError .err) { s' with replies := l } := by
  obtain ⟨e, rfl, hl⟩ | ⟨u, hu, hu', rfl, hl⟩ := h
  · cases e with
    | err e => exact Or.inl ⟨_, rfl, hl.replies l⟩
    | panic => exact Or.inl ⟨_, rfl, hl.replies l⟩
  · exact Or.inr ⟨u, hu, hu', rfl, hl.replies l⟩

theorem ensures_rpc_defineFdu [Fair ok] (hs : Settled s) (hsvc : z.server svc = some n) :
    Ensures z ok t (rpc z svc (.defineFdu f)) s (Creates s n f) :=
  ensures_rpc hs.still hsvc (ensures_defineFdu hs) (Creates.stable hs.still)
    fun _ _ l h => h.received l

/-- A new instance, at some node; nothing else has changed. -/
def Schedules (s : Fos) (f : Uuid) (o : Except Exn FDURecord) (s' : Fos) : Prop :=
  (∃ e, o = .error e ∧ Leads s s.toStore s') ∨
    ∃ inst, o = .ok inst ∧ inst.fduUuid = f ∧ inst.uuid ∉ s.issued ∧ inst.uuid ∈ s'.issued ∧
      inst ∈ s'.global.instances ∧ Only (· = inst.uuid) s s'

theorem Creates.schedules (hs : Settled s) (hl : Leads s s.toStore s₁) {o : Except Exn FDURecord}
    (h : Creates s₁ n f o s') : Schedules s f o s' := by
  have hs₁ := hs.leads hl
  obtain ⟨e, rfl, hl'⟩ | ⟨u, hu, hu', rfl, hl'⟩ := h
  · exact Or.inl ⟨e, rfl, hl.store ▸ hl.trans hl'⟩
  · refine Or.inr ⟨_, rfl, rfl, fun h => hu (hl.issued h), hu', ?_, ?_⟩
    · rw [hl'.store]
      exact mem_publish_global.2 (Or.inl rfl)
    · refine (Only.of_leads hs hl).trans (Only.of_publish ?_ hl' ?_ rfl)
      · exact hs₁.publish hl' rfl (fun i hi hiu => absurd (hs₁.issued i hi) (hiu ▸ hu)) hu'
      · exact fun i _ hi => congrArg Prod.snd hi

theorem Schedules.stable (hs : s.Still) (o : Except Exn FDURecord) :
    Stable (Schedules s f o) := by
  rintro s' m st (⟨e, ho, hl⟩ | ⟨inst, ho, hf, hu, hu', hin, honly⟩) hm
  · exact Or.inl ⟨e, ho, Leads.stable hs s' m st hl hm⟩
  · rw [honly.settled.still.monitor] at hm
    cases hm

theorem Only.replies {P : Uuid → Prop} (h : Only P s s')
    (l : List ((q : Rpc) × Except FError q.Ret)) : Only P s { s' with replies := l } where
  settled := ⟨h.settled.still, h.settled.free, h.settled.mirror, h.settled.home,
    h.settled.unique, h.settled.issued⟩
  same := h.same
  rest := h.rest
  hypervisors := h.hypervisors
  issued := h.issued
  tasks := h.tasks
  writes := h.writes

theorem Schedules.received {o : Except Exn FDURecord} (h : Schedules s f o s')
    (l : List ((q : Rpc) × Except FError q.Ret)) :
    Schedules s f ((received z o).mapError .err) { s' with replies := l } := by
  obtain ⟨e, rfl, hl⟩ | ⟨inst, rfl, hf, hu, hu', hin, honly⟩ := h
  · cases e with
    | err e => exact Or.inl ⟨_, rfl, hl.replies l⟩
    | panic => exact Or.inl ⟨_, rfl, hl.replies l⟩
  · exact Or.inr ⟨inst, rfl, hf, hu, hu', hin, honly.replies l⟩

/-- To change no store. -/
def Reading : Discipline Cmd.Ans Proc.Ret Exn Unit where
  allows _ c := ∀ ch s r s', exec c ch s = some (r, s') → Leads s s.toStore s'
  next _ _ _ _ := True
  calls _ p := ∃ svc f, p = .agent svc (.checkFduCompatibility f)
  back _ _ _ _ := True

theorem reading_access {a : Access} (h : ∀ s, Leads s s.toStore (a.run s).2) :
    Reading.allows () (.access a) := by
  intro ch s r s' hx
  obtain ⟨-, hr⟩ | ⟨e, -, -, rfl⟩ := exec_access hx
  · have := h s
    rw [hr] at this
    exact this
  · exact Leads.refl _

theorem reads {α : Type} (hD : Reading.Sound (body z)) (hs : s.Still) {p : M α}
    (hp : p.Follows Reading (fun _ _ => True) ()) :
    (system z ok).Ensures False p s fun _ s' => Leads s s.toStore s' := by
  refine (ensures_of_follows hD (fun _ s' => Leads s s.toStore s')
    (fun _ s₁ m st => Leads.stable hs s₁ m st) ?_ hp (Leads.refl s)).mono fun o s' ⟨_, _, h⟩ => h
  · rintro ⟨⟩ c ch r s₁ s₂ h hallow hx
    have h' := hallow ch s₁ r s₂ hx
    rw [h.store] at h'
    exact ⟨(), trivial, h.trans h'⟩

theorem exists_of_forall₂ {α β : Type} {R : α → β → Prop} {l : List α} {l' : List β}
    (h : List.Forall₂ R l l') {x : α} (hx : x ∈ l) : ∃ y ∈ l', R x y := by
  induction h with
  | nil => cases hx
  | cons hR _ ih =>
    rcases List.mem_cons.1 hx with rfl | hx
    · exact ⟨_, List.mem_cons_self .., hR⟩
    · obtain ⟨y, hy, hRy⟩ := ih hx
      exact ⟨y, List.mem_cons_of_mem _ hy, hRy⟩

theorem forall₂_imp_of_mem {α β : Type} {R R' : α → β → Prop} {l : List α} {l' : List β}
    (h : List.Forall₂ R l l') (hR : ∀ x ∈ l, ∀ y ∈ l', R x y → R' x y) :
    List.Forall₂ R' l l' := by
  induction h with
  | nil => exact .nil
  | cons hxy _ ih =>
    exact .cons (hR _ (List.mem_cons_self ..) _ (List.mem_cons_self ..) hxy)
      (ih fun x hx y hy => hR x (List.mem_cons_of_mem _ hx) y (List.mem_cons_of_mem _ hy))

namespace Agent

variable {a : Agent}

theorem imageExists_reading (image : Option Image) :
    (imageExists image).Follows Reading (fun _ _ => True) () := by
  rcases image with _ | img
  · trivial
  · simp only [imageExists]
    split
    · refine ⟨fun ch s r s' hx => ?_, fun _ _ _ => trivial⟩
      rw [(exec_pathExists hx).2]
      exact Leads.refl s
    · trivial

theorem checkFduCompatibility_reading :
    (checkFduCompatibility a f).Follows Reading (fun _ _ => True) () := by
  refine follows_ask_bind (reading_access Leads.refl) (fun d _ _ => ?_) fun _ _ _ => trivial
  refine follows_ask_bind (reading_access Leads.refl) (fun nodeInfo _ _ => ?_)
    fun _ _ _ => trivial
  refine follows_ask_bind (reading_access Leads.refl) (fun nodeStatus _ _ => ?_)
    fun _ _ _ => trivial
  refine follows_issue_bind (fun ch s r s' hx => ?_) fun plugin _ _ => ?_
  · rw [(exec_hypervisor hx).2]
    exact Leads.refl s
  refine follows_unwrap_bind (fun cpu _ => ?_) fun _ => trivial
  refine follows_unwrap_bind (fun disk _ => ?_) fun _ => trivial
  exact follows_bind (imageExists_reading _) (fun _ _ _ => trivial) fun _ _ _ => trivial

theorem reading_sound : Reading.Sound (body z) := by
  rintro ⟨⟩ _ ⟨svc, f, rfl⟩
  simp only [body]
  split
  · exact checkFduCompatibility_reading.mono fun _ _ _ => trivial
  · trivial

theorem runs_rpc_checkFduCompatibility (hs : s.Still) :
    (system z ok).Ensures False (rpc z svc (.checkFduCompatibility f)) s
      fun _ s' => Leads s s.toStore s' := by
  refine reads reading_sound hs (follows_remote (reading_access Leads.refl) (fun _ _ _ => ?_)
    fun _ _ _ => trivial)
  refine follows_invoke ⟨svc, f, rfl⟩ fun o _ _ => ⟨?_, fun _ _ _ => trivial⟩
  exact reading_access fun s => (Leads.refl s).replies _

theorem ensures_checkAll (hs : s.Still) (l : List Uuid) :
    Ensures z ok False (checkAll z f l) s fun o s' =>
      Leads s s.toStore s' ∧ ∃ results, o = .ok results ∧ ∀ r ∈ results, r.2 ∈ l := by
  induction l generalizing s with
  | nil => exact ensures_pure ⟨Leads.refl s, [], rfl, by simp⟩
  | cons svc l ih =>
    simp only [checkAll]
    rw [Prog.attempt_bind]
    apply System.ensures_bindE (runs_rpc_checkFduCompatibility hs)
    intro o s₁ h₁
    · refine ensures_bind (ih (h₁.still hs)) ?_ ?_
      · rintro _ s₂ ⟨h₂, results, h, hr⟩
        cases h
        refine ensures_pure ⟨h₁.store ▸ h₁.trans h₂, _, rfl, fun r hr' => ?_⟩
        rcases List.mem_cons.1 hr' with rfl | hr'
        · exact List.mem_cons_self ..
        · exact List.mem_cons_of_mem _ (hr r hr')
      · rintro e s₂ ⟨_, _, h, _⟩
        cases h

variable [Fair ok]

theorem ensures_getCompatibleNodes (hs : s.Still) (hadv : Advertised z s) :
    Ensures z ok False (getCompatibleNodes z a f) s fun o s' =>
      Leads s s.toStore s' ∧ ∀ l, o = .ok l →
        ∀ svc ∈ l, svc = a.nodeUuid ∨ ∃ n, z.server svc = some n := by
  have hservers : ∀ svc ∈ s.global.nodes.rows.filterMap (fun node =>
      if node.agentServiceUuid ≠ a.instanceUuid then some node.agentServiceUuid else none),
      ∃ n, z.server svc = some n := by
    intro svc hsvc
    obtain ⟨node, hnode, h⟩ := List.mem_filterMap.1 hsvc
    split at h
    · cases h
      exact ⟨node.uuid, hadv node hnode⟩
    · cases h
  refine ensures_ask_bind hs (fun nodes hnodes => ?_) nofun
  cases hnodes
  refine ensures_bind (ensures_checkAll hs _) ?_ fun e s₁ ⟨hl, _⟩ => ⟨hl, nofun⟩
  rintro _ s₁ ⟨h₁, results, h, hr⟩
  cases h
  refine ensures_bind (Ψ := fun _ s' => Leads s s.toStore s') ?_ ?_ fun e s₂ h => ⟨h, nofun⟩
  · refine System.ensures_bindE (reads reading_sound (h₁.still hs) checkFduCompatibility_reading)
      fun o s₂ h₂ => ?_
    have h₂ := h₁.store ▸ h₁.trans h₂
    rcases o with (e | _) | b
    · exact ensures_pure h₂
    · exact ensures_err h₂
    · exact ensures_pure h₂
  · rintro check s₂ h₂
    refine ensures_pure ⟨h₂, fun l hl svc hsvc => ?_⟩
    cases hl
    obtain ⟨r, hmem, h⟩ := List.mem_filterMap.1 hsvc
    have hsvc' : r.2 = svc := by
      split at h
      · exact Option.some.inj h
      · cases h
    rcases List.mem_append.1 hmem with hmem | hmem
    · exact Or.inr (hservers svc (hsvc' ▸ hr r hmem))
    · rw [List.mem_singleton.1 hmem] at hsvc'
      exact Or.inl hsvc'.symm

theorem ensures_scheduleFdu (hs : Settled s) (hadv : Advertised z s) :
    Ensures z ok False (scheduleFdu z a f) s (Schedules s f) := by
  refine ensures_bind (ensures_getCompatibleNodes hs.still hadv) ?_ fun e s₁ h =>
    Or.inl ⟨e, rfl, h.1⟩
  rintro compatibles s₁ ⟨h₁, hl⟩
  have hs₁ := hs.leads h₁
  apply ensures_choose hs₁.still (fun _ => ensures_fail (Or.inl ⟨_, rfl, h₁⟩))
  intro svc hsvc
  simp only
  split
  · exact (ensures_defineFdu hs₁).mono fun _ _ h => h.schedules hs h₁
  · next hne =>
    obtain ⟨n, hn⟩ := (hl _ rfl svc hsvc).resolve_left hne
    exact (ensures_rpc_defineFdu hs₁ hn).mono fun _ _ h => h.schedules hs h₁

/-- The instance listed as `u` runs the FDU `d`, and its agent can be found. -/
def Up (a : Agent) (s : Fos) (d : FDUDescriptor) (u : Uuid) : Prop :=
  ∃ inst, inst.uuid = u ∧ d.uuid = some inst.fduUuid ∧
    Ready s.toStore inst.node .running inst ∧ DummyHypervisor.Decodable inst ∧
    Located a s inst.node

theorem Up.transfer {d : FDUDescriptor} (h : Up a s d u)
    (hmem : ∀ i ∈ s.global.instances, i.uuid = u → i ∈ s'.global.instances)
    (hfdu : ∀ f, d.uuid = some f → s'.global.getFdu f = s.global.getFdu f)
    (hhypervisors : ∀ n, (s'.node n).hypervisors = (s.node n).hypervisors)
    (hnodes : s'.global.nodes = s.global.nodes) : Up a s' d u := by
  obtain ⟨inst, hu, hd, hr, hdec, hl⟩ := h
  refine ⟨inst, hu, hd, hr.transfer (hmem _ hr.known hu) (hfdu _ hd) (hhypervisors _), hdec, ?_⟩
  rw [Located, Global.getNodeInfo, hnodes]
  exact hl

theorem Up.only {P : Uuid → Prop} {d : FDUDescriptor} (h : Up a s d u) (ho : Only P s s')
    (hu : ¬ P u) : Up a s' d u :=
  h.transfer (fun i hi hiu => (ho.same i (hiu ▸ hu)).2 hi)
    (fun _ _ => by rw [Global.getFdu, ho.fdus, Global.getFdu]) ho.hypervisors ho.nodes

/-- The outcome of the loop over the FDUs of the descriptor. Records that were
there before are untouched; when it succeeds, each FDU has an instance of its own. -/
structure SchedulesFdus (a : Agent) (l : List FDUDescriptor) (inst : EntityRecord) (s : Fos)
    (o : Except Exn EntityRecord) (s' : Fos) : Prop where
  only : Only (· ∉ s.issued) s s'
  lists : ∀ inst', o = .ok inst' → ∃ us, inst' = { inst with fdus := inst.fdus ++ us } ∧
    us.Nodup ∧ (∀ u ∈ us, u ∉ s.issued) ∧ Only (· ∈ us) s s' ∧ List.Forall₂ (Up a s') l us

theorem ensures_scheduleFdus (hs : Settled s) (ha : z.server a.instanceUuid = some a.nodeUuid)
    (hadv : Advertised z s) (l : List FDUDescriptor) (inst : EntityRecord) :
    Ensures z ok False (scheduleFdus z a l inst) s (SchedulesFdus a l inst s) := by
  induction l generalizing s inst with
  | nil =>
    refine ensures_pure ⟨Only.refl hs, ?_⟩
    rintro _ ⟨⟩
    exact ⟨[], by simp, List.nodup_nil, by simp, Only.refl hs, .nil⟩
  | cons d l ih =>
    cases hd : d.uuid with
    | none =>
      simp only [scheduleFdus, hd, okOr_none_bind]
      exact ensures_fail ⟨Only.refl hs, nofun⟩
    | some f =>
      simp only [scheduleFdus, hd, okOr_some_bind]
      refine ensures_bind (ensures_rpc hs.still ha (ensures_scheduleFdu hs hadv)
        (Schedules.stable hs.still) fun _ _ l h => h.received l) ?_ ?_
      · rintro _ s₁ (⟨_, h, -⟩ | ⟨i, h, rfl, hnew, hissued, hknown, honly⟩) <;> cases h
        have hfresh : ∀ {v}, v = i.uuid → v ∉ s.issued := fun h => h ▸ hnew
        refine ensures_client honly.settled.still ha (honly.advertised hadv)
          (fun svc hsvc hloc => ?_) fun e _ => ⟨honly.mono fun _ => hfresh, nofun⟩
        refine ensures_bind (ensures_bringUp honly.settled hsvc hknown rfl) ?_ ?_
        · rintro _ s₂ ⟨honly', hup⟩
          obtain ⟨i', hpath, hr, hdec⟩ := hup rfl
          have hfirst := honly.trans honly'
          have hiu : i'.uuid = i.uuid := congrArg Prod.snd hpath
          have hif : i'.fduUuid = i.fduUuid := congrArg Prod.fst hpath
          have hu : Up a s₂ d i.uuid :=
            ⟨i', hiu, by rw [hd, hif], hr.home ▸ hr, hdec, hr.home ▸ honly'.located hloc⟩
          apply (ih hfirst.settled (hfirst.advertised hadv) _).mono
          rintro o s' ⟨hrest, hlists⟩
          refine ⟨(hfirst.mono fun _ => hfresh).trans
            (hrest.mono fun v hv h => hv (hfirst.issued h)), ?_⟩
          rintro inst' rfl
          obtain ⟨us, rfl, hnodup, hnotin, honly'', hall⟩ := hlists inst' rfl
          have hnot : i.uuid ∉ us := fun h => hnotin _ h (honly'.issued hissued)
          refine ⟨i.uuid :: us, by simp, List.nodup_cons.2 ⟨hnot, hnodup⟩, ?_, ?_, ?_⟩
          · intro v hv
            rcases List.mem_cons.1 hv with rfl | hv
            · exact hnew
            · exact fun h => hnotin v hv (hfirst.issued h)
          · exact (hfirst.mono (by rintro _ rfl; simp)).trans
              (honly''.mono fun v hv => List.mem_cons_of_mem _ hv)
          · exact .cons (hu.only honly'' hnot) hall
        · rintro e s₂ ⟨honly', -⟩
          exact ⟨(honly.trans honly').mono fun _ => hfresh, nofun⟩
      · rintro e s₁ (⟨_, -, hl⟩ | ⟨_, h, -⟩)
        · exact ⟨Only.of_leads hs hl, nofun⟩
        · cases h

/-- The catalog after these FDUs have been onboarded. Those without a uuid are
given one that is not theirs to choose. -/
def Onboards (l : List FDUDescriptor) (s s' : Fos) : Prop :=
  ∃ fdus, Leads s (s.withFdus fdus) s' ∧
    ((∀ d ∈ l, d.uuid ≠ none) → fdus = l.foldl Table.put s.global.fdus)

theorem ensures_onboardFdu (hs : s.Still) (fdu : FDUDescriptor) :
    Ensures z ok t (onboardFdu fdu) s fun o s' => (∃ u, o = .ok u) ∧ Onboards [fdu] s s' := by
  cases hf : fdu.uuid with
  | none =>
    simp only [onboardFdu, hf, addFdu, okOr_some_bind]
    apply ensures_newUuid hs
    intro u _
    refine ensures_ask_bind (s := { s with issued := u :: s.issued }) hs
      (fun _ _ => ensures_pure ⟨⟨u, rfl⟩, ?_⟩) nofun
    exact ⟨_, ((Leads.refl s).newUuid u).withStore _, fun h => absurd hf (h fdu (by simp))⟩
  | some f =>
    simp only [onboardFdu, hf, addFdu, okOr_some_bind]
    refine ensures_ask_bind hs (fun _ _ => ensures_pure ⟨⟨f, rfl⟩, ?_⟩) nofun
    exact ⟨_, (Leads.refl s).withStore _, fun _ => rfl⟩

theorem Onboards.cons {d : FDUDescriptor} {l : List FDUDescriptor} (h : Onboards [d] s s₁)
    (h' : Onboards l s₁ s') : Onboards (d :: l) s s' := by
  obtain ⟨fdus, hl, hput⟩ := h
  obtain ⟨fdus', hl', hput'⟩ := h'
  have hst : s₁.withFdus fdus' = s.withFdus fdus' := by rw [hl.store]; rfl
  refine ⟨fdus', hst ▸ hl.trans hl', fun hsome => ?_⟩
  rw [hput' fun e he => hsome e (List.mem_cons_of_mem _ he), hl.store]
  exact congrArg (l.foldl Table.put) (hput (by simpa using hsome d (List.mem_cons_self ..)))

theorem ensures_onboardFdus (hs : s.Still) (ha : z.server a.instanceUuid = some a.nodeUuid)
    (l : List FDUDescriptor) :
    Ensures z ok t (onboardFdus z a l) s fun o s' => o = .ok () ∧ Onboards l s s' := by
  induction l generalizing s with
  | nil => exact ensures_pure ⟨rfl, _, Leads.refl s, fun _ => rfl⟩
  | cons d l ih =>
    refine ensures_bind (ensures_rpc hs ha (ensures_onboardFdu hs d)
      (Ψ := fun o s' => (∃ u, o = .ok u) ∧ Onboards [d] s s')
      (Φ := fun o s' => (∃ u, o = .ok u) ∧ Onboards [d] s s') ?_ ?_) ?_ ?_
    · exact fun _ => .and (.exists fun fdus => fun s' m st h hm =>
        ⟨leads_withFdus_stable hs fdus s' m st h.1 hm, h.2⟩)
    · rintro _ s' l' ⟨⟨u, rfl⟩, fdus, hl, h⟩
      exact ⟨⟨u, rfl⟩, fdus, hl.replies l', h⟩
    · rintro _ s₁ ⟨-, h⟩
      obtain ⟨fdus, hl, -⟩ := id h
      exact (ih (hl.still hs)).mono fun _ _ ⟨ho, h'⟩ => ⟨ho, h.cons h'⟩
    · rintro e s₁ ⟨⟨_, h⟩, -⟩
      cases h

/-- The record of an entity instance that is up, with these FDU instances. -/
def runningRecord (inst : EntityRecord) (us : List Uuid) : EntityRecord :=
  { inst with status := .running, fdus := inst.fdus ++ us }

/-- What a successful task has made of `s`: one running instance under a fresh
uuid for each FDU, the onboarded descriptors, and the three records written. -/
structure Scheduled (a : Agent) (inst : EntityRecord) (descriptor : EntityDescriptor)
    (s : Fos) (us : List Uuid) (s' : Fos) : Prop where
  settled : Settled s'
  nodup : us.Nodup
  fresh : ∀ u ∈ us, u ∉ s.issued
  up : List.Forall₂ (Up a s') descriptor.fdus us
  same : ∀ i, i.uuid ∉ us → (i ∈ s'.global.instances ↔ i ∈ s.global.instances)
  records : ∀ r, r ∈ s'.global.entityInstances ↔
    r = runningRecord inst us ∨ r ∈ s.global.entityInstances ∧ r.path ≠ inst.path
  catalog : s'.global.fdus = descriptor.fdus.foldl Table.put s.global.fdus
  entities : s'.global.entities = s.global.entities
  nodes : s'.global.nodes = s.global.nodes
  hypervisors : ∀ n, (s'.node n).hypervisors = (s.node n).hypervisors
  issued : s.issued ⊆ s'.issued
  tasks : s'.tasks = s.tasks
  writes : s'.writes = s.writes ++ [{ inst with status := .onboarded },
    { inst with status := .starting }, runningRecord inst us]

theorem Up.write {d : FDUDescriptor} (h : Up a s d u) (r : EntityRecord) :
    Up a (s.write r) d u := by
  obtain ⟨inst, hu, hd, hr, hdec, hl⟩ := h
  exact ⟨inst, hu, hd, hr.write r, hdec, hl⟩

theorem Up.uuid_ne {l : List FDUDescriptor} {us : List Uuid} (h : List.Forall₂ (Up a s) l us) :
    ∀ d ∈ l, d.uuid ≠ none := by
  intro d hd hnone
  obtain ⟨u, -, _, -, hu, -⟩ := exists_of_forall₂ h hd
  rw [hnone] at hu
  cases hu

theorem ensures_entityScheduling (hs : Settled s)
    (ha : z.server a.instanceUuid = some a.nodeUuid) (hadv : Advertised z s)
    {inst : EntityRecord} {descriptor : EntityDescriptor} :
    Ensures z ok False (entityScheduling z a inst descriptor) s fun o s' =>
      o = .ok () → ∃ us, Scheduled a inst descriptor s us s' := by
  refine ensures_bind (ensures_onboardFdus hs.still ha descriptor.fdus) ?_ fun _ _ _ => nofun
  rintro _ s₁ ⟨-, fdus, hl, hput⟩
  have hs₁ := hs.withFdus hl
  apply ensures_writeStatus hs₁.still
  apply ensures_writeStatus (hs₁.write _).still
  have hs₂ := (hs₁.write { inst with status := .onboarded }).write { inst with status := .starting }
  have hg : s₁.global = { s.global with fdus } := by rw [hl.store]; rfl
  have hadv₁ : Advertised z s₁ := by
    rw [Advertised, hg]
    exact hadv
  refine ensures_bind (ensures_scheduleFdus hs₂ ha hadv₁ descriptor.fdus _) ?_
    fun _ _ _ => nofun
  rintro inst' s₂ ⟨-, hlists⟩
  obtain ⟨us, rfl, hnodup, hfresh, honly, hup⟩ := hlists _ rfl
  refine ensures_writeStatus honly.settled.still (ensures_pure fun _ => ⟨us, ?_⟩)
  have hrest := honly.rest
  exact {
    settled := honly.settled.write _
    nodup := hnodup
    fresh := fun u hu h => hfresh u hu (hl.issued h)
    up := hup.imp fun _ _ h => h.write _
    same := fun i hi => by
      rw [show s.global.instances = s₁.global.instances by rw [hg]]
      exact honly.same i hi
    records := fun r => by
      rw [mem_write, hrest]
      change _ ∨ r ∈ ((s₁.write _).write _).global.entityInstances ∧ _ ↔ _
      rw [mem_write, mem_write, hg]
      refine or_congr_right ⟨?_, fun h => ⟨Or.inr ⟨Or.inr h, h.2⟩, h.2⟩⟩
      rintro ⟨rfl | ⟨rfl | h, -⟩, hp⟩
      · exact absurd rfl hp
      · exact absurd rfl hp
      · exact ⟨h.1, hp⟩
    catalog := by
      rw [← hput (Up.uuid_ne hup)]
      exact (congrArg (·.fdus) hrest).trans (congrArg (·.fdus) hg)
    entities := (congrArg (·.entities) hrest).trans (congrArg (·.entities) hg)
    nodes := (congrArg (·.nodes) hrest).trans (congrArg (·.nodes) hg)
    hypervisors := fun n => (honly.hypervisors n).trans
      (show (s₁.node n).hypervisors = (s.node n).hypervisors by rw [hl.store]; rfl)
    issued := fun u hu => honly.issued (hl.issued hu)
    tasks := honly.tasks.trans hl.tasks
    writes := by
      change s₂.writes ++ _ = _
      rw [honly.writes, ← hl.writes]
      simp [Fos.write, Access.run, runningRecord] }

end Agent

/-- If the task of `schedule_entity` succeeds, whatever failed on the way, it has
written ONBOARDED, STARTING and RUNNING and lists, in order, one running instance
of each FDU. Instances that were there before and other records are unchanged. -/
theorem entityScheduling_brings_up {a : Agent} {inst : EntityRecord}
    {descriptor : EntityDescriptor} {k : ℕ} (hs : Settled s)
    (ha : z.server a.instanceUuid = some a.nodeUuid) (hadv : Advertised z s)
    (hnew : inst.fdus = []) (hrun : (system z Unreliable).Runs k s
      (Agent.entityScheduling z a inst descriptor) s' (.final (.ok ()))) :
    ∃ us : List Uuid,
      s'.writes = s.writes ++ [{ inst with status := .onboarded },
        { inst with status := .starting }, { inst with status := .running, fdus := us }] ∧
      { inst with status := .running, fdus := us } ∈ s'.global.entityInstances ∧
      us.length = descriptor.fdus.length ∧ us.Nodup ∧
      List.Forall₂ (fun d u => ∃ i, s'.global.getInstance u = .ok i ∧
        d.uuid = some i.fduUuid ∧ i.status = .running) descriptor.fdus us ∧
      (∀ i ∈ s.global.instances, i.uuid ∉ us) ∧
      (∀ i, i.uuid ∉ us → (i ∈ s'.global.instances ↔ i ∈ s.global.instances) ∧
        ∀ n, i ∈ (s'.node n).instances ↔ i ∈ (s.node n).instances) ∧
      ∀ r, r.path ≠ inst.path →
        (r ∈ s'.global.entityInstances ↔ r ∈ s.global.entityInstances) := by
  obtain ⟨us, h⟩ := (Agent.ensures_entityScheduling hs ha hadv).of_ok hrun rfl
  have hfinal : Agent.runningRecord inst us = { inst with status := .running, fdus := us } := by
    rw [Agent.runningRecord, hnew, List.nil_append]
  refine ⟨us, hfinal ▸ h.writes, hfinal ▸ (h.records _).2 (Or.inl rfl), h.up.length_eq.symm,
    h.nodup, h.up.imp ?_, fun i hi hu => h.fresh _ hu (hs.issued i hi), ?_, ?_⟩
  · rintro d u ⟨i, hu, hd, hr, -⟩
    exact ⟨i, h.settled.getInstance.2 ⟨hr.known, hu⟩, hd, hr.status⟩
  · intro i hi
    refine ⟨h.same i hi, fun n => ?_⟩
    rw [h.settled.mem_local, hs.mem_local, h.same i hi]
  · intro r hr
    refine (h.records r).trans ⟨?_, fun hr' => Or.inr ⟨hr', hr⟩⟩
    rintro (rfl | h)
    · exact absurd rfl hr
    · exact h.1

/-- An entity of two FDUs on two nodes. -/
theorem entityScheduling_brings_up_two : ∃ (s' : Fos) (us : List Uuid),
    us.length = 2 ∧ us.Nodup ∧ ∀ u ∈ us, ∃ i, s'.global.getInstance u = .ok i := by
  let sites : List Site := [.small 0 100 7, .small 1 101 8]
  let descriptor : EntityDescriptor := .plain 60 [.plain 50, .plain 51]
  let inst : EntityRecord := ⟨70, 60, .onboarding, [], [], none, none⟩
  obtain ⟨o, s', hplay, ho⟩ := Machine.exists_drive (f := fun o _ => o.toBool)
    (show (playUsual sites (boot sites [] [descriptor])
      (Agent.entityScheduling (Site.session sites) ⟨0, 100⟩ inst descriptor)).any _ = true by
      decide +kernel)
  obtain ⟨k, hrun⟩ := runs_of_playUsual unreliable hplay
  cases o with
  | error e => cases ho
  | ok x =>
    obtain ⟨us, -, -, hlen, hnodup, hall, -⟩ :=
      entityScheduling_brings_up (boot_settled _ _ _) rfl (by decide +kernel) rfl hrun
    refine ⟨s', us, hlen, hnodup, fun u hu => ?_⟩
    obtain ⟨d, -, i, hi, -⟩ := exists_of_forall₂ hall.flip hu
    exact ⟨i, hi⟩

end Fog05
