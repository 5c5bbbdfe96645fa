import Fog05.Proofs.Identity

/-! Complete descriptors. `onboard_entity` fills in the uuids that are missing before it
stores a descriptor, and whatever reads it later finds them: the calls and tasks that
look for missing uuids fail with nothing but what they were just told. -/

namespace Fog05

open Conc M Relation

/-- The FDUs, where those without a uuid are given the uuids `us` in order. -/
inductive Filled : List FDUDescriptor → List Uuid → List FDUDescriptor → Prop
  | nil : Filled [] [] []
  | given {fdu fdus us fdus' f} : fdu.uuid = some f → Filled fdus us fdus' →
      Filled (fdu :: fdus) us (fdu :: fdus')
  | missing {fdu fdus us fdus' f} : fdu.uuid = none → Filled fdus us fdus' →
      Filled (fdu :: fdus) (f :: us) ({ fdu with uuid := some f } :: fdus')

/-- The entity descriptor, where the uuids `us` are given to the FDUs without one and
then to the entity, if it has none. -/
inductive FilledIn (entity : EntityDescriptor) : List Uuid → EntityDescriptor → Prop
  | given {us fdus e} : entity.uuid = some e → Filled entity.fdus us fdus →
      FilledIn entity us { entity with fdus }
  | missing {us fdus e} : entity.uuid = none → Filled entity.fdus us fdus →
      FilledIn entity (us ++ [e]) { entity with uuid := some e, fdus }

structure EntityDescriptor.Complete (d : EntityDescriptor) : Prop where
  uuid : d.uuid.isSome
  fdus : ∀ fdu ∈ d.fdus, fdu.uuid.isSome

section Stores

variable {z : Session} {ok : Choice → Prop} {α β : Type} {s s₁ s' : Fos} {us vs : List Uuid}

/-- A call among any others: between its commands everything may change, but a uuid that
has been given out stays so. -/
def amid (z : Session) (ok : Choice → Prop) : System Cmd.Ans Proc.Ret Exn Fos :=
  { system z ok with env := fun s s' => s.issued ⊆ s'.issued }

/-- The uuids were given out between the two states, each once. -/
structure Minted (us : List Uuid) (s s' : Fos) : Prop where
  nodup : us.Nodup
  fresh : ∀ u ∈ us, u ∉ s.issued
  issued : ∀ u ∈ us, u ∈ s'.issued
  keeps : s.issued ⊆ s'.issued

theorem Minted.of_subset (h : s.issued ⊆ s'.issued) : Minted [] s s' :=
  ⟨List.nodup_nil, fun _ hu => absurd hu List.not_mem_nil, fun _ hu => absurd hu List.not_mem_nil, h⟩

theorem Minted.append (h : Minted us s s₁) (h' : Minted vs s₁ s') : Minted (us ++ vs) s s' where
  nodup := h.nodup.append h'.nodup fun u hu hv => h'.fresh u hv (h.issued u hu)
  fresh u hu := (List.mem_append.1 hu).elim (h.fresh u) fun hv hs => h'.fresh u hv (h.keeps hs)
  issued u hu := (List.mem_append.1 hu).elim (fun hu => h'.keeps (h.issued u hu)) (h'.issued u)
  keeps := List.Subset.trans h.keeps h'.keeps

theorem Minted.keep (h : Minted us s s₁) (h' : s₁.issued ⊆ s'.issued) : Minted us s s' := by
  simpa using h.append (.of_subset h')

theorem issued_of_amid (h : ReflTransGen (amid z ok).env s s') : s.issued ⊆ s'.issued := by
  induction h with
  | refl => exact List.Subset.refl _
  | tail _ he ih => exact List.Subset.trans ih he

variable [Fair ok] {Φ : Except Exn β → Fos → Prop}

theorem amid_newUuid {f : Uuid → M β}
    (h : ∀ u s', Minted [u] s s' → (amid z ok).Ensures True (f u) s' Φ) :
    (amid z ok).Ensures True (issue .newUuid >>= f) s Φ := by
  refine System.ensures_act fun s₁ hs₁ => ⟨fun _ => ?_, ?_⟩
  · obtain ⟨u, hu⟩ := Infinite.exists_notMem_finset s₁.issued.toFinset
    have hnew : u ∉ s₁.issued := fun h => hu (List.mem_toFinset.2 h)
    exact ⟨u, _, .uuid u, Fair.uuid u, if_neg hnew⟩
  · rintro u s₂ ⟨ch, -, hx⟩
    obtain ⟨hu, rfl⟩ := exec_newUuid hx
    refine h u _ ⟨List.nodup_singleton u, ?_, ?_, ?_⟩
    · exact List.forall_mem_singleton.2 fun hs => hu (issued_of_amid hs₁ hs)
    · exact List.forall_mem_singleton.2 List.mem_cons_self
    · exact List.Subset.trans (issued_of_amid hs₁) (List.subset_cons_self _ _)

theorem amid_completeFdus (fdus : List FDUDescriptor) :
    (amid z ok).Ensures True (Agent.completeFdus fdus) s fun o s' =>
      ∃ us fdus', o = .ok fdus' ∧ Filled fdus us fdus' ∧ Minted us s s' := by
  induction fdus generalizing s with
  | nil => exact System.ensures_ret ⟨[], [], rfl, .nil, .of_subset (List.Subset.refl _)⟩
  | cons fdu fdus ih =>
    have hrest : ∀ {us s₁ ifdu}, Minted us s s₁ →
        (∀ {vs fdus'}, Filled fdus vs fdus' → Filled (fdu :: fdus) (us ++ vs) (ifdu :: fdus')) →
        (amid z ok).Ensures True (do
          let fdus' ← Agent.completeFdus fdus
          pure (ifdu :: fdus')) s₁ fun o s' =>
            ∃ us fdus', o = .ok fdus' ∧ Filled (fdu :: fdus) us fdus' ∧ Minted us s s' := by
      intro us s₁ ifdu hus hfill
      apply System.ensures_bindE (ih (s := s₁))
      rintro _ s' ⟨vs, fdus', rfl, hvs, hm⟩
      exact System.ensures_ret ⟨us ++ vs, _, rfl, hfill hvs, hus.append hm⟩
    simp only [Agent.completeFdus]
    cases hu : fdu.uuid with
    | none => exact amid_newUuid fun u s₁ hm => hrest hm fun h => .missing hu h
    | some f => exact hrest (.of_subset (List.Subset.refl _)) fun h => .given hu h

/-- The last command of the call stores the descriptor; what becomes of it later is not
the call's concern. -/
theorem amid_addEntity {entity d : EntityDescriptor} {e : Uuid} {s₀ : Fos} (hd : FilledIn entity us d)
    (he : d.uuid = some e) (hus : Minted us s₀ s) :
    (amid z ok).Ensures True (addEntity d >>= fun _ => pure e) s
      (Excused ok fun o s' => ∃ e us d, o = .ok e ∧ d.uuid = some e ∧ d ∈ s'.global.entities ∧
        FilledIn entity us d ∧ Minted us s₀ s') := by
  simp only [addEntity, he, okOr_some_bind]
  refine System.ensures_act fun s₁ hs₁ => ⟨fun _ => ⟨_, _, .go, Fair.go, rfl⟩, ?_⟩
  rintro r s₂ ⟨ch, hch, hx⟩
  have hm : Minted us s₀ s₁ := hus.keep (issued_of_amid hs₁)
  rcases exec_access hx with ⟨-, hr⟩ | ⟨e', rfl, rfl, rfl⟩
  · cases hr
    refine System.ensures_ret (Or.inl ⟨e, us, d, rfl, he, Table.mem_put_self _ _, hd, ?_⟩)
    exact { hm with }
  · exact System.ensures_err (Or.inr ⟨⟨e', hch⟩, _, rfl⟩)

theorem amid_onboardEntity (entity : EntityDescriptor) :
    (amid z ok).Ensures True (Agent.onboardEntity entity) s
      (Excused ok fun o s' => ∃ e us d, o = .ok e ∧ d.uuid = some e ∧ d ∈ s'.global.entities ∧
        FilledIn entity us d ∧ Minted us s s') := by
  apply System.ensures_bindE (amid_completeFdus entity.fdus)
  rintro _ s₁ ⟨us, fdus, rfl, hfdus, hm⟩
  rcases entity with ⟨_ | e, fdus₀, others⟩
  · apply amid_newUuid
    intro e s₂ he
    exact amid_addEntity (.missing rfl hfdus) rfl (hm.append he)
  · exact amid_addEntity (.given rfl hfdus) rfl hm

end Stores

/-- Every uuid that a task will look for is in the descriptor it was given. -/
def Task.Complete : Task → Prop
  | .schedule _ _ _ d => d.Complete
  | .deschedule _ _ _ => True

/-- The calls that look for a missing uuid themselves. -/
def Proc.Inspects : Proc → Prop
  | .agent _ (.scheduleEntity _) | .agent _ (.onboardFdu _) | .agent _ (.onboardEntity _) => True
  | _ => False

namespace Cmd

/-- The error, if any, that a command was answered with. -/
def told : (c : Cmd) → c.Ans → Option FError
  | .access _, .error e => some e
  | .net _ _, .error e => some e
  | _, _ => none

/-- A descriptor that is found is complete. -/
def Finds : (c : Cmd) → c.Ans → Prop
  | .access (.getEntity _), .ok d => d.Complete
  | _, _ => True

end Cmd

/-- To store and hand on complete descriptors only, and to write no error in a record but
the text of the one that was just told. -/
def Completing : Discipline Cmd.Ans Proc.Ret Exn (Option FError) where
  allows q
    | .access (.putEntity d) => d.Complete
    | .access (.putEntityInstance inst) =>
        ∀ m, inst.status = .error m → ∃ e, q = some e ∧ e.display = m
    | .spawn t => t.Complete
    | _ => True
  next _ c r q' := q' = c.told r ∧ c.Finds r
  calls _ p := p.Called
  back _ _ _ _ := True

/-- A call that fails passes on what it was just told. -/
def Relays {α : Type} (o : Except Exn α) (q : Option FError) : Prop :=
  ∀ e, o = .error (.err e) → q = some e

/-- So does a call that looks for missing uuids, but for the failure of a remote call. -/
def Proc.PassesOn (p : Proc) (o : Except Exn p.Ret) (q : Option FError) : Prop :=
  p.Inspects → ∀ e, o = .error (.err e) → q = some e ∨ ∃ m, e = .zError m

section Follows

variable {α β : Type} {z : Session} {a : Agent} {q : Option FError}

theorem completing_allows {c : Cmd} (hc : c.Quiet) (hput : ∀ d, c ≠ .access (.putEntity d)) :
    Completing.allows q c := by
  unfold Completing
  dsimp only
  split <;> first | exact absurd rfl (hput _) | exact hc.elim | trivial

theorem completing_of_within {b : M α} (h : b.Within (fun c => ∀ q, Completing.allows q c) Proc.Called) :
    b.Follows Completing (fun _ _ => True) q :=
  h.allowed (fun q _ hc => hc q) fun _ _ => id

theorem relays_bind {b : M α} {k : α → M β} (hb : b.Follows Completing Relays q)
    (hk : ∀ x q', (k x).Follows Completing Relays q') : (b >>= k).Follows Completing Relays q :=
  follows_bind hb (fun x q' _ => hk x q') fun e q' h e' he => h e' (by cases he; rfl)

theorem relays_ask {x : Access} (h : ∀ q, Completing.allows q (.access x)) :
    (ask x).Follows Completing Relays q := by
  apply follows_ask (h q)
  intro r q' hn e he
  obtain ⟨rfl, -⟩ := hn
  cases r with
  | ok y => cases he
  | error e' => cases he; rfl

theorem relays_pure {x : α} : (pure x : M α).Follows Completing Relays q :=
  fun _ h => by cases h

theorem relays_okOr {e : FError} {x : Option α} (h : x.isSome) :
    (okOr e x).Follows Completing Relays q := by
  cases x with
  | none => cases h
  | some y => exact relays_pure

theorem relays_rpc {svc : Uuid} {r : Request} : (rpc z svc r).Follows Completing Relays q := by
  refine relays_bind (relays_ask fun _ => trivial) fun _ q₁ => ?_
  rw [Prog.attempt_bind]
  exact (Prog.follows_bindE _ _ _).2
    (follows_invoke trivial fun _ _ _ => relays_ask fun _ => trivial)

theorem relays_client {owner : Uuid} : (Agent.client a owner).Follows Completing Relays q := by
  unfold Agent.client
  split
  · exact relays_pure
  · exact relays_bind (relays_ask fun _ => trivial) fun _ _ => relays_pure

theorem relays_writeStatus {inst : EntityRecord} {status : EntityStatus}
    (hst : ∀ m, status ≠ .error m) :
    (Agent.writeStatus inst status).Follows Completing Relays q :=
  relays_bind (relays_ask fun _ m hm => absurd hm (hst m)) fun _ _ => relays_pure

theorem relays_onboardFdus (fdus : List FDUDescriptor) :
    (Agent.onboardFdus z a fdus).Follows Completing Relays q := by
  induction fdus generalizing q with
  | nil => exact relays_pure
  | cons fdu fdus ih => exact relays_bind relays_rpc fun _ _ => ih

theorem relays_scheduleFdus {fdus : List FDUDescriptor} (h : ∀ fdu ∈ fdus, fdu.uuid.isSome)
    (inst : EntityRecord) : (Agent.scheduleFdus z a fdus inst).Follows Completing Relays q := by
  induction fdus generalizing inst q with
  | nil => exact relays_pure
  | cons fdu fdus ih =>
    obtain ⟨hfdu, hfdus⟩ := List.forall_mem_cons.1 h
    refine relays_bind (relays_okOr hfdu) fun f q₁ => relays_bind relays_rpc fun i q₂ =>
      relays_bind relays_client fun svc q₃ => relays_bind ?_ fun _ _ => ih hfdus _
    exact relays_bind relays_rpc fun _ _ => relays_bind relays_rpc fun _ _ => relays_pure

theorem relays_unscheduleFdus (us : List Uuid) :
    (Agent.unscheduleFdus z a us).Follows Completing Relays q := by
  induction us generalizing q with
  | nil => exact relays_pure
  | cons u us ih =>
    refine relays_bind (relays_ask fun _ => trivial) fun i q₁ =>
      relays_bind relays_client fun svc q₂ => relays_bind ?_ fun _ _ => ih
    exact relays_bind relays_rpc fun _ _ => relays_bind relays_rpc fun _ _ =>
      relays_bind relays_rpc fun _ _ => relays_pure

theorem relays_offloadFdus {fdus : List FDUDescriptor} (h : ∀ fdu ∈ fdus, fdu.uuid.isSome) :
    (Agent.offloadFdus z a fdus).Follows Completing Relays q := by
  induction fdus generalizing q with
  | nil => exact relays_pure
  | cons fdu fdus ih =>
    obtain ⟨hfdu, hfdus⟩ := List.forall_mem_cons.1 h
    exact relays_bind (relays_okOr hfdu) fun _ _ => relays_bind relays_rpc fun _ _ => ih hfdus

theorem relays_entityScheduling {inst : EntityRecord} {d : EntityDescriptor} (hd : d.Complete) :
    (Agent.entityScheduling z a inst d).Follows Completing Relays q :=
  relays_bind (relays_onboardFdus _) fun _ _ => relays_bind (relays_writeStatus (by simp)) fun _ _ =>
    relays_bind (relays_writeStatus (by simp)) fun _ _ =>
      relays_bind (relays_scheduleFdus hd.fdus _) fun _ _ =>
        relays_bind (relays_writeStatus (by simp)) fun _ _ => relays_pure

theorem relays_getEntity {e : Uuid} {k : EntityDescriptor → M β}
    (hk : ∀ d q', d.Complete → (k d).Follows Completing Relays q') :
    (ask (.getEntity e) >>= k).Follows Completing Relays q :=
  follows_ask_bind trivial (fun d q' hn => hk d q' hn.2) fun e q' hn e' he => by
    cases he
    exact hn.1

theorem relays_entityUnscheduling {inst : EntityRecord} :
    (Agent.entityUnscheduling z a inst).Follows Completing Relays q :=
  relays_getEntity fun _ _ hd => relays_bind (relays_writeStatus (by simp)) fun _ _ =>
    relays_bind (relays_unscheduleFdus _) fun _ _ => relays_bind (relays_writeStatus (by simp)) fun _ _ =>
      relays_bind (relays_writeStatus (by simp)) fun _ _ =>
        relays_bind (relays_offloadFdus hd.fdus) fun _ _ =>
          relays_bind (relays_writeStatus (by simp)) fun _ _ => relays_pure

theorem task_completing {t : Task} (ht : t.Complete) :
    (t.body z).Follows Completing (fun _ _ => True) q := by
  have hreport : ∀ {inst : EntityRecord} {b : M Unit}, b.Follows Completing Relays q →
      (Agent.report inst b).Follows Completing (fun _ _ => True) q := by
    refine fun hb => (Prog.follows_bindE _ _ _).2 (hb.mono fun o q' h => ?_)
    rcases o with (e | _) | _
    · refine (Prog.follows_bindE _ _ _).2 (follows_ask (fun m hm => ?_) fun _ _ _ => trivial)
      cases hm
      exact ⟨e, h e rfl, rfl⟩
    · trivial
    · trivial
  cases t with
  | schedule n svc inst d => exact hreport (relays_entityScheduling ht)
  | deschedule n svc inst => exact hreport relays_entityUnscheduling

theorem relays_scheduleEntity {e : Uuid} : (Agent.scheduleEntity a e).Follows Completing Relays q := by
  refine relays_getEntity fun d q₁ hd => follows_issue_bind trivial fun u q₂ _ => ?_
  refine relays_bind (relays_okOr hd.uuid) fun id q₃ =>
    relays_bind (relays_ask fun _ _ h => by cases h) fun _ q₄ => ?_
  exact follows_issue_bind hd fun _ _ _ => relays_pure

theorem relays_descheduleEntity {e : Uuid} :
    (Agent.descheduleEntity a e).Follows Completing Relays q :=
  relays_bind (relays_ask fun _ => trivial) fun _ _ => follows_issue_bind trivial fun _ _ _ =>
    relays_pure

theorem relays_onboardFdu {fdu : FDUDescriptor} :
    (Agent.onboardFdu fdu).Follows Completing Relays q := by
  have hadd : ∀ {fdu : FDUDescriptor} {q}, fdu.uuid.isSome →
      (addFdu fdu).Follows Completing Relays q := fun h =>
    relays_bind (relays_okOr h) fun _ _ => relays_ask fun _ => trivial
  unfold Agent.onboardFdu
  split
  · exact follows_issue_bind trivial fun _ _ _ => relays_bind (hadd rfl) fun _ _ => relays_pure
  · next f hf => exact relays_bind (hadd (by rw [hf]; rfl)) fun _ _ => relays_pure

theorem completeFdus_completing (fdus : List FDUDescriptor) :
    (Agent.completeFdus fdus).Follows Completing
      (fun o _ => ∃ fdus', o = .ok fdus' ∧ ∀ fdu ∈ fdus', fdu.uuid.isSome) q := by
  induction fdus generalizing q with
  | nil => exact ⟨[], rfl, fun _ h => absurd h List.not_mem_nil⟩
  | cons fdu fdus ih =>
    have hrest : ∀ {ifdu : FDUDescriptor} {q}, ifdu.uuid.isSome → (do
        let fdus' ← Agent.completeFdus fdus
        pure (ifdu :: fdus') : M (List FDUDescriptor)).Follows Completing
          (fun o _ => ∃ fdus', o = .ok fdus' ∧ ∀ fdu ∈ fdus', fdu.uuid.isSome) q := by
      refine fun hifdu => follows_bind ih (fun fdus' q' h => ?_) fun _ _ ⟨_, h, _⟩ => by cases h
      obtain ⟨_, ⟨⟩, hall⟩ := h
      exact ⟨_, rfl, List.forall_mem_cons.2 ⟨hifdu, hall⟩⟩
    simp only [Agent.completeFdus]
    cases hu : fdu.uuid with
    | none => exact follows_issue_bind trivial fun _ _ _ => hrest rfl
    | some f => exact hrest (by rw [hu]; rfl)

theorem relays_onboardEntity {entity : EntityDescriptor} :
    (Agent.onboardEntity entity).Follows Completing Relays q := by
  have hadd : ∀ {d : EntityDescriptor} {q}, d.Complete → (addEntity d).Follows Completing Relays q :=
    fun h => relays_bind (relays_okOr h.uuid) fun _ _ => relays_ask fun _ => h
  refine follows_bind (completeFdus_completing _) (fun fdus q₁ h => ?_)
    fun _ _ ⟨_, h, _⟩ => by cases h
  obtain ⟨_, ⟨⟩, hall⟩ := h
  split
  · exact follows_issue_bind trivial fun _ _ _ =>
      relays_bind (hadd ⟨rfl, hall⟩) fun _ _ => relays_pure
  · next e he => exact relays_bind (hadd ⟨by rw [he]; rfl, hall⟩) fun _ _ => relays_pure

theorem completing_sound : Completing.Sound (body z) := by
  have hkeeps : ∀ c : Cmd, c.Keeps → ∀ q, Completing.allows q c := fun c h q =>
    completing_allows h.quiet (by rintro d rfl; exact h)
  have hdrops : ∀ c : Cmd, c.Drops → ∀ q, Completing.allows q c := fun c h q =>
    completing_allows h.quiet (by rintro d rfl; exact h)
  intro q p hp
  cases p with
  | poll u awaited => exact completing_of_within (Prog.within_retry (fun _ => trivial) trivial)
  | task t => exact hp.elim
  | agent svc r =>
    simp only [body]
    split
    · cases r with
      | scheduleEntity e => exact relays_scheduleEntity.mono fun _ _ _ => trivial
      | descheduleEntity e => exact relays_descheduleEntity.mono fun _ _ _ => trivial
      | onboardEntity entity => exact relays_onboardEntity.mono fun _ _ _ => trivial
      | _ =>
        exact completing_of_within (Request.Minor.within trivial hkeeps hdrops
          (fun _ _ => trivial) (fun _ _ => trivial) fun _ _ _ => trivial)
    · trivial

theorem body_completing {p : Proc} (hp : p.Called) :
    (body z p).Follows Completing p.PassesOn q := by
  by_cases hi : p.Inspects
  · have hmono : ∀ {b : M p.Ret}, b.Follows Completing Relays q → b.Follows Completing p.PassesOn q :=
      fun h => h.mono fun o q' h _ e he => Or.inl (h e he)
    cases p with
    | agent svc r =>
      simp only [body]
      split
      · cases r with
        | scheduleEntity e => exact hmono relays_scheduleEntity
        | onboardFdu fdu => exact hmono relays_onboardFdu
        | onboardEntity entity => exact hmono relays_onboardEntity
        | _ => exact hi.elim
      · rintro - e ⟨⟩
        exact Or.inr ⟨_, rfl⟩
    | _ => exact hi.elim
  · exact (completing_sound q p hp).mono fun _ _ _ h => absurd h hi

end Follows

/-- The next thing that the thread does is to fail with this error: to return it, if it
looks for missing uuids, or to write its text into the record of an entity. -/
def FailsWith (e : FError) (t : Thread Cmd.Ans Proc.Ret Exn) : Prop :=
  match t.prog with
  | .err e' => t.proc.Inspects ∧ e' = .err e
  | .act (.access (.putEntityInstance inst)) _ => inst.status = .error e.display
  | _ => False

/-- The step was a command of a thread that was answered with an error of this text. -/
def Told (m : String) (z : Session) (l : Label Proc Choice Uuid) (w : Calls) : Prop :=
  ∃ i ch c r s e, l = .fire i ch ∧ w.upcoming i = some c ∧
    (machine z).exec c ch w.state = some (r, s) ∧ c.told r = some e ∧ e.display = m

/-- Every descriptor of an entity is complete, in the catalog and on its way to a task,
and every thread keeps it so. -/
structure AllComplete (w : Calls) : Prop where
  entities : ∀ d ∈ w.state.global.entities, d.Complete
  tasks : ∀ t ∈ w.state.tasks, t.Complete
  calls : w.Follows Completing Proc.PassesOn fun _ _ _ => True

section Runs

variable {z : Session} {w w' : Calls} {l : Label Proc Choice Uuid} {s s' : Fos} {c : Cmd}
  {ch : Choice} {r : c.Ans} {q : Option FError}

theorem exec_finds (hx : exec c ch s = some (r, s')) (h : ∀ d ∈ s.global.entities, d.Complete) :
    c.Finds r := by
  unfold Cmd.Finds
  split
  · next e d =>
    rcases exec_access hx with ⟨-, hr⟩ | ⟨_, -, he, -⟩
    · exact h d (single_select_key (congrArg Prod.fst hr)).1
    · cases he
  · trivial

theorem exec_entities (hx : exec c ch s = some (r, s')) {d : EntityDescriptor}
    (hd : d ∈ s'.global.entities) : d ∈ s.global.entities ∨ c = .access (.putEntity d) := by
  cases c with
  | access a =>
    rcases exec_access hx with ⟨-, hr⟩ | ⟨e, -, -, rfl⟩
    · obtain ⟨-, rfl⟩ := Prod.mk.inj hr
      cases a with
      | putEntity d' =>
        exact (Table.mem_put.1 hd).elim (fun he => Or.inr (he ▸ rfl)) fun h => Or.inl h.1
      | deleteEntity e => exact Or.inl (Table.mem_erase.1 hd).1
      | _ => exact Or.inl hd
    · exact Or.inl hd
  | _ => exact Or.inl ((exec_internal (fun _ h => by cases h) hx).1 ▸ hd)

theorem exec_tasks (hx : exec c ch s = some (r, s')) {t : Task} (ht : t ∈ s'.tasks) :
    t ∈ s.tasks ∨ c = .spawn t := by
  cases c with
  | access a =>
    rcases exec_access hx with ⟨-, hr⟩ | ⟨e, -, -, rfl⟩
    · obtain ⟨-, rfl⟩ := Prod.mk.inj hr
      cases a <;> exact Or.inl ht
    · exact Or.inl ht
  | spawn t' =>
    rw [exec_spawn hx] at ht
    rcases List.mem_append.1 ht with ht | ht
    · exact Or.inl ht
    · rw [List.mem_singleton.1 ht]
      exact Or.inr rfl
  | net n q => obtain ⟨-, rfl⟩ := exec_net hx; exact Or.inl ht
  | hypervisor n name => obtain ⟨-, rfl⟩ := exec_hypervisor hx; exact Or.inl ht
  | lock p => rw [exec_lock hx |>.2] at ht; exact Or.inl ht
  | unlock p => rw [exec_unlock hx] at ht; exact Or.inl ht
  | insert p inst => rw [exec_insert hx] at ht; exact Or.inl ht
  | remove p u => rw [exec_remove hx] at ht; exact Or.inl ht
  | newUuid => obtain ⟨-, rfl⟩ := exec_newUuid hx; exact Or.inl ht
  | choose l => obtain ⟨rfl, -⟩ := exec_choose hx; exact Or.inl ht
  | pathExists path => obtain ⟨-, rfl⟩ := exec_pathExists hx; exact Or.inl ht

theorem AllComplete.step (h : AllComplete w) (hl : FromClients l) (hs : (machine z).Step l w w') :
    AllComplete w' := by
  have hcalls : w'.Follows Completing Proc.PassesOn fun _ _ _ => True := by
    refine hs.follows completing_sound h.calls (fun p hp => ?_) (fun p s _ hlaunch => ?_)
      (fun i ch p q c r s _ _ _ _ hx => ⟨_, ⟨rfl, exec_finds hx h.entities⟩, trivial⟩) fun _ _ h => h
    · subst hp
      cases p with
      | agent svc r => exact ⟨none, body_completing trivial, trivial⟩
      | _ => exact hl.elim
    · obtain ⟨t, ts, hts, rfl, -⟩ := launch_eq_some hlaunch
      refine ⟨none, (task_completing (h.tasks t ?_)).mono fun _ _ _ hi => hi.elim, trivial⟩
      rw [hts]
      exact List.mem_cons_self
  cases hs with
  | @act _ i ch p c k r s hi hx =>
    obtain ⟨q, hq, -⟩ := h.calls.threads _ (List.mem_of_getElem? hi)
    refine ⟨fun d hd => ?_, fun t ht => ?_, hcalls⟩
    · rcases exec_entities hx hd with hd | rfl
      · exact h.entities d hd
      · exact hq.1
    · rcases exec_tasks hx ht with ht | rfl
      · exact h.tasks t ht
      · exact hq.1
  | env hm =>
    obtain ⟨st, hst, rfl⟩ := Option.map_eq_some_iff.1 hm
    exact ⟨fun d hd => h.entities d ((monitor_moves hst).catalog ▸ hd), h.tasks, hcalls⟩
  | launch hlaunch =>
    obtain ⟨t, ts, hts, rfl, rfl⟩ := launch_eq_some hlaunch
    refine ⟨h.entities, fun t' ht => h.tasks t' ?_, hcalls⟩
    rw [hts]
    exact List.mem_cons_of_mem _ ht
  | _ => exact ⟨h.entities, h.tasks, hcalls⟩

theorem allComplete_of_reach {sites : List Site} {fdus : List FDUDescriptor}
    (hreach : (machine z).Reach (fun l _ => FromClients l) (Pool.idle (boot sites fdus [])) w) :
    AllComplete w := by
  refine hreach.inv AllComplete ⟨fun d hd => absurd hd (Table.not_mem_empty d),
    fun _ ht => absurd ht List.not_mem_nil, Pool.follows_idle _⟩ fun l w w' h hl hs => h.step hl hs

/-- A thread that keeps to the discipline fails for a malformed descriptor only if it was
just told so. -/
theorem told_of_failsWith {p : Proc} {b : M p.Ret} (hb : b.Follows Completing p.PassesOn q)
    (hf : FailsWith .malformedDescriptor ⟨p, b⟩) :
    ∃ e, q = some e ∧ e.display = FError.malformedDescriptor.display := by
  cases b with
  | err e' =>
    obtain ⟨hi, rfl⟩ := hf
    rcases hb hi _ rfl with hq | ⟨m, hm⟩
    · exact ⟨_, hq, rfl⟩
    · cases hm
  | act c k =>
    cases c with
    | access a =>
      cases a with
      | putEntityInstance inst => exact hb.1 _ hf
      | _ => exact hf.elim
    | _ => exact hf.elim
  | _ => exact hf.elim

theorem body_opens {p : Proc} (hp : p.Called) : (∃ m, body z p = fail (.zError m)) ∨
    ∃ c k, body z p = .act c k ∧ ∀ inst, c ≠ .access (.putEntityInstance inst) := by
  have hcomplete : ∀ fdus, (∃ fdus', Agent.completeFdus fdus = pure fdus') ∨
      ∃ k, Agent.completeFdus fdus = .act .newUuid k := by
    intro fdus
    induction fdus with
    | nil => exact Or.inl ⟨[], rfl⟩
    | cons fdu fdus ih =>
      rcases fdu with ⟨_ | f, hv, image, req, ifs, cps, others⟩
      · exact Or.inr ⟨_, rfl⟩
      · simp only [Agent.completeFdus]
        rcases ih with ⟨fdus', h⟩ | ⟨k, h⟩
        · rw [h]
          exact Or.inl ⟨_, rfl⟩
        · rw [h]
          exact Or.inr ⟨_, rfl⟩
  cases p with
  | poll u awaited => exact Or.inr ⟨_, _, rfl, fun _ h => by cases h⟩
  | task t => exact hp.elim
  | agent svc r =>
    simp only [body]
    split
    · apply Or.inr
      cases r with
      | onboardFdu fdu =>
        rcases fdu with ⟨_ | f, hv, image, req, ifs, cps, others⟩ <;>
          exact ⟨_, _, rfl, fun _ h => by cases h⟩
      | onboardEntity entity =>
        rcases entity with ⟨e, fdus, others⟩
        simp only [Agent.handle, Agent.onboardEntity]
        rcases hcomplete fdus with ⟨fdus', h⟩ | ⟨k, h⟩
        · rw [h]
          cases e <;> exact ⟨_, _, rfl, fun _ h => by cases h⟩
        · rw [h]
          exact ⟨_, _, rfl, fun _ h => by cases h⟩
      | _ => exact ⟨_, _, rfl, fun _ h => by cases h⟩
    · exact Or.inl ⟨_, rfl⟩

theorem not_failsWith_body {p p' : Proc} (hp : p.Called) {k : Except Exn p.Ret → M p'.Ret}
    (hk : ∀ o q', (k o).Follows Completing p'.PassesOn q') :
    ¬ FailsWith .malformedDescriptor ⟨p', (body z p).bindE k⟩ := by
  intro hf
  rcases body_opens hp with ⟨m, hb⟩ | ⟨c, k', hb, hc⟩
  · rw [hb] at hf
    obtain ⟨e, he, -⟩ := told_of_failsWith (hk _ none) hf
    cases he
  · rw [hb] at hf
    cases c with
    | access a => cases a <;> first | exact hf.elim | exact hc _ rfl
    | _ => exact hf.elim

/-- A thread comes to fail for a malformed descriptor by a command that tells it so. -/
theorem AllComplete.told (h : AllComplete w) (hl : FromClients l) (hs : (machine z).Step l w w')
    {t : Thread Cmd.Ans Proc.Ret Exn} (ht : t ∈ w'.threads) (hf : FailsWith .malformedDescriptor t) :
    t ∈ w.threads ∨ Told FError.malformedDescriptor.display z l w := by
  have hstart : ∀ {p : Proc}, (body z p).Follows Completing p.PassesOn none →
      ¬ FailsWith .malformedDescriptor ⟨p, body z p⟩ := fun hb hf => by
    obtain ⟨e, he, -⟩ := told_of_failsWith hb hf
    cases he
  cases hs with
  | @start _ p =>
    rcases List.mem_append.1 ht with ht | ht
    · exact Or.inl ht
    · rw [List.mem_singleton.1 ht] at hf
      cases p with
      | agent svc r => exact absurd hf (hstart (body_completing trivial))
      | _ => exact hl.elim
  | launch hlaunch =>
    rcases List.mem_append.1 ht with ht | ht
    · exact Or.inl ht
    · obtain ⟨t', ts, hts, rfl, -⟩ := launch_eq_some hlaunch
      have hcomplete : t'.Complete := h.tasks t' (by rw [hts]; exact List.mem_cons_self)
      rw [List.mem_singleton.1 ht] at hf
      exact absurd hf (hstart ((task_completing hcomplete).mono fun _ _ _ hi => hi.elim))
  | env hm => exact Or.inl ht
  | @act _ i ch p c k r s hi hx =>
    rcases List.mem_or_eq_of_mem_set ht with ht | rfl
    · exact Or.inl ht
    · obtain ⟨q, hq, -⟩ := h.calls.threads _ (List.mem_of_getElem? hi)
      obtain ⟨e, he, hm⟩ := told_of_failsWith (hq.2 r _ ⟨rfl, exec_finds hx h.entities⟩) hf
      exact Or.inr ⟨i, ch, c, r, s, e, rfl, Pool.upcoming_eq_some.2 ⟨p, k, hi⟩, hx, he, hm⟩
  | @call _ i ch p p' k hi =>
    rcases List.mem_or_eq_of_mem_set ht with ht | rfl
    · exact Or.inl ht
    · obtain ⟨q, hq, -⟩ := h.calls.threads _ (List.mem_of_getElem? hi)
      exact absurd hf (not_failsWith_body hq.1 fun o q' => hq.2 o q' trivial)
  | done hi => exact Or.inl (List.mem_of_mem_eraseIdx ht)

/-- The call stores a descriptor in which nothing is changed but that the missing uuids
are filled in, in order, by uuids that were given out meanwhile; and it gives every FDU
to the catalog with a uuid. Where descriptors come from there, no thread fails for a
malformed one unless an access or a remote call was just answered so. -/
theorem onboarding_completes (z : Session) :
    (∀ (ok : Choice → Prop) [Fair ok] (entity : EntityDescriptor) (s : Fos),
      (amid z ok).Ensures True (Agent.onboardEntity entity) s
        (Excused ok fun o s' => ∃ e us d, o = .ok e ∧ d.uuid = some e ∧ d ∈ s'.global.entities ∧
          FilledIn entity us d ∧ Minted us s s')) ∧
    (∀ fdu : FDUDescriptor, Agent.onboardFdu fdu =
      match fdu.uuid with
      | none => do
          let f ← issue .newUuid
          ask (.putFdu { fdu with uuid := some f })
          pure f
      | some f => do
          ask (.putFdu fdu)
          pure f) ∧
    ∀ sites fdus w, (machine z).Reach (fun l _ => FromClients l) (Pool.idle (boot sites fdus [])) w →
      (∀ d ∈ w.state.global.entities, d.Complete) ∧ (∀ t ∈ w.state.tasks, t.Complete) ∧
      ∀ l w', FromClients l → (machine z).step l w = some w' → ∀ t ∈ w'.threads,
        FailsWith .malformedDescriptor t →
          t ∈ w.threads ∨ Told FError.malformedDescriptor.display z l w := by
  refine ⟨fun ok _ entity s => amid_onboardEntity entity, fun fdu => ?_, fun sites fdus w hreach => ?_⟩
  · rcases fdu with ⟨_ | f, hv, image, req, ifs, cps, others⟩ <;> rfl
  · have hw := allComplete_of_reach hreach
    exact ⟨hw.entities, hw.tasks, fun l w' hl hs t ht hf => hw.told hl (Machine.step_cases hs) ht hf⟩

def unnamed : EntityDescriptor := ⟨none, [{ FDUDescriptor.plain 50 with uuid := none }], []⟩

/-- It is onboarded, and a task is spawned to schedule it. -/
theorem onboarding_completes_unnamed : ∃ w d,
    (machine (Site.session oneSite)).Reach (fun l _ => FromClients l)
      (Pool.idle (boot oneSite [] [])) w ∧
    w.state.tasks ≠ [] ∧ d ∈ w.state.global.entities ∧ d.Complete := by
  have hrun : (playClients oneSite ([.start (.agent 100 (.onboardEntity unnamed))] ++ fires 0 4 ++
      [.start (.agent 100 (.scheduleEntity 1))] ++ fires 0 5) (Pool.idle (boot oneSite [] []))).any
      (fun w => !w.state.tasks.isEmpty && !w.state.global.entities.rows.isEmpty) = true := by
    decide +kernel
  obtain ⟨w, hw, hend⟩ := (Option.any_eq_true _ _).1 hrun
  obtain ⟨htasks, hrows⟩ := Bool.and_eq_true_iff.1 hend
  obtain ⟨d, hd⟩ := List.exists_mem_of_ne_nil w.state.global.entities.rows (by simpa using hrows)
  have hreach := reach_of_playClients hw
  exact ⟨w, d, hreach, by simpa using htasks, hd,
    ((onboarding_completes _).2.2 _ _ w hreach).1 d hd⟩

/-- What is unreachable then: an incomplete descriptor in the catalog is found out. -/
example : ((playClients oneSite ([.start (.agent 100 (.scheduleEntity 60))] ++ fires 0 5 ++
      [.launch] ++ fires 0 7) (Pool.idle (boot oneSite [] [{ unnamed with uuid := some 60 }]))).any
    fun w => w.threads.any fun t =>
      match t.prog with
      | .act (.access (.putEntityInstance inst)) _ =>
        inst.status = .error FError.malformedDescriptor.display
      | _ => false) = true := by decide +kernel

end Runs

end Fog05
