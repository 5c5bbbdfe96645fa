import Fog05.Proofs.Identity
import Fog05.Proofs.Location
import Fog05.Proofs.Trail

/-! The status of an instance, asked at any agent. The answer comes from the local store
of the agent that is asked, which holds the instance only if it is the owner's. -/

namespace Fog05

open Conc M Relation

variable {z : Session} {n u f : Uuid}

/-- The command puts no record of an instance. -/
def Cmd.PutsNone : Cmd → Prop
  | .access (.localPutInstance _ _) => False
  | _ => True

/-- A record that is read from the local store of a node is of that node. -/
def Cmd.Local : (c : Cmd) → c.Ans → Prop
  | .access (.localGetInstance n _), .ok i => i.node = n
  | _, _ => True

/-- To put records of a node there only. -/
def Homing : Discipline Cmd.Ans Proc.Ret Exn Unit where
  allows _
    | .access (.localPutInstance n i) => i.node = n
    | _ => True
  next _ c r _ := c.Honest r ∧ c.Local r
  calls _ p := p.Called
  back _ _ _ _ := True

section Follows

variable {α : Type} {a : Agent} {q : Unit}

theorem Cmd.Drops.putsNone {c : Cmd} (h : c.Drops) : c.PutsNone := by
  unfold Cmd.PutsNone
  split <;> first | exact h | trivial

theorem homing_allows {c : Cmd} (hc : c.PutsNone) : Homing.allows q c := by
  unfold Homing
  dsimp only
  split <;> first | exact hc.elim | trivial

theorem homing_of_within {b : M α} (h : b.Within Cmd.PutsNone Proc.Called) :
    b.Follows Homing (fun _ _ => True) q :=
  h.allowed (fun _ _ => homing_allows) fun _ _ => id

theorem moving_homing {r : PluginRequest} (hr : r.Moves u) {awaited : FDUState}
    {forward : Uuid → M FDURecord}
    (hforward : ∀ svc, (forward svc).Within Cmd.PutsNone Proc.Called) :
    (Agent.dispatch a u (fun _ => Agent.move z a r awaited u) forward).Follows Homing
      (fun _ _ => True) q := by
  refine follows_ask_bind trivial (fun inst q₁ _ => ?_) fun _ _ _ => trivial
  split
  · refine follows_ask_bind trivial (fun d q₂ _ => ?_) fun _ _ _ => trivial
    refine follows_issue_bind trivial fun hv q₃ _ => follows_okOr_bind (fun p _ => ?_) fun _ => trivial
    refine follows_bind (DummyHypervisor.follows_call (J := fun _ => True)
      (L := fun inst _ => inst.node = a.nodeUuid) hr
      (fun q c _ hc => ⟨homing_allows hc.drops.putsNone, fun _ _ _ => trivial⟩)
      (fun q inst q' _ hn => hn.2) (fun inst q c hL hc => ⟨?_, fun _ _ _ => hL⟩)
      (fun _ _ _ => trivial) trivial)
      (fun _ _ _ => follows_invoke trivial fun _ _ _ => trivial) fun _ _ _ => trivial
    rcases hc with hc | ⟨i, rfl, -, hnode⟩
    · exact homing_allows hc.drops.putsNone
    · exact hnode.trans hL
  · exact follows_ask_bind trivial (fun _ _ _ => homing_of_within (hforward _)) fun _ _ _ => trivial

theorem defineFdu_homing : (Agent.defineFdu z a f).Follows Homing (fun _ _ => True) q := by
  refine follows_ask_bind trivial (fun d q₁ _ => ?_) fun _ _ _ => trivial
  refine follows_issue_bind trivial fun hv q₂ _ => follows_okOr_bind (fun p _ => ?_) fun _ => trivial
  refine follows_bind (DummyHypervisor.follows_define (J := fun _ => True)
    (fun q c _ hc => ⟨homing_allows hc.drops.putsNone, fun _ _ _ => trivial⟩)
    (fun _ _ => ⟨trivial, fun _ _ _ => trivial⟩) (fun q m q' _ hn => ?_)
    (fun _ _ _ hi => ⟨hi, fun _ _ _ => trivial⟩) trivial)
    (fun _ _ _ => follows_invoke trivial fun _ _ _ => trivial) fun _ _ _ => trivial
  exact (Except.ok.inj hn.1).symm

theorem handle_homing {r : Request} : (Agent.handle z a r).Follows Homing (fun _ _ => True) q := by
  have hdrops : ∀ c : Cmd, c.Drops → c.PutsNone := fun _ h => h.putsNone
  have hidle : ∀ c : Cmd, c.Idle → c.PutsNone := fun _ h => h.tame.drops.putsNone
  have hplain : ∀ c : Cmd, c.Plain → c.PutsNone := fun _ h => hidle _ h.idle
  have hrpc : ∀ svc (r : Request), (rpc z svc r).Within Cmd.PutsNone Proc.Called := fun _ _ =>
    within_remote (within_invoke trivial) trivial fun _ => trivial
  cases r with
  | checkFduCompatibility f => exact homing_of_within (Agent.within_checkFduCompatibility hplain)
  | scheduleEntity e => exact homing_of_within (Agent.within_scheduleEntity hidle (fun _ => trivial)
      trivial fun _ => trivial)
  | descheduleEntity e => exact homing_of_within (Agent.within_descheduleEntity hidle fun _ => trivial)
  | scheduleFdu f =>
    refine follows_bind (homing_of_within (Agent.within_getCompatibleNodes hplain fun _ => trivial))
      (fun l q₁ _ => follows_issue_bind trivial fun selected q₂ _ => ?_) fun _ _ _ => trivial
    cases selected with
    | none => trivial
    | some svc =>
      dsimp only
      split
      · exact defineFdu_homing
      · exact homing_of_within (hrpc svc (.defineFdu f))
  | onboardFdu fdu => exact homing_of_within (Agent.within_onboardFdu fdu trivial fun _ => trivial)
  | onboardEntity entity =>
    exact homing_of_within (Agent.within_onboardEntity entity trivial fun _ => trivial)
  | defineFdu f => exact defineFdu_homing
  | configureFdu u => exact moving_homing (r := .configureFdu u) rfl fun svc => hrpc svc (.configureFdu u)
  | startFdu u => exact moving_homing (r := .startFdu u) rfl fun svc => hrpc svc (.startFdu u)
  | stopFdu u => exact moving_homing (r := .stopFdu u) rfl fun svc => hrpc svc (.stopFdu u)
  | cleanFdu u => exact moving_homing (r := .cleanFdu u) rfl fun svc => hrpc svc (.cleanFdu u)
  | undefineFdu u => exact homing_of_within (Agent.within_undefineFdu hdrops fun _ => trivial)
  | offloadFdu f => exact homing_of_within (Agent.within_offloadFdu hplain trivial)
  | offloadEntity e => exact homing_of_within (Agent.within_offloadEntity hplain trivial)
  | fduStatus u => exact homing_of_within (Agent.within_fduStatus hidle)

theorem homing_sound : Homing.Sound (body z) := by
  intro q p hp
  cases p with
  | poll u awaited => exact homing_of_within (within_poll (fun _ h => h.tame.drops.putsNone) trivial)
  | task t => exact hp.elim
  | agent svc r =>
    simp only [body]
    split
    · exact handle_homing
    · trivial

theorem task_homing {t : Task} : (t.body z).Follows Homing (fun _ _ => True) q :=
  homing_of_within (Task.within (fun _ h => h.tame.drops.putsNone) (fun _ => trivial)
    (fun _ _ _ => trivial) fun _ _ _ => trivial)

end Follows

/-- The records in the local store of a node, and on their way from it, are of that node. -/
structure AtHome (s : Fos) : Prop where
  copies : ∀ n, ∀ i ∈ (s.node n).instances, i.node = n
  pending : ∀ n, ∀ i ∈ (s.node n).changes, i.node = n

/-- And every thread keeps it so. -/
structure AllAtHome (w : Calls) : Prop where
  state : AtHome w.state
  calls : w.Follows Homing (fun _ _ _ => True) fun _ _ _ => True

section Runs

variable {w w' : Calls} {l : Label Proc Choice Uuid} {s s' : Fos} {c : Cmd} {ch : Choice} {r : c.Ans}

theorem exec_local (hx : exec c ch s = some (r, s')) (h : AtHome s) : c.Local r := by
  unfold Cmd.Local
  split
  · next n u i =>
    rcases exec_access hx with ⟨-, hr⟩ | ⟨_, -, he, -⟩
    · exact h.copies n i (single_select_key (congrArg Prod.fst hr)).1
    · cases he
  · trivial

theorem AllAtHome.step (h : AllAtHome w) (hl : FromClients l) (hs : (machine z).Step l w w') :
    AllAtHome w' := by
  refine ⟨?_, hs.follows homing_sound h.calls (fun p hp => ?_) (fun p s _ hlaunch => ?_)
    (fun i ch p q c r s _ _ _ _ hx => ⟨(), ⟨exec_honest hx, exec_local hx h.state⟩, trivial⟩)
    fun _ _ h => h⟩
  · cases hs with
    | @act _ i ch p c k r s hi hx =>
      obtain ⟨q, hq, -⟩ := h.calls.threads _ (List.mem_of_getElem? hi)
      have hadds := exec_adds hx
      refine ⟨fun n i hi => ?_, fun n i hi => ?_⟩
      · rcases hadds.copies n i hi with hi | rfl
        · exact h.state.copies n i hi
        · exact hq.1
      · rcases hadds.pending n i hi with hi | rfl
        · exact h.state.pending n i hi
        · exact hq.1
    | env hm =>
      obtain ⟨st, hst, rfl⟩ := Option.map_eq_some_iff.1 hm
      have hmoves := monitor_moves hst
      exact ⟨fun n i hi => h.state.copies n i (hmoves.copies n ▸ hi),
        fun n i hi => h.state.pending n i (hmoves.pending n i hi)⟩
    | launch hlaunch =>
      obtain ⟨t, ts, -, rfl, rfl⟩ := launch_eq_some hlaunch
      exact ⟨h.state.copies, h.state.pending⟩
    | _ => exact h.state
  · subst hp
    cases p with
    | agent svc r => exact ⟨(), homing_sound () _ trivial, trivial⟩
    | _ => exact hl.elim
  · obtain ⟨t, ts, -, rfl, -⟩ := launch_eq_some hlaunch
    exact ⟨(), task_homing, trivial⟩

theorem atHome_of_reach {sites : List Site} {fdus : List FDUDescriptor}
    {entities : List EntityDescriptor}
    (hreach : (machine z).Reach (fun l _ => FromClients l) (Pool.idle (boot sites fdus entities)) w) :
    AtHome w.state := by
  refine (hreach.inv AllAtHome ⟨⟨fun n i hi => absurd hi (Table.not_mem_empty i),
    fun n i hi => absurd hi List.not_mem_nil⟩, Pool.follows_idle _⟩ fun l w w' h hl hs => h.step hl hs).state

end Runs

section Answer

variable {a : Agent} {d : FDUDescriptor} {path : Uuid × Uuid} {s s' : Fos}

/-- All records of `u` in the global store, and on their way there, have one path. -/
def Store.Names (st : Store) (u : Uuid) (path : Uuid × Uuid) : Prop :=
  ∀ i : FDURecord, (i ∈ st.global.instances ∨ ∃ m, i ∈ (st.node m).changes) → i.uuid = u → i.path = path

/-- What the monitoring tasks have made of `s`, where the global store knows `u`. -/
structure Knowing (s : Fos) (u : Uuid) (s' : Fos) : Prop where
  copied : s.toStore.Copied s'.toStore
  seen : ∃ i ∈ s'.global.instances, i.uuid = u

theorem Knowing.stable : Stable (Knowing s u) :=
  fun _ _ _ h hm => ⟨h.copied.trans (Store.copied_monitor hm), seen_monitor hm h.seen⟩

theorem Knowing.getInstance (h : Knowing s u s') (hnames : s.Names u path) :
    ∃ i, s'.global.getInstance u = .ok i ∧ i.path = path := by
  have hstored : ∀ i ∈ s'.global.instances, i.uuid = u → i.path = path := fun i hi =>
    hnames i (h.copied.known i hi)
  obtain ⟨i, hi, -⟩ := getInstance_trail (n := 0) hstored h.seen
  obtain ⟨hmem, hu⟩ := single_select_key hi
  exact ⟨i, hi, hstored i hmem hu⟩

/-- What node `n` has to say of the status of an instance of an FDU `d`. -/
def Store.status (st : Store) (n u : Uuid) (d : FDUDescriptor) : Except FError FDURecord :=
  match (st.node n).hypervisors d.hypervisor with
  | none => .error .notFound
  | some _ => (st.node n).getInstance u

theorem ensures_getFduStatus (h : Knowing s u s') {p : Uuid} :
    Ensures z Reliable True (DummyHypervisor.call z n p (.getFduStatus u)) s' fun o _ =>
      o = ((s.node n).getInstance u).mapError .err := by
  refine ensures_remote_stable Knowing.stable h
    (Ψ := fun o _ => o = ((s.node n).getInstance u).mapError .err) (fun s₁ h₁ => ?_)
    (fun _ _ _ _ ho _ => by exact ho) ?_
  · refine ensures_bind (Ψ := fun o s₂ => o = .ok n ∧ Knowing s u s₂) ?_ ?_ fun _ _ ho => by cases ho.1
    · refine ensures_remote_stable Knowing.stable h₁ (Ψ := fun o s₂ => o = .ok n ∧ Knowing s u s₂)
        (fun s₂ h₂ => ensures_pure ⟨rfl, h₂⟩) (fun _ => Knowing.stable.and) ?_
      rintro _ s₂ l ⟨rfl, h₂⟩
      exact ⟨rfl, h₂.copied, h₂.seen⟩
    · rintro _ s₂ ⟨-, h₂⟩
      apply ensures_ask_final Knowing.stable h₂
      intro s₃ h₃
      exact congrArg (Except.mapError Exn.err) (h₃.copied.localGetInstance n u)
  · rintro _ _ _ rfl
    cases (s.node n).getInstance u <;> rfl

/-- The agent that is asked answers from its own plugins and its own store. -/
theorem ensures_fduStatus (hnames : s.Names u path) (hseen : ∃ i ∈ s.global.instances, i.uuid = u)
    (hd : s.global.getFdu path.1 = .ok d) :
    Ensures z Reliable True (Agent.fduStatus z a u) s fun o _ =>
      o = (s.status a.nodeUuid u d).mapError .err := by
  refine ensures_ask Knowing.stable ⟨.refl _, hseen⟩ (fun s₁ h₁ => ?_) fun hf => hf.elim fun _ h => h.elim
  obtain ⟨i, hi, hpath⟩ := h₁.getInstance hnames
  rw [Access.run, hi]
  refine ensures_ask Knowing.stable h₁ (fun s₂ h₂ => ?_) fun hf => hf.elim fun _ h => h.elim
  rw [Access.run, h₂.copied.getFdu, show i.fduUuid = path.1 from congrArg Prod.fst hpath, hd]
  apply ensures_issue Knowing.stable h₂ (fun s _ => ⟨.go, _, _, Fair.go, rfl⟩)
  intro s₃ ch r s₄ h₃ _ hx
  obtain ⟨rfl, rfl⟩ := exec_hypervisor hx
  rw [h₃.copied.hypervisors]
  unfold Store.status
  cases (s.node a.nodeUuid).hypervisors d.hypervisor with
  | none => exact ensures_err rfl
  | some p => exact ensures_getFduStatus h₃

end Answer

/-- Asked of `a`, `fdu_status` of `u` returns `i`, whatever the monitoring tasks do meanwhile. -/
def Returns (z : Session) (a : Agent) (u : Uuid) (s : Fos) (i : FDURecord) : Prop :=
  (system z Reliable).Ensures True (Agent.fduStatus z a u) s fun o _ => o = .ok i

section Transparency

variable {sites : List Site} {fdus : List FDUDescriptor} {entities : List EntityDescriptor}
  {w : Calls} {a owner : Agent} {r i : FDURecord} {d : FDUDescriptor} {p : Uuid}

theorem names_of_reach
    (hreach : (machine z).Reach (fun l _ => FromClients l) (Pool.idle (boot sites fdus entities)) w)
    (hr : w.state.global.getInstance u = .ok r) : w.state.Names u r.path := by
  obtain ⟨T, -, hw⟩ := accounted_of_reach (boot_accounted sites fdus entities) hreach
  obtain ⟨hmem, hu⟩ := single_select_key hr
  have hholds := hw.state.shown _ (.stored hmem)
  rintro i (hi | ⟨m, hi⟩) hiu
  · exact same_path (hw.state.shown _ (.stored hi)) hholds (hiu.trans hu.symm)
  · exact same_path (hw.state.shown _ (.pending hi)) hholds (hiu.trans hu.symm)

theorem ensures_status
    (hreach : (machine z).Reach (fun l _ => FromClients l) (Pool.idle (boot sites fdus entities)) w)
    (hr : w.state.global.getInstance u = .ok r) (hd : w.state.global.getFdu r.fduUuid = .ok d) :
    (system z Reliable).Ensures True (Agent.fduStatus z a u) w.state fun o _ =>
      o = (w.state.status a.nodeUuid u d).mapError .err := by
  obtain ⟨hmem, hu⟩ := single_select_key hr
  exact (ensures_fduStatus (names_of_reach hreach hr) ⟨r, hmem, hu⟩ hd).bound not_faulty_reliable

theorem returns_iff
    (hreach : (machine z).Reach (fun l _ => FromClients l) (Pool.idle (boot sites fdus entities)) w)
    (hr : w.state.global.getInstance u = .ok r) (hd : w.state.global.getFdu r.fduUuid = .ok d) :
    Returns z a u w.state i ↔ w.state.status a.nodeUuid u d = .ok i := by
  have hstatus := ensures_status (a := a) hreach hr hd
  constructor
  · intro h
    obtain ⟨k, s', o, hrun, ho⟩ := hstatus.exists_end
    have hi := h.1 k s' o hrun
    rw [ho] at hi
    cases hst : w.state.status a.nodeUuid u d with
    | ok j => rw [hst] at hi; exact congrArg Except.ok (Except.ok.inj hi)
    | error e => rw [hst] at hi; cases hi
  · intro h
    apply System.Ensures.mono hstatus
    intro o _ ho
    rw [ho, h]
    rfl

/-- The status is the owner's where the owner is asked, while its store still holds the
instance; asked anywhere else, it is not. -/
theorem status_transparent_iff
    (hreach : (machine z).Reach (fun l _ => FromClients l) (Pool.idle (boot sites fdus entities)) w)
    (hr : w.state.global.getInstance u = .ok r) (hd : w.state.global.getFdu r.fduUuid = .ok d)
    (hp : (w.state.node r.node).hypervisors d.hypervisor = some p) (howner : owner.nodeUuid = r.node) :
    (∃ i, Returns z owner u w.state i ∧ Returns z a u w.state i) ↔
      a.nodeUuid = r.node ∧ ∃ i, (w.state.node r.node).getInstance u = .ok i := by
  have hhome := atHome_of_reach hreach
  have hlocal : w.state.status r.node u d = (w.state.node r.node).getInstance u := by
    rw [Store.status, hp]
  simp only [returns_iff hreach hr hd, howner, hlocal]
  constructor
  · rintro ⟨i, hi, ha⟩
    refine ⟨?_, i, hi⟩
    unfold Store.status at ha
    split at ha
    · cases ha
    · -- one record, in the stores of both nodes
      exact (hhome.copies _ i (single_select_key ha).1).symm.trans
        (hhome.copies _ i (single_select_key hi).1)
  · rintro ⟨ha, i, hi⟩
    exact ⟨i, hi, by rw [ha, hlocal, hi]⟩

end Transparency

theorem exists_defined : ∃ w r d i, (machine twoSession).Reach (fun l _ => FromClients l)
      (Pool.idle (boot twoSites [.plain 50] [])) w ∧
    w.state.global.getInstance 0 = .ok r ∧ w.state.global.getFdu r.fduUuid = .ok d ∧ r.node = 0 ∧
    (w.state.node r.node).hypervisors d.hypervisor = some 7 ∧
    (w.state.node 1).hypervisors d.hypervisor = some 8 ∧
    (w.state.node r.node).getInstance 0 = .ok i ∧
    (w.state.status 1 0 d).mapError Exn.err = .error (.err .notFound) := by
  have hrun : (playClients twoSites ([.start (.agent 100 (.defineFdu 50))] ++ fires 0 8 ++ [.env 0])
      (Pool.idle (boot twoSites [.plain 50] []))).any (fun w =>
        (w.state.global.getInstance 0).toOption.any fun r =>
          (w.state.global.getFdu r.fduUuid).toOption.any fun d =>
            ((w.state.node r.node).getInstance 0).toOption.any fun _ =>
              decide (r.node = 0 ∧ (w.state.node r.node).hypervisors d.hypervisor = some 7 ∧
                (w.state.node 1).hypervisors d.hypervisor = some 8 ∧
                failure ((w.state.status 1 0 d).mapError .err) = some (.err .notFound))) = true := by
    decide +kernel
  obtain ⟨w, hw, hrun⟩ := (Option.any_eq_true _ _).1 hrun
  obtain ⟨r, hr, hrun⟩ := exists_ok hrun
  obtain ⟨d, hd, hrun⟩ := exists_ok hrun
  obtain ⟨i, hi, hrun⟩ := exists_ok hrun
  obtain ⟨hnode, h₀, h₁, hnone⟩ := of_decide_eq_true hrun
  exact ⟨w, r, d, i, reach_of_playClients hw, hr, hd, hnode, h₀, h₁, hi, failure_eq_some.1 hnone⟩

theorem status_transparent_owner : ∃ w r i, (machine twoSession).Reach (fun l _ => FromClients l)
      (Pool.idle (boot twoSites [.plain 50] [])) w ∧
    w.state.global.getInstance 0 = .ok r ∧ r.node = 0 ∧ Returns twoSession ⟨0, 100⟩ 0 w.state i := by
  obtain ⟨w, r, d, i, hreach, hr, hd, hnode, hp, -, hi, -⟩ := exists_defined
  have howner : (⟨0, 100⟩ : Agent).nodeUuid = r.node := hnode.symm
  obtain ⟨j, hj, -⟩ := (status_transparent_iff (z := twoSession) hreach hr hd hp howner).2 ⟨howner, i, hi⟩
  exact ⟨w, r, j, hreach, hr, hnode, hj⟩

/-- The owner returns the record of the instance; the other agent, that it is not found. -/
theorem status_elsewhere : ∃ w r d i, (machine twoSession).Reach (fun l _ => FromClients l)
      (Pool.idle (boot twoSites [.plain 50] [])) w ∧
    w.state.global.getInstance 0 = .ok r ∧ w.state.global.getFdu r.fduUuid = .ok d ∧
    (w.state.node r.node).hypervisors d.hypervisor = some 7 ∧ r.node = 0 ∧
    twoSession.server 100 = some 0 ∧ twoSession.server 101 = some 1 ∧
    Returns twoSession ⟨0, 100⟩ 0 w.state i ∧ (∀ j, ¬ Returns twoSession ⟨1, 101⟩ 0 w.state j) ∧
    (system twoSession Reliable).Ensures True (Agent.fduStatus twoSession ⟨1, 101⟩ 0) w.state
      fun o _ => o = .error (.err .notFound) := by
  obtain ⟨w, r, d, i, hreach, hr, hd, hnode, hp, -, hi, hnone⟩ := exists_defined
  have helse := ensures_status (z := twoSession) (a := ⟨1, 101⟩) hreach hr hd
  refine ⟨w, r, d, i, hreach, hr, hd, hp, hnode, rfl, rfl, (returns_iff hreach hr hd).2 ?_,
    fun j hj => ?_, ?_⟩
  · rw [Store.status, show (⟨0, 100⟩ : Agent).nodeUuid = r.node from hnode.symm, hp]
    exact hi
  · have hok := (returns_iff hreach hr hd).1 hj
    rw [show (⟨1, 101⟩ : Agent).nodeUuid = 1 from rfl] at hok
    rw [hok] at hnone
    cases hnone
  · exact System.Ensures.mono helse fun o _ ho => ho.trans hnone

end Fog05
