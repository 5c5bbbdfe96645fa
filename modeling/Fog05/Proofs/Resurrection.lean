import Fog05.Proofs.Boot
import Fog05.Proofs.Holding

/-! No resurrection: at an agent that owns all instances, an instance that
`undefine_fdu` has removed stays out of the global store if the record that was
deleted was the last one of it. Otherwise a monitoring task puts it back. -/

namespace Fog05

open Conc M

variable {z : Session} {n u f : Uuid} {s s' : Fos} {c : Cmd} {ch : Choice} {r : c.Ans}

/-- The calls on FDUs and their instances, at the agent of node `n`. -/
def Proc.ServedBy (z : Session) (n : Uuid) : Proc → Prop
  | .poll _ _ => True
  | .agent svc q => q.OnFdu ∧ z.server svc = some n
  | .task _ => False

theorem Proc.ServedBy.onFdu {p : Proc} (h : p.ServedBy z n) : p.OnFdu := by
  cases p with
  | agent svc q => exact h.1
  | _ => exact h

/-- The answer is not of an instance of another node. -/
def Cmd.Homed (n : Uuid) : (c : Cmd) → c.Ans → Prop
  | .access (.getInstance _), .ok i | .access (.localGetInstance _ _), .ok i => i.node = n
  | _, _ => True

/-- The record of `u` has been deleted from the global store. -/
def Cmd.Removed (u : Uuid) : (c : Cmd) → c.Ans → Prop
  | .access (.deleteInstance _ v), .ok _ => v = u
  | _, _ => False

def Proc.Undefines (u : Uuid) : (p : Proc) → Except Exn p.Ret → Prop
  | .agent _ (.undefineFdu v), .ok _ => v = u
  | _, _ => False

structure Trace where
  seen : Prop
  removed : Prop

/-- To put records of node `n` there only, to delete `u` only after having seen it,
and to say that it is undefined only after having deleted it. -/
def Owning (z : Session) (n u : Uuid) : Discipline Cmd.Ans Proc.Ret Exn Trace where
  allows q
    | .access (.localPutInstance m i) => m = n ∧ i.node = n
    | .access (.deleteInstance _ v) => v = u → q.seen
    | _ => True
  next q c r q' := (q'.seen ↔ q.seen ∨ (Subject.globalInstance u).Told c r) ∧
    (q'.removed ↔ q.removed ∨ c.Removed u r) ∧ c.Honest r ∧ c.Homed n r
  calls _ p := p.ServedBy z n
  back _ p o q' := p.Undefines u o → q'.removed

section Follows

variable {α : Type} {a : Agent} {p svc : Uuid} {q : Trace}

/-- Neither an instance is put nor one deleted. -/
def Cmd.Bystander : Cmd → Prop
  | .access (.localPutInstance _ _) | .access (.deleteInstance _ _) => False
  | _ => True

theorem Cmd.Tame.bystander {c : Cmd} (h : c.Tame) : c.Bystander := by
  unfold Cmd.Bystander
  split <;> first | exact h | trivial

theorem owning_of_bystander {c : Cmd} (hc : c.Bystander) : (Owning z n u).allows q c := by
  unfold Owning
  dsimp only
  split <;> first | exact hc.elim | trivial

theorem owning_of_within {b : M α} (h : b.Within Cmd.Bystander (Proc.ServedBy z n)) :
    b.Follows (Owning z n u) (fun _ _ => True) q :=
  h.allowed (fun _ _ => owning_of_bystander) fun _ _ => id

theorem dispatch_owning {work : FDURecord → Uuid → M FDURecord} {forward : Uuid → M FDURecord}
    {v : Uuid} {Φ : Except Exn FDURecord → Trace → Prop} (ha : a.nodeUuid = n)
    (hwork : ∀ inst p q, (work inst p).Follows (Owning z n u) Φ q)
    (herr : ∀ e q, Φ (.error e) q) :
    (Agent.dispatch a v work forward).Follows (Owning z n u) Φ q := by
  refine follows_ask_bind trivial (fun inst q₁ h₁ => ?_) fun _ _ _ => herr _ _
  have hnode : inst.node = a.nodeUuid := by rw [ha]; exact h₁.2.2.2
  rw [if_pos hnode]
  refine follows_ask_bind trivial (fun d q₂ _ => ?_) fun _ _ _ => herr _ _
  apply follows_issue_bind trivial
  intro hv q₃ _
  exact follows_okOr_bind (fun p _ => hwork inst p q₃) fun _ => herr _ _

theorem moving_owning {r : PluginRequest} {v : Uuid} (hr : r.Moves v) {awaited : FDUState}
    {forward : Uuid → M FDURecord} (ha : a.nodeUuid = n) :
    (Agent.dispatch a v (fun _ => Agent.move z a r awaited v) forward).Follows (Owning z n u)
      (fun _ _ => True) q := by
  refine dispatch_owning ha (fun inst p q => ?_) fun _ _ => trivial
  refine follows_bind (DummyHypervisor.follows_call (J := fun _ => True)
    (L := fun inst _ => inst.node = n) hr
    (fun q c _ hc => ⟨owning_of_bystander hc.bystander, fun _ _ _ => trivial⟩)
    (fun q inst q' _ hn => hn.2.2.2) (fun inst q c hL hc => ⟨?_, fun _ _ _ => hL⟩)
    (fun _ _ _ => trivial) trivial)
    (fun _ _ _ => follows_invoke trivial fun _ _ _ => trivial) fun _ _ _ => trivial
  rcases hc with hc | ⟨i, rfl, -, hnode⟩
  · exact owning_of_bystander hc.bystander
  · exact ⟨ha, hnode.trans hL⟩

theorem pluginDefine_owning {d : FDUDescriptor} :
    (DummyHypervisor.call z n p (.defineFdu d)).Follows (Owning z n u) (fun _ _ => True) q := by
  refine follows_remote trivial (fun y q₁ _ => ?_) fun _ _ _ => trivial
  refine Prog.Follows.mono (Ψ := fun _ _ => True) ?_ fun _ _ _ => ⟨trivial, fun _ _ _ => trivial⟩
  have hnode : (DummyHypervisor.getNodeUuid z n).Follows (Owning z n u)
      (fun o _ => ∀ m, o = .ok m → m = n) q₁ := by
    refine follows_remote trivial (fun y q₂ _ => ⟨trivial, fun (o : Except FError Uuid) q₃ h => ?_⟩)
      fun _ _ _ => nofun
    rintro m hm
    cases o with
    | error e => cases hm
    | ok v =>
      cases hm
      exact (Except.ok.inj h.2.2.1).symm
  refine follows_bind hnode (fun m q₂ hm => ?_) fun _ _ _ => trivial
  obtain rfl : m = n := hm m rfl
  apply follows_withLock trivial
  intro y q₃ _
  refine Prog.Follows.mono (Ψ := fun _ _ => True) ?_ fun _ _ _ => ⟨trivial, fun _ _ _ => trivial⟩
  apply follows_issue_bind trivial
  intro v q₄ _
  refine follows_unwrap_bind (fun f _ => ?_) fun _ => trivial
  refine follows_bind (Ψ := fun _ _ => True) ?_ (fun _ _ _ => trivial) fun _ _ _ => trivial
  exact follows_ask_bind ⟨rfl, rfl⟩ (fun _ _ _ => ⟨trivial, fun _ _ _ => trivial⟩)
    fun _ _ _ => trivial

theorem undefineFdu_owning {v : Uuid} (ha : a.nodeUuid = n) :
    (Agent.undefineFdu z a v).Follows (Owning z n u)
      (fun o q' => ∀ r, o = .ok r → v = u → q'.removed) q := by
  refine dispatch_owning ha (fun inst p q => ?_) fun _ _ => nofun
  have hplugin : (DummyHypervisor.call z a.nodeUuid p (.undefineFdu v)).Within Cmd.Bystander
      (Proc.ServedBy z n) :=
    within_remote (DummyHypervisor.within_undefineFdu (fun _ h => h.idle.tame.bystander)
      (fun _ => trivial) (fun _ => trivial) trivial fun _ _ => trivial) trivial fun _ => trivial
  refine follows_bind (owning_of_within hplugin) (fun _ q₁ _ => ?_) fun _ _ _ => nofun
  have hremove : (removeInstance v).Follows (Owning z n u)
      (fun o q' => ∀ r, o = .ok r → v = u → q'.removed) q₁ := by
    refine follows_ask_bind trivial (fun info q₂ h₂ => ?_) fun _ _ _ => nofun
    have hinfo : info.uuid = v := h₂.2.2.1
    refine follows_ask (fun hu => h₂.1.2 (Or.inr (hinfo.symm.trans hu)))
      fun (o : Except FError Unit) q₃ h₃ => ?_
    intro r hr hv
    cases o with
    | error e => cases hr
    | ok _ => exact h₃.2.1.2 (Or.inr (hinfo.trans hv))
  exact follows_bind hremove (fun _ q₂ h₂ => fun _ _ hv => h₂ () rfl hv) fun _ _ _ => nofun

theorem handle_owning {r : Request} (hr : r.OnFdu) (ha : a.nodeUuid = n) :
    (Agent.handle z a r).Follows (Owning z n u) ((Owning z n u).back q (.agent svc r)) q := by
  -- the calls that do not undefine
  have silent : ∀ {r : Request}, (∀ o, ¬ (Proc.agent svc r).Undefines u o) →
      (Agent.handle z a r).Follows (Owning z n u) (fun _ _ => True) q →
      (Agent.handle z a r).Follows (Owning z n u) ((Owning z n u).back q (.agent svc r)) q :=
    fun hno h => h.mono fun o _ _ hu => absurd hu (hno o)
  cases r with
  | onboardFdu fdu =>
    exact silent (fun _ => id) (owning_of_within (Agent.within_onboardFdu fdu trivial fun _ => trivial))
  | offloadFdu f =>
    exact silent (fun _ => id) (owning_of_within (Agent.within_offloadFdu
      (fun _ h => h.idle.tame.bystander) trivial))
  | defineFdu f =>
    refine silent (fun _ => id) (follows_ask_bind trivial (fun d q₁ _ => ?_) fun _ _ _ => trivial)
    apply follows_issue_bind trivial
    intro hv q₂ _
    refine follows_okOr_bind (fun p _ => ?_) fun _ => trivial
    subst ha
    exact follows_bind pluginDefine_owning
      (fun _ _ _ => follows_invoke trivial fun _ _ _ => trivial) fun _ _ _ => trivial
  | configureFdu v =>
    apply silent (fun _ => id)
    simp only [Agent.handle, Agent.configureFdu]
    exact moving_owning (r := .configureFdu v) rfl ha
  | startFdu v =>
    apply silent (fun _ => id)
    simp only [Agent.handle, Agent.startFdu]
    exact moving_owning (r := .startFdu v) rfl ha
  | stopFdu v =>
    apply silent (fun _ => id)
    simp only [Agent.handle, Agent.stopFdu]
    exact moving_owning (r := .stopFdu v) rfl ha
  | cleanFdu v =>
    apply silent (fun _ => id)
    simp only [Agent.handle, Agent.cleanFdu]
    exact moving_owning (r := .cleanFdu v) rfl ha
  | undefineFdu v =>
    apply (undefineFdu_owning ha).mono
    intro o q' h hu
    cases o with
    | error e => exact hu.elim
    | ok x => exact h x rfl hu
  | _ => exact hr.elim

theorem owning_sound : (Owning z n u).Sound (body z) := by
  intro q p hp
  cases p with
  | poll v awaited =>
    exact (owning_of_within (within_poll (fun _ h => h.tame.bystander) hp)).mono fun _ _ _ => False.elim
  | task t => exact hp.elim
  | agent svc r =>
    simp only [body, hp.2]
    exact handle_owning hp.1 rfl

end Follows

/-- All records are of node `n` and there; those of `u` have a uuid that was given out. -/
structure Homed (n u : Uuid) (s : Fos) : Prop where
  stored : ∀ i ∈ s.global.instances, i.node = n ∧ (i.uuid = u → u ∈ s.issued)
  copies : ∀ m, ∀ i ∈ (s.node m).instances, m = n ∧ i.node = n ∧ (i.uuid = u → u ∈ s.issued)
  pending : ∀ m, ∀ i ∈ (s.node m).changes, m = n ∧ i.node = n ∧ (i.uuid = u → u ∈ s.issued)

section Homed

variable (h : Homed n u s)

include h

theorem Homed.move {m : Uuid} {st : Store} (hm : s.toStore.monitor m = some st) :
    Homed n u { s with toStore := st } := by
  have hmoves := monitor_moves hm
  refine ⟨fun i hi => ?_, fun k i hi => h.copies k i (hmoves.copies k ▸ hi),
    fun k i hi => h.pending k i (hmoves.pending k i hi)⟩
  rcases hmoves.stored i hi with hi | hi
  · exact h.stored i hi
  · exact (h.pending m i hi).2

theorem Homed.answers (hx : exec c ch s = some (r, s')) : c.Homed n r := by
  cases c with
  | access a =>
    rcases exec_access hx with ⟨-, hr⟩ | ⟨e, -, rfl, -⟩
    · have hrun : (a.run s).1 = r := congrArg Prod.fst hr
      cases r with
      | error e => cases a <;> trivial
      | ok y =>
        cases a with
        | getInstance v => exact (h.stored y (single_select_key hrun).1).1
        | localGetInstance m v => exact (h.copies m y (single_select_key hrun).1).2.1
        | _ => trivial
    · cases a <;> trivial
  | _ => trivial

theorem Homed.told_issued (hx : exec c ch s = some (r, s'))
    (ht : (Subject.globalInstance u).Told c r) : u ∈ s'.issued := by
  cases c with
  | newUuid =>
    obtain ⟨-, rfl⟩ := exec_newUuid hx
    exact ht ▸ List.mem_cons_self
  | access a =>
    cases a with
    | getInstance v =>
      rcases exec_access hx with ⟨-, hr⟩ | ⟨e, -, rfl, -⟩
      · obtain ⟨hrun, rfl⟩ := Prod.mk.inj hr
        cases r with
        | error e => exact ht.elim
        | ok y =>
          obtain ⟨hmem, hkey⟩ := single_select_key hrun
          exact (h.stored y hmem).2 (hkey.trans ht)
      · exact ht.elim
    | _ => exact ht.elim
  | _ => exact ht.elim

theorem Homed.exec {q : Trace} {held : Prop} (hx : exec c ch s = some (r, s'))
    (hallow : (Owning z n u).allows q c) (hput : (Holding (.globalInstance u)).allows held c)
    (hheld : held → u ∈ s.issued) : Homed n u s' := by
  have hadds := exec_adds hx
  have hissued := exec_issued hx
  have later : ∀ {i : FDURecord}, (i.uuid = u → u ∈ s.issued) → i.uuid = u → u ∈ s'.issued :=
    fun hi hu => hissued (hi hu)
  refine ⟨fun i hi => ?_, fun m i hi => ?_, fun m i hi => ?_⟩
  · obtain ⟨hn, hu⟩ := h.stored i (hadds.stored i hi)
    exact ⟨hn, later hu⟩
  · rcases hadds.copies m i hi with hi | rfl
    · obtain ⟨hm, hn, hu⟩ := h.copies m i hi
      exact ⟨hm, hn, later hu⟩
    · exact ⟨hallow.1, hallow.2, later fun hu => hheld (hput hu)⟩
  · rcases hadds.pending m i hi with hi | rfl
    · obtain ⟨hm, hn, hu⟩ := h.pending m i hi
      exact ⟨hm, hn, later hu⟩
    · exact ⟨hallow.1, hallow.2, later fun hu => hheld (hput hu)⟩

end Homed

/-- The record of `u` under `f` in the global store, about to be deleted by the
`i`-th call, is the last one: there is no other in the global store and none on
its way there, and either the local store has none and no other call holds a copy
from it, or no other call has found `u` in the global store. -/
structure LastRecord (n u f : Uuid) (i : ℕ) (w : Calls) : Prop where
  stored : ∀ j ∈ w.state.global.instances, j.uuid = u → j.fduUuid = f
  pending : ∀ j ∈ (w.state.node n).changes, j.uuid ≠ u
  others : ((∀ j ∈ (w.state.node n).instances, j.uuid ≠ u) ∧
    OthersUnheld (.localInstance u) i w) ∨ OthersUnheld (.globalInstance u) i w

/-- The steps of calls served at node `n` and of the monitoring tasks. -/
def AtOwner (z : Session) (n : Uuid) : Label Proc Choice Uuid → Prop
  | .start p => p.ServedBy z n
  | .launch => False
  | _ => True

/-- Those in which the record of `u` is deleted from the global store only as the last one. -/
structure Orderly (z : Session) (n u : Uuid) (l : Label Proc Choice Uuid) (w : Calls) : Prop where
  served : AtOwner z n l
  last : ∀ i f, l = .fire i .go → w.upcoming i = some (.access (.deleteInstance f u)) →
    LastRecord n u f i w

/-- The invariant of all runs at the owner. `gone` holds once `u` has been deleted
from the global store. -/
structure Sheltered (z : Session) (n u : Uuid) (gone : Prop) (w : Calls) : Prop where
  home : Homed n u w.state
  owning : w.Follows (Owning z n u) (fun p o q => p.Undefines u o → q.removed)
    fun _ q s => (q.seen → u ∈ s.issued) ∧ (q.removed → gone)
  looked : w.Follows (Holding (.globalInstance u)) (fun _ _ _ => True) fun _ q s => q → u ∈ s.issued

/-- The invariant of orderly runs: then it is gone for good. -/
structure Settling (z : Session) (n u : Uuid) (gone : Prop) (w : Calls) : Prop
    extends Sheltered z n u gone w where
  copied : w.Follows (Holding (.localInstance u)) (fun _ _ _ => True) fun _ _ _ => True
  gone : gone → Gone (.localInstance u) w ∨ Gone (.globalInstance u) w

section Steps

variable {gone : Prop} {w w' : Calls} {l : Label Proc Choice Uuid}

/-- The record of `u` is deleted from the global store in this step. -/
def Deleting (u : Uuid) (l : Label Proc Choice Uuid) (w : Calls) : Prop :=
  ∃ i f, l = .fire i .go ∧ w.upcoming i = some (.access (.deleteInstance f u))

theorem AtOwner.starts {p : Proc} (hg : AtOwner z n l) (hl : l = .start p) : p.ServedBy z n := by
  subst hl; exact hg

theorem AtOwner.not_launch (hg : AtOwner z n l) : l ≠ .launch := by
  rintro rfl; exact hg

theorem removed_deleting {i : ℕ} (hc : w.upcoming i = some c) (hx : exec c ch w.state = some (r, s))
    (hrem : c.Removed u r) : Deleting u (.fire i ch) w := by
  cases c with
  | access a =>
    cases a with
    | deleteInstance f v =>
      rcases exec_access hx with ⟨rfl, -⟩ | ⟨e, -, rfl, -⟩
      · cases r with
        | ok y => obtain rfl : v = u := hrem; exact ⟨i, f, rfl, hc⟩
        | error e => exact hrem.elim
      · exact hrem.elim
    | _ => exact hrem.elim
  | _ => exact hrem.elim

theorem Sheltered.home_step (h : Sheltered z n u gone w) (hs : (machine z).Step l w w') :
    Homed n u w'.state := by
  cases hs with
  | @act _ i ch p c k r s hi hx =>
    obtain ⟨q, hq, -⟩ := h.owning.threads _ (List.mem_of_getElem? hi)
    obtain ⟨held, hheld, hissued⟩ := h.looked.threads _ (List.mem_of_getElem? hi)
    exact h.home.exec hx hq.1 hheld.1 hissued
  | env hm =>
    obtain ⟨st, hst, rfl⟩ := Option.map_eq_some_iff.1 hm
    exact h.home.move hst
  | launch hl =>
    obtain ⟨t, ts, -, -, rfl⟩ := launch_eq_some hl
    exact ⟨h.home.stored, h.home.copies, h.home.pending⟩
  | _ => exact h.home

/-- The deletion of the last record leaves none. -/
theorem Settling.gone_of_deleting (h : Settling z n u gone w) (hg : Orderly z n u l w)
    (hs : (machine z).Step l w w') (hdel : Deleting u l w) :
    Gone (.localInstance u) w' ∨ Gone (.globalInstance u) w' := by
  obtain ⟨i, f, rfl, hc⟩ := hdel
  have hlast : LastRecord n u f i w := hg.last i f rfl hc
  have hhome := h.home_step hs
  obtain ⟨p, k, r, s, hi, hx, hw'⟩ := hs.of_upcoming hc
  obtain ⟨q, hq, hseen, -⟩ := h.owning.threads _ (List.mem_of_getElem? hi)
  have hissued : u ∈ w'.state.issued := issued_step hs (hseen (hq.1 rfl))
  obtain ⟨hglobal, hnode⟩ : w'.state.global.instances = w.state.global.instances.erase (f, u) ∧
      w'.state.node = w.state.node := by
    subst hw'
    cases hx
    exact ⟨rfl, rfl⟩
  have hstored : ∀ j ∈ w'.state.global.instances, j.uuid ≠ u := by
    rintro j hj hu
    rw [hglobal] at hj
    obtain ⟨hj, hpath⟩ := Table.mem_erase.1 hj
    exact hpath (by rw [← hlast.stored j hj hu, ← hu]; rfl)
  have hpending : ∀ m, ∀ j ∈ (w'.state.node m).changes, j.uuid ≠ u := by
    intro m j hj
    obtain ⟨rfl, -⟩ := hhome.pending m j hj
    rw [hnode] at hj
    exact hlast.pending j hj
  rcases hlast.others with ⟨hlocal, hothers⟩ | hothers
  · refine Or.inl (gone_of_deletes hs h.copied hc trivial hothers ⟨hstored, hpending, ?_, hissued⟩)
    intro _ m j hj
    obtain ⟨rfl, -⟩ := hhome.copies m j hj
    rw [hnode] at hj
    exact hlocal j hj
  · refine Or.inr (gone_of_deletes hs (h.looked.imp fun _ _ _ => trivial) hc trivial hothers
      ⟨hstored, hpending, ?_, hissued⟩)
    exact fun hx => absurd rfl (hx u)

theorem Sheltered.step (h : Sheltered z n u gone w) (hg : AtOwner z n l) (hs : (machine z).Step l w w') :
    Sheltered z n u (gone ∨ Deleting u l w) w' := by
  have hissued := issued_step hs
  refine ⟨h.home_step hs, ?_, ?_⟩
  · refine hs.follows owning_sound (h.owning.imp fun _ _ hI => ⟨hI.1, fun hq => Or.inl (hI.2 hq)⟩)
      (fun p hp => ⟨⟨False, False⟩, owning_sound _ p (hg.starts hp), False.elim, False.elim⟩)
      (fun p s hl _ => absurd hl hg.not_launch) (fun i ch p q c r s hl hc hI _ hx => ?_)
      fun p q hI => ⟨fun hq => hissued (hI.1 hq), hI.2⟩
    subst hl
    refine ⟨⟨q.seen ∨ (Subject.globalInstance u).Told c r, q.removed ∨ c.Removed u r⟩,
      ⟨Iff.rfl, Iff.rfl, exec_honest hx, h.home.answers hx⟩, ?_, ?_⟩
    · exact fun hq => hq.elim (fun hq => exec_issued hx (hI.1 hq)) (h.home.told_issued hx)
    · exact fun hq => hq.elim hI.2 fun hrem => Or.inr (removed_deleting hc hx hrem)
  · refine hs.follows holding_sound h.looked
      (fun p hp => ⟨False, holding_sound _ p (hg.starts hp).onFdu, False.elim⟩)
      (fun p s hl _ => absurd hl hg.not_launch) (fun i ch p q c r s hl hc hI _ hx => ?_)
      fun p q hI hq => hissued (hI hq)
    refine ⟨_, ⟨Iff.rfl, exec_honest hx⟩, fun hq => hq.elim (fun hq => ?_) (h.home.told_issued hx)⟩
    exact exec_issued hx (hI hq.1)

theorem Settling.step (h : Settling z n u gone w) (hg : Orderly z n u l w)
    (hs : (machine z).Step l w w') : Settling z n u (gone ∨ Deleting u l w) w' := by
  have hcalls : ∀ p, l = .start p → p.OnFdu := fun p hp => (hg.served.starts hp).onFdu
  refine ⟨h.toSheltered.step hg.served hs, holding_step hs h.copied hcalls hg.served.not_launch, ?_⟩
  rintro (hgone | hdel)
  · have hissued := issued_step hs
    refine (h.gone hgone).imp (fun hw => ?_) fun hw => ?_
    · exact hw.step hs hcalls hg.served.not_launch (hissued hw.absent.spent)
    · exact hw.step hs hcalls hg.served.not_launch (hissued hw.absent.spent)
  · exact h.gone_of_deleting hg hs hdel

end Steps

section Runs

variable {s₀ : Fos} {w : Calls} {gone : Prop}

theorem sheltered_idle (h : Homed n u s₀) : Sheltered z n u gone (Pool.idle s₀) :=
  ⟨h, Pool.follows_idle s₀, Pool.follows_idle s₀⟩

/-- Only the node of the agent has instances, in every run. -/
theorem homed_of_reach (h₀ : Homed n u s₀)
    (hreach : (machine z).Reach (fun l _ => AtOwner z n l) (Pool.idle s₀) w) : Homed n u w.state := by
  have hinv : Sheltered z n u True w := by
    apply hreach.inv (Sheltered z n u True) (sheltered_idle h₀)
    intro l w w' h hg hs
    simpa using h.step hg hs
  exact hinv.home

/-- In every orderly run, an instance whose `undefine_fdu` has returned Ok is not
in the global store, and never will be. -/
theorem no_resurrection {svc : Uuid} {i : FDURecord}
    (hhome : Homed n u s₀) (hreach : (machine z).Reach (Orderly z n u) (Pool.idle s₀) w)
    (hdone : ⟨.agent svc (.undefineFdu u), .ok i⟩ ∈ w.done) :
    ∀ j ∈ w.state.global.instances, j.uuid ≠ u := by
  have hinv : ∃ gone, Settling z n u gone w := by
    refine hreach.inv (fun w => ∃ gone, Settling z n u gone w) ⟨False, sheltered_idle hhome,
      Pool.follows_idle s₀, False.elim⟩ ?_
    rintro l w w' ⟨gone, h⟩ hg hs
    exact ⟨_, h.step hg hs⟩
  obtain ⟨gone, h⟩ := hinv
  obtain ⟨q, hq, -, hremoved⟩ := h.owning.done _ hdone
  rcases h.gone (hremoved (hq rfl)) with hgone | hgone
  · exact hgone.absent.stored
  · exact hgone.absent.stored

end Runs

theorem boot_homed (sites : List Site) (fdus : List FDUDescriptor) (entities : List EntityDescriptor) :
    Homed n u (boot sites fdus entities) :=
  ⟨fun i h => absurd h (Table.not_mem_empty i), fun _ i h => absurd h (Table.not_mem_empty i),
    fun _ _ h => absurd h List.not_mem_nil⟩

/-- A check that lets only calls on FDUs and instances at the agent of node `n` start. -/
def atOwner (z : Session) (n : Uuid) : Label Proc Choice Uuid → Bool
  | .start (.agent svc (.defineFdu _)) | .start (.agent svc (.configureFdu _))
  | .start (.agent svc (.startFdu _)) | .start (.agent svc (.stopFdu _))
  | .start (.agent svc (.cleanFdu _)) | .start (.agent svc (.undefineFdu _))
  | .start (.agent svc (.onboardFdu _)) | .start (.agent svc (.offloadFdu _)) =>
      z.server svc = some n
  | .start _ | .launch => false
  | _ => true

theorem atOwner_sound {l : Label Proc Choice Uuid} (h : atOwner z n l = true) : AtOwner z n l := by
  cases l with
  | start p =>
    cases p with
    | agent svc q => cases q <;> first | exact ⟨trivial, of_decide_eq_true h⟩ | cases h
    | _ => cases h
  | launch => cases h
  | _ => trivial

/-- And one that lets a single call only delete the record of `u`, as the last one. -/
def orderly (z : Session) (n u : Uuid) (l : Label Proc Choice Uuid) (w : Calls) : Bool :=
  atOwner z n l && match l with
    | .fire i _ =>
      match w.upcoming i with
      | some (.access (.deleteInstance f v)) => v ≠ u ∨ w.threads.length ≤ 1 ∧ i = 0 ∧
          (∀ j ∈ w.state.global.instances.rows, j.uuid = u → j.fduUuid = f) ∧
          (∀ j ∈ (w.state.node n).changes, j.uuid ≠ u) ∧
          ∀ j ∈ (w.state.node n).instances.rows, j.uuid ≠ u
      | _ => true
    | _ => true

theorem orderly_sound {l : Label Proc Choice Uuid} {w : Calls} (h : orderly z n u l w = true) :
    Orderly z n u l w := by
  obtain ⟨howner, h⟩ := Bool.and_eq_true_iff.1 h
  refine ⟨atOwner_sound howner, ?_⟩
  rintro i f rfl hc
  simp only [hc] at h
  obtain ⟨hlen, rfl, hstored, hpending, hcopies⟩ := (of_decide_eq_true h).resolve_left (by simp)
  refine ⟨hstored, hpending, Or.inl ⟨hcopies, fun j t hj ht => ?_⟩⟩
  have := (List.getElem?_eq_some_iff.1 ht).1
  omega

def undefined (u : Uuid) : ((p : Proc) × Except Exn p.Ret) → Bool
  | ⟨.agent _ (.undefineFdu v), .ok _⟩ => v = u
  | _ => false

theorem undefined_eq_true {w : Calls} (h : w.done.any (undefined u) = true) :
    ∃ svc i, ⟨.agent svc (.undefineFdu u), .ok i⟩ ∈ w.done := by
  obtain ⟨x, hx, hu⟩ := List.any_eq_true.1 h
  unfold undefined at hu
  split at hu
  · obtain rfl := of_decide_eq_true hu
    exact ⟨_, _, hx⟩
  · cases hu

/-- An instance is defined and, once it is in the global store, undefined. -/
def defineUndefine : List (Turn Proc Uuid) :=
  [.start (.agent 100 (.defineFdu 50))] ++ fires 0 12 ++ [.env 0] ++ fires 0 2 ++
    [.start (.agent 100 (.undefineFdu 0))] ++ fires 0 16

theorem no_resurrection_defined : ∃ w, (machine (Site.session oneSite)).Reach
    (Orderly (Site.session oneSite) 0 0) (Pool.idle (boot oneSite [.plain 50] [])) w ∧
    ∀ j ∈ w.state.global.instances, j.uuid ≠ 0 := by
  have hrun : ((machine (Site.session oneSite)).script resolve (orderly (Site.session oneSite) 0 0)
      defineUndefine (Pool.idle (boot oneSite [.plain 50] []))).any
      (fun w => w.done.any (undefined 0)) = true := by decide +kernel
  obtain ⟨w, hplay, hdone⟩ := Machine.exists_script hrun
  have hreach := Machine.reach_of_script (fun _ _ h => orderly_sound h) hplay
  obtain ⟨svc, i, hi⟩ := undefined_eq_true hdone
  exact ⟨w, hreach, no_resurrection (boot_homed _ _ _) hreach hi⟩

/-- A `clean_fdu` whose change is still on its way when `undefine_fdu` deletes the
record, and the round of the monitoring task that brings the record back. -/
def cleanUndefine : List (Turn Proc Uuid) :=
  [.start (.agent 100 (.defineFdu 50))] ++ fires 0 12 ++ [.env 0] ++ fires 0 2 ++
    [.start (.agent 100 (.configureFdu 0))] ++ fires 0 17 ++ [.env 0] ++ fires 0 2 ++
    [.start (.agent 100 (.cleanFdu 0))] ++ fires 0 14 ++
    [.start (.agent 100 (.undefineFdu 0))] ++ fires 1 16 ++ [.env 0]

theorem undefined_comes_back : ∃ w svc i, (machine (Site.session oneSite)).Reach
    (fun l _ => AtOwner (Site.session oneSite) 0 l) (Pool.idle (boot oneSite [.plain 50] [])) w ∧
    ⟨.agent svc (.undefineFdu 0), .ok i⟩ ∈ w.done ∧ ∃ j ∈ w.state.global.instances, j.uuid = 0 := by
  have hrun : ((machine (Site.session oneSite)).script resolve
      (fun l _ => atOwner (Site.session oneSite) 0 l) cleanUndefine
      (Pool.idle (boot oneSite [.plain 50] []))).any (fun w => w.done.any (undefined 0) &&
        w.state.global.instances.rows.any fun j => j.uuid = 0) = true := by decide +kernel
  obtain ⟨w, hplay, hend⟩ := Machine.exists_script hrun
  obtain ⟨hdone, hback⟩ := Bool.and_eq_true_iff.1 hend
  obtain ⟨svc, i, hi⟩ := undefined_eq_true hdone
  obtain ⟨j, hj, hu⟩ := List.any_eq_true.1 hback
  exact ⟨w, svc, i, Machine.reach_of_script (fun _ _ h => atOwner_sound h) hplay, hi, j, hj,
    of_decide_eq_true hu⟩

end Fog05
