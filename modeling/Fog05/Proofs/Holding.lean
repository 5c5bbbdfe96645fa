import Fog05.Proofs.Footprint

/-! Where a call has the record from that it puts: nothing about an FDU or an
instance is put by a call that has not come to know of it. -/

namespace Fog05

open Conc M

/-- The calls that deal with FDUs and their instances one at a time. -/
def Request.OnFdu : Request → Prop
  | .onboardFdu _ | .offloadFdu _ | .defineFdu _ | .configureFdu _ | .startFdu _ | .stopFdu _
  | .cleanFdu _ | .undefineFdu _ => True
  | _ => False

def Proc.OnFdu : Proc → Prop
  | .poll _ _ => True
  | .agent _ q => q.OnFdu
  | .task _ => False

/-- Some records, and where a call may have them from: those of an FDU, by its
descriptor or from a local store; those of an instance, by its new uuid, from a
local store or, `globalInstance`, by looking it up in the global store. -/
inductive Subject
  | fdu (f : Uuid)
  | localInstance (u : Uuid)
  | globalInstance (u : Uuid)

namespace Subject

def Has : Subject → Uuid × Uuid → Prop
  | fdu f, path => path.1 = f
  | localInstance u, path | globalInstance u, path => path.2 = u

/-- The answer tells of such a record. -/
def Told : Subject → (c : Cmd) → c.Ans → Prop
  | fdu f, .access (.getFdu g), .ok _ => g = f
  | fdu f, .access (.localGetInstance _ _), .ok r => r.fduUuid = f
  | localInstance u, .access (.localGetInstance _ v), .ok _ => v = u
  | globalInstance u, .access (.getInstance v), .ok _ => v = u
  | localInstance u, .newUuid, v | globalInstance u, .newUuid, v => v = u
  | _, _, _ => False

end Subject

def Cmd.Deletes : Cmd → Prop
  | .access (.deleteFdu _) | .access (.deleteInstance _ _) => True
  | _ => False

/-- To put such records only while holding one, and to let go of it at a deletion. -/
def Holding (x : Subject) : Discipline Cmd.Ans Proc.Ret Exn Prop where
  allows q
    | .access (.localPutInstance _ r) => x.Has r.path → q
    | _ => True
  next q c r q' := (q' ↔ q ∧ ¬ c.Deletes ∨ x.Told c r) ∧ c.Honest r
  calls _ p := p.OnFdu
  back _ _ _ _ := True

/-- The rest of a program puts no such record unless it learns of one. -/
def Unheld {α : Type} (x : Subject) (p : M α) : Prop :=
  p.Follows (Holding x) (fun _ _ => True) False

/-- No instance is put in a local store. -/
def Cmd.Putless : Cmd → Prop
  | .access (.localPutInstance _ _) => False
  | _ => True

theorem Cmd.Drops.putless {c : Cmd} (h : c.Drops) : c.Putless := by
  unfold Cmd.Putless
  split
  · exact h
  · trivial

section Follows

variable {α : Type} {x : Subject} {z : Session} {a : Agent} {n p u f svc : Uuid} {q : Prop}

theorem holding_of_putless {c : Cmd} (hc : c.Putless) : (Holding x).allows q c := by
  unfold Holding
  dsimp only
  split
  · exact hc.elim
  · trivial

theorem holding_of_within {b : M α} (h : b.Within Cmd.Putless Proc.OnFdu) :
    b.Follows (Holding x) (fun _ _ => True) q :=
  h.allowed (fun _ _ => holding_of_putless) fun _ _ => id

theorem holding_keeps {c : Cmd} {r : c.Ans} {q' : Prop} (hc : ¬ c.Deletes)
    (hn : (Holding x).next q c r q') (hq : q) : q' :=
  hn.1.2 (Or.inl ⟨hq, hc⟩)

theorem Cmd.Tame.not_deletes {c : Cmd} (h : c.Tame) : ¬ c.Deletes := by
  intro hd
  unfold Cmd.Deletes at hd
  split at hd
  · exact h
  · exact h
  · exact hd

/-- What a call must hold before it reads instance `u`. -/
def Subject.Ready (x : Subject) (u : Uuid) (q : Prop) : Prop := x = .globalInstance u → q

theorem move_holding {r : PluginRequest} (hr : r.Moves u) {awaited : FDUState}
    (hq : x.Ready u q) :
    (Agent.move z a r awaited u p).Follows (Holding x) (fun _ _ => True) q := by
  have hcall : (DummyHypervisor.call z a.nodeUuid p r).Follows (Holding x) (fun _ _ => True) q := by
    refine DummyHypervisor.follows_call (J := x.Ready u) (L := fun inst q => x.Has inst.path → q) hr
      (fun q c hq hc => ⟨holding_of_putless hc.drops.putless, fun y q' hn h =>
        holding_keeps hc.not_deletes hn (hq h)⟩)
      (fun q inst q' hq hn hhas => ?_) (fun inst q c hL hc => ?_) (fun _ _ _ => trivial) hq
    · have hu : inst.uuid = u := hn.2
      cases x with
      | fdu f => exact hn.1.2 (Or.inr hhas)
      | localInstance v => exact hn.1.2 (Or.inr (hu ▸ hhas))
      | globalInstance v => exact holding_keeps id hn (hq (congrArg _ (hhas.symm.trans hu)))
    · rcases hc with hc | ⟨r, rfl, hpath, -⟩
      · exact ⟨holding_of_putless hc.drops.putless, fun y q' hn h =>
          holding_keeps hc.not_deletes hn (hL h)⟩
      · exact ⟨fun h => hL (hpath ▸ h), fun y q' hn h => holding_keeps id hn (hL h)⟩
  exact follows_bind hcall (fun _ _ _ => follows_invoke trivial fun _ _ _ => trivial)
    fun _ _ _ => trivial

theorem dispatch_holding {work : FDURecord → Uuid → M FDURecord} {forward : Uuid → M FDURecord}
    (hwork : ∀ inst p q, x.Ready u q →
      (work inst p).Follows (Holding x) (fun _ _ => True) q)
    (hforward : ∀ svc, (forward svc).Within Cmd.Putless Proc.OnFdu) :
    (Agent.dispatch a u work forward).Follows (Holding x) (fun _ _ => True) q := by
  refine follows_ask_bind trivial (fun inst q₁ h₁ => ?_) fun _ _ _ => trivial
  have hready : x.Ready u q₁ := fun hx => h₁.1.2 (Or.inr (by subst hx; rfl))
  split
  · refine follows_ask_bind trivial (fun d q₂ h₂ => ?_) fun _ _ _ => trivial
    apply follows_issue_bind trivial
    intro hv q₃ h₃
    refine follows_okOr_bind (fun p _ => hwork inst p q₃ fun hx => ?_) fun _ => trivial
    exact holding_keeps id h₃ (holding_keeps id h₂ (hready hx))
  · exact follows_ask_bind trivial (fun _ _ _ => holding_of_within (hforward _)) fun _ _ _ => trivial

theorem moving_holding {r : PluginRequest} (hr : r.Moves u) {awaited : FDUState}
    {forward : Uuid → M FDURecord} (hforward : ∀ svc, (forward svc).Within Cmd.Putless Proc.OnFdu) :
    (Agent.dispatch a u (fun _ => Agent.move z a r awaited u) forward).Follows (Holding x)
      (fun _ _ => True) q :=
  dispatch_holding (fun _ _ _ hq => move_holding hr hq) hforward

theorem pluginDefine_holding {d : FDUDescriptor}
    (hd : ∀ f, x = .fdu f → d.uuid = some f → q) :
    (DummyHypervisor.call z n p (.defineFdu d)).Follows (Holding x) (fun _ _ => True) q := by
  have hkeep : ∀ {q : Prop} {c : Cmd}, (∀ f, x = .fdu f → d.uuid = some f → q) → c.Tame →
      (Holding x).allows q c ∧ ∀ y q', (Holding x).next q c y q' →
        ∀ f, x = .fdu f → d.uuid = some f → q' := fun hd hc =>
    ⟨holding_of_putless hc.drops.putless, fun y q' hn f hx hf =>
      holding_keeps hc.not_deletes hn (hd f hx hf)⟩
  have hnode : (DummyHypervisor.getNodeUuid z n).Within Cmd.Tame fun _ => False :=
    DummyHypervisor.within_getNodeUuid fun _ hc => hc.idle.tame
  refine follows_remote trivial (fun y q₁ h₁ => ?_) fun _ _ _ => trivial
  refine Prog.Follows.mono (Ψ := fun _ _ => True) ?_ fun _ _ _ => ⟨trivial, fun _ _ _ => trivial⟩
  have hd₁ := (hkeep hd (c := .access (.request (.plugin p (.defineFdu d)))) trivial).2 _ _ h₁
  refine follows_bind (hnode.follows (J := fun q => ∀ f, x = .fdu f → d.uuid = some f → q)
    (fun q c hq hc => hkeep hq hc) (fun _ _ _ => False.elim) hd₁) (fun m q₂ hd₂ => ?_)
    fun _ _ _ => trivial
  apply follows_withLock trivial
  intro y q₃ h₃
  refine Prog.Follows.mono (Ψ := fun _ _ => True) ?_ fun _ _ _ => ⟨trivial, fun _ _ _ => trivial⟩
  have hd₃ := (hkeep hd₂ (c := .lock p) trivial).2 _ _ h₃
  apply follows_issue_bind trivial
  intro v q₄ h₄
  refine follows_unwrap_bind (fun f hf => ?_) fun _ => trivial
  have hput : x.Has (f, v) → q₄ := by
    intro hhas
    cases x with
    | fdu g => exact holding_keeps id h₄ (hd₃ g rfl (hhas ▸ hf))
    | localInstance w => exact h₄.1.2 (Or.inr hhas)
    | globalInstance w => exact h₄.1.2 (Or.inr hhas)
  refine follows_bind (Ψ := fun _ _ => True) ?_ (fun _ _ _ => trivial) fun _ _ _ => trivial
  exact follows_ask_bind hput (fun _ _ _ => ⟨trivial, fun _ _ _ => trivial⟩) fun _ _ _ => trivial

theorem handle_holding {r : Request} (hr : r.OnFdu) :
    (Agent.handle z a r).Follows (Holding x) (fun _ _ => True) q := by
  have hrpc : ∀ svc (r : Request), r.OnFdu → (rpc z svc r).Within Cmd.Putless Proc.OnFdu :=
    fun _ _ hr => within_remote (within_invoke hr) trivial fun _ => trivial
  have hdrops : ∀ c : Cmd, c.Drops → c.Putless := fun _ h => h.putless
  cases r with
  | onboardFdu fdu => exact holding_of_within (Agent.within_onboardFdu fdu trivial fun _ => trivial)
  | offloadFdu f => exact holding_of_within (Agent.within_offloadFdu
      (fun _ h => hdrops _ h.idle.tame.drops) trivial)
  | defineFdu f =>
    refine follows_ask_bind trivial (fun d q₁ h₁ => ?_) fun _ _ _ => trivial
    apply follows_issue_bind trivial
    intro hv q₂ h₂
    refine follows_okOr_bind (fun p _ => ?_) fun _ => trivial
    have hd : ∀ g, x = .fdu g → d.uuid = some g → q₂ := fun g hx hg => by
      subst hx
      exact holding_keeps id h₂ (h₁.1.2 (Or.inr (Option.some.inj (h₁.2.symm.trans hg))))
    exact follows_bind (pluginDefine_holding hd) (fun _ _ _ => follows_invoke trivial fun _ _ _ => trivial)
      fun _ _ _ => trivial
  | configureFdu u => exact moving_holding (r := .configureFdu u) rfl fun svc => hrpc svc (.configureFdu u) trivial
  | startFdu u => exact moving_holding (r := .startFdu u) rfl fun svc => hrpc svc (.startFdu u) trivial
  | stopFdu u => exact moving_holding (r := .stopFdu u) rfl fun svc => hrpc svc (.stopFdu u) trivial
  | cleanFdu u => exact moving_holding (r := .cleanFdu u) rfl fun svc => hrpc svc (.cleanFdu u) trivial
  | undefineFdu u => exact holding_of_within (Agent.within_undefineFdu hdrops fun _ => trivial)
  | _ => exact hr.elim

theorem holding_sound : (Holding x).Sound (body z) := by
  intro q p hp
  cases p with
  | poll u awaited => exact holding_of_within (Prog.within_retry trivial hp)
  | task t => exact hp.elim
  | agent svc r =>
    simp only [body]
    split
    · exact handle_holding hp
    · trivial

end Follows

section Gone

variable {z : Session} {s s' : Fos} {x : Subject} {c : Cmd} {ch : Choice} {r : c.Ans}

/-- No call can learn of such a record by what creates one. -/
def Subject.Spent : Subject → Fos → Prop
  | fdu f, s => ∀ d ∈ s.global.fdus, d.uuid ≠ some f
  | localInstance u, s | globalInstance u, s => u ∈ s.issued

/-- There is no such record where a call could have it from, or a monitoring task. -/
structure Subject.Absent (x : Subject) (s : Fos) : Prop where
  stored : ∀ r ∈ s.global.instances, ¬ x.Has r.path
  pending : ∀ n, ∀ r ∈ (s.node n).changes, ¬ x.Has r.path
  copies : (∀ u, x ≠ .globalInstance u) → ∀ n, ∀ r ∈ (s.node n).instances, ¬ x.Has r.path
  spent : x.Spent s

variable (h : x.Absent s)

include h

theorem Subject.Absent.move {n : Uuid} {st : Store} (hm : s.toStore.monitor n = some st) :
    x.Absent { s with toStore := st } := by
  have hmoves := monitor_moves hm
  refine ⟨fun i hi => ?_, fun m i hi => h.pending m i (hmoves.pending m i hi),
    fun hx m i hi => h.copies hx m i (hmoves.copies m ▸ hi), ?_⟩
  · rcases hmoves.stored i hi with hi | hi
    · exact h.stored i hi
    · exact h.pending n i hi
  · cases x with
    | fdu f => exact fun d hd => h.spent d (hmoves.fdus ▸ hd)
    | _ => exact h.spent

theorem Subject.Absent.not_told (hx : exec c ch s = some (r, s')) : ¬ x.Told c r := by
  intro ht
  cases c with
  | newUuid =>
    have hnew := (exec_newUuid hx).1
    cases x with
    | fdu f => exact ht
    | _ => exact hnew (ht ▸ h.spent)
  | access a =>
    rcases exec_access hx with ⟨-, hr⟩ | ⟨e, -, rfl, -⟩
    · have hrun : (a.run s).1 = r := congrArg Prod.fst hr
      cases r with
      | error e => cases a <;> cases x <;> exact ht
      | ok y =>
        cases a with
        | getFdu f =>
          obtain ⟨hmem, hkey⟩ := single_select_key hrun
          cases x with
          | fdu g => exact h.spent y hmem (ht ▸ hkey)
          | _ => exact ht
        | getInstance v =>
          obtain ⟨hmem, hkey⟩ := single_select_key hrun
          cases x with
          | globalInstance u => exact h.stored y hmem (hkey.trans ht)
          | _ => exact ht
        | localGetInstance n v =>
          obtain ⟨hmem, hkey⟩ := single_select_key hrun
          cases x with
          | fdu f => exact h.copies (by simp) n y hmem ht
          | localInstance u => exact h.copies (by simp) n y hmem (hkey.trans ht)
          | globalInstance u => exact ht
        | _ => cases x <;> exact ht
    · cases a <;> cases x <;> exact ht
  | _ => cases x <;> exact ht

theorem Subject.Absent.exec (hx : exec c ch s = some (r, s')) (hallow : (Holding x).allows False c)
    (hspent : x.Spent s') : x.Absent s' := by
  have hadds := exec_adds hx
  refine ⟨fun i hi => h.stored i (hadds.stored i hi), fun n i hi => ?_, fun hx n i hi => ?_, hspent⟩
  · rcases hadds.pending n i hi with hi | rfl
    · exact h.pending n i hi
    · exact hallow
  · rcases hadds.copies n i hi with hi | rfl
    · exact h.copies hx n i hi
    · exact hallow

omit h in
theorem holding_step {w w' : Calls} {l : Label Proc Choice Uuid} (hs : (machine z).Step l w w')
    (hw : w.Follows (Holding x) (fun _ _ _ => True) fun _ _ _ => True)
    (hstart : ∀ p, l = .start p → p.OnFdu) (hlaunch : l ≠ .launch) :
    w'.Follows (Holding x) (fun _ _ _ => True) fun _ _ _ => True := by
  refine hs.follows holding_sound hw (fun p hp => ⟨False, holding_sound _ p (hstart p hp), trivial⟩)
    (fun p s hl _ => absurd hl hlaunch) (fun i ch p q c r s _ _ _ _ hx => ?_) fun _ _ h => h
  exact ⟨_, ⟨Iff.rfl, exec_honest hx⟩, trivial⟩

/-- Such a record is nowhere, and no call holds one. -/
structure Gone (x : Subject) (w : Calls) : Prop where
  absent : x.Absent w.state
  unheld : ∀ t ∈ w.threads, Unheld x t.prog

omit h in
/-- What is gone stays gone, unless a descriptor is put back. -/
theorem Gone.step {w w' : Calls} {l : Label Proc Choice Uuid} (hw : Gone x w)
    (hs : (machine z).Step l w w') (hstart : ∀ p, l = .start p → p.OnFdu) (hlaunch : l ≠ .launch)
    (hspent : x.Spent w'.state) : Gone x w' := by
  cases hs with
  | start =>
    refine ⟨hw.absent, fun t ht => ?_⟩
    rcases List.mem_append.1 ht with ht | ht
    · exact hw.unheld t ht
    · obtain rfl := List.mem_singleton.1 ht
      exact holding_sound _ _ (hstart _ rfl)
  | launch => exact absurd rfl hlaunch
  | env hm =>
    obtain ⟨st, hst, rfl⟩ := Option.map_eq_some_iff.1 hm
    exact ⟨hw.absent.move hst, hw.unheld⟩
  | @act _ i ch p c k r s hi hx =>
    have hprog : Unheld x (.act c k) := hw.unheld _ (List.mem_of_getElem? hi)
    refine ⟨hw.absent.exec hx hprog.1 hspent, fun t ht => ?_⟩
    rcases List.mem_or_eq_of_mem_set ht with ht | rfl
    · exact hw.unheld t ht
    · refine hprog.2 r False ⟨?_, exec_honest hx⟩
      simpa using hw.absent.not_told hx
  | call hi =>
    refine ⟨hw.absent, fun t ht => ?_⟩
    rcases List.mem_or_eq_of_mem_set ht with ht | rfl
    · exact hw.unheld t ht
    · exact (hw.unheld _ (List.mem_of_getElem? hi)).enter holding_sound
  | done hi => exact ⟨hw.absent, fun t ht => hw.unheld t (List.mem_of_mem_eraseIdx ht)⟩

def OthersUnheld (x : Subject) (i : ℕ) (w : Calls) : Prop :=
  ∀ j t, j ≠ i → w.threads[j]? = some t → Unheld x t.prog

omit h in
theorem gone_of_deletes {w w' : Calls} {i : ℕ} (hs : (machine z).Step (.fire i ch) w w')
    (hw : w.Follows (Holding x) (fun _ _ _ => True) fun _ _ _ => True) (hc : w.upcoming i = some c)
    (hdel : c.Deletes) (hothers : OthersUnheld x i w) (habs : x.Absent w'.state) : Gone x w' := by
  obtain ⟨p, k, r, s, hi, hx, rfl⟩ := hs.of_upcoming hc
  refine ⟨habs, fun t ht => ?_⟩
  rcases Machine.eq_or_of_mem_set ht with rfl | ⟨j, hij, hj⟩
  · obtain ⟨q, hq, -⟩ := hw.threads _ (List.mem_of_getElem? hi)
    refine hq.2 r False ⟨?_, exec_honest hx⟩
    have htold : ¬ x.Told c r := by
      cases c with
      | access a => cases a <;> first | exact hdel.elim | (cases x <;> exact id)
      | _ => exact hdel.elim
    simp [hdel, htold]
  · exact hothers j t hij hj

omit h in
theorem issued_step {w w' : Calls} {l : Label Proc Choice Uuid} (hs : (machine z).Step l w w') :
    w.state.issued ⊆ w'.state.issued := by
  cases hs with
  | act _ hx => exact exec_issued hx
  | env hm =>
    obtain ⟨st, -, rfl⟩ := Option.map_eq_some_iff.1 hm
    exact List.Subset.refl _
  | launch hl =>
    obtain ⟨t, ts, -, -, rfl⟩ := launch_eq_some hl
    exact List.Subset.refl _
  | _ => exact List.Subset.refl _

end Gone

end Fog05
