import Fog05.Proofs.Follows

/-! Which commands a call can issue at all, whatever the answers: three kinds, each
within the next, and for every call on an FDU the kind it keeps to. -/

namespace Fog05

open Conc M

/-- The calls that create an FDU instance on behalf of an entity. -/
def Rpc.Schedules : Rpc → Prop
  | .agent _ (.scheduleFdu _) => True
  | _ => False

namespace Cmd

/-- Nothing is changed, and nothing is told about an FDU that has been scheduled. -/
def Idle : Cmd → Prop
  | .access (.reply q _) => ¬ q.Schedules
  | .access (.request _) | .access (.getFdu _) | .access (.getEntity _) | .access (.getInstance _)
  | .access (.getAllFduInstances _) | .access (.getEntityInstance _)
  | .access (.getAllEntityInstances _) | .access (.getNodeInfo _) | .access .getAllNodes
  | .access (.getNodeStatus _) | .access (.localGetInstance _ _) | .net _ _ | .hypervisor _ _
  | .choose _ | .pathExists _ => True
  | _ => False

/-- Nothing is changed, no plugin is called, and no record is replied. -/
def Plain : Cmd → Prop
  | .access (.request (.plugin _ _)) => False
  | .access (.reply (.agentPlugin _ _) _) => True
  | .access (.reply (.agent _ (.checkFduCompatibility _)) _) => True
  | .access (.reply _ _) => False
  | c => c.Idle

/-- No store is changed, and nothing is told about an FDU that has been scheduled. -/
def Tame : Cmd → Prop
  | .lock _ | .unlock _ | .insert _ _ | .remove _ _ => True
  | c => c.Idle

/-- No store is changed, but that records like `inst` are put on node `n`. -/
def Rewrites (n : Uuid) (inst : FDURecord) (c : Cmd) : Prop :=
  c.Tame ∨ ∃ r, c = .access (.localPutInstance n r) ∧ r.path = inst.path ∧ r.node = inst.node

/-- Nothing is changed, but that records like `inst` are put on node `n` and kept by
plugin `p`. -/
def Restores (n p : Uuid) (inst : FDURecord) (c : Cmd) : Prop :=
  c.Plain ∨ ∃ r, (c = .access (.localPutInstance n r) ∨ c = .insert p r) ∧
    r.path = inst.path ∧ r.node = inst.node

/-- No store is changed, but that FDUs and their instances are deleted. -/
def Drops : Cmd → Prop
  | .access (.deleteFdu _) | .access (.deleteInstance _ _)
  | .access (.localDeleteInstance _ _ _) => True
  | c => c.Tame

/-- No instance and no descriptor is deleted, and no entity record is written. -/
def Keeps : Cmd → Prop
  | .access (.reply q _) => ¬ q.Schedules
  | .access (.deleteFdu _) | .access (.deleteInstance _ _) | .access (.localDeleteInstance _ _ _)
  | .access (.putEntity _) | .access (.deleteEntity _) | .access (.putEntityInstance _)
  | .spawn _ => False
  | _ => True

/-- No entity record is written, and no task is spawned. -/
def Quiet : Cmd → Prop
  | .access (.putEntityInstance _) | .spawn _ => False
  | _ => True

theorem Plain.idle {c : Cmd} (h : c.Plain) : c.Idle := by
  unfold Plain at h
  split at h <;> first | exact h | exact h.elim | exact id

theorem Idle.tame {c : Cmd} (h : c.Idle) : c.Tame := by
  unfold Tame
  split <;> first | exact h | trivial

theorem Restores.rewrites {n p : Uuid} {inst : FDURecord} {c : Cmd} (h : c.Restores n p inst) :
    c.Rewrites n inst := by
  rcases h with h | ⟨r, rfl | rfl, hr⟩
  · exact Or.inl h.idle.tame
  · exact Or.inr ⟨r, rfl, hr⟩
  · exact Or.inl trivial

theorem Tame.drops {c : Cmd} (h : c.Tame) : c.Drops := by
  unfold Drops
  split <;> first | exact h | trivial

theorem Idle.keeps {c : Cmd} (h : c.Idle) : c.Keeps := by
  unfold Idle at h
  split at h <;> first | exact h | exact h.elim

theorem Tame.keeps {c : Cmd} (h : c.Tame) : c.Keeps := by
  unfold Tame at h
  split at h <;> first | exact h.keeps | trivial

theorem Rewrites.keeps {n : Uuid} {inst : FDURecord} {c : Cmd} (h : c.Rewrites n inst) :
    c.Keeps := by
  rcases h with h | ⟨r, rfl, -, -⟩
  · exact h.keeps
  · trivial

theorem Drops.quiet {c : Cmd} (h : c.Drops) : c.Quiet := by
  unfold Quiet
  split <;> first | exact h | trivial

theorem Keeps.quiet {c : Cmd} (h : c.Keeps) : c.Quiet := by
  unfold Quiet
  split <;> first | exact h | trivial

end Cmd

section Rules

variable {α β : Type} {C : Cmd → Prop} {K : Proc → Prop} {z : Session}

theorem within_bind {p : M α} {f : α → M β} (hp : p.Within C K) (hf : ∀ x, (f x).Within C K) :
    (p >>= f).Within C K := hp.bind hf

theorem within_attempt {p : M α} {f : Except Exn α → M β} (hp : p.Within C K)
    (hf : ∀ o, (f o).Within C K) : (p.attempt >>= f).Within C K := by
  rw [Prog.attempt_bind]
  exact hp.bindE hf

theorem within_ask {a : Access} (h : C (.access a)) : (ask a).Within C K :=
  ⟨h, fun _ => Prog.within_final _⟩

theorem within_issue {c : Cmd} (h : C c) : (issue c).Within C K := ⟨h, fun _ => trivial⟩

theorem within_callNet {n : Uuid} {q : NetRequest} (h : C (.net n q)) : (callNet n q).Within C K :=
  ⟨h, fun _ => Prog.within_final _⟩

theorem within_okOr {e : FError} {x : Option α} : (okOr e x).Within C K := by
  cases x <;> trivial

theorem within_unwrap {x : Option α} : (unwrap x).Within C K := by
  cases x <;> trivial

theorem within_invoke {p : Proc} (h : K p) : (Prog.invoke p : M p.Ret).Within C K :=
  ⟨h, fun _ => Prog.within_final _⟩

theorem within_remote {q : Rpc} {b : M q.Ret} (hb : b.Within C K) (hrequest : C (.access (.request q)))
    (hreply : ∀ o, C (.access (.reply q o))) : (remote z q b).Within C K :=
  within_bind (within_ask hrequest) fun _ => within_attempt hb fun _ => within_ask (hreply _)

end Rules

variable {C : Cmd → Prop} {K : Proc → Prop} {z : Session} {n p u svc : Uuid}

section Plain

variable (hC : ∀ c, c.Plain → C c)

include hC

namespace DummyHypervisor

theorem within_getNodeUuid : (getNodeUuid z n).Within C K :=
  within_remote trivial (hC _ trivial) fun _ => hC _ trivial

theorem within_fduInfo {f : Uuid} : (fduInfo z n f).Within C K :=
  within_remote (within_ask (hC _ trivial)) (hC _ trivial) fun _ => hC _ trivial

theorem within_createConnectionPoints (l : List ConnectionPointDescriptor)
    (cps : List FDURecordConnectionPoint) : (createConnectionPoints n l cps).Within C K := by
  induction l generalizing cps with
  | nil => trivial
  | cons cp l ih => exact within_bind (within_callNet (hC _ trivial)) fun _ => ih _

theorem within_connect (cps : List FDURecordConnectionPoint) (pair : Uuid) (cpId : Option String) :
    (connect n cps pair cpId).Within C K := by
  cases cpId with
  | none => exact within_bind (within_callNet (hC _ trivial)) fun _ => trivial
  | some cpId =>
    exact within_bind within_okOr fun _ => within_bind (within_callNet (hC _ trivial)) fun _ => trivial

theorem within_createInterfaces (netns : Uuid) (cps : List FDURecordConnectionPoint)
    (l : List Interface) (ifs : List FDURecordInterface) :
    (createInterfaces n netns cps l ifs).Within C K := by
  induction l generalizing ifs with
  | nil => trivial
  | cons intf l ih =>
    exact within_bind (within_callNet (hC _ trivial)) fun _ => within_bind within_okOr fun _ =>
      within_bind (within_connect hC cps _ _) fun _ => ih _

theorem within_callAll (l : List NetRequest) : (callAll n l).Within C K := by
  induction l with
  | nil => trivial
  | cons q l ih => exact within_bind (within_callNet (hC _ trivial)) fun _ => ih

omit hC in
theorem within_decodeSpecific (x : Option HypervisorSpecific) : (decodeSpecific x).Within C K := by
  rcases x with _ | _ | _ <;> trivial

end DummyHypervisor

namespace Agent

variable {a : Agent} {f : Uuid}

theorem within_imageExists (image : Option Image) : (imageExists image).Within C K := by
  rcases image with _ | img
  · trivial
  · simp only [imageExists]
    split
    · exact within_issue (hC _ trivial)
    · trivial

theorem within_checkFduCompatibility : (checkFduCompatibility a f).Within C K :=
  within_bind (within_ask (hC _ trivial)) fun _ => within_bind (within_ask (hC _ trivial)) fun _ =>
    within_bind (within_ask (hC _ trivial)) fun _ => within_bind (within_issue (hC _ trivial)) fun _ =>
      within_bind within_unwrap fun _ => within_bind within_unwrap fun _ =>
        within_bind (within_imageExists hC _) fun _ => trivial

theorem within_getCompatibleNodes (hcheck : ∀ svc, K (.agent svc (.checkFduCompatibility f))) :
    (getCompatibleNodes z a f).Within C K := by
  have hall : ∀ l, (checkAll z f l).Within C K := by
    intro l
    induction l with
    | nil => trivial
    | cons svc l ih =>
      refine within_attempt (within_remote (within_invoke (hcheck svc)) (hC _ trivial) fun _ =>
        hC _ trivial) fun _ => within_bind ih fun _ => trivial
  refine within_bind (within_ask (hC _ trivial)) fun _ => within_bind (hall _) fun _ =>
    within_bind ?_ fun _ => trivial
  apply (within_checkFduCompatibility hC).bindE
  intro o
  rcases o with (_ | _) | _ <;> trivial

theorem within_client {owner : Uuid} : (client a owner).Within C K := by
  unfold client
  split
  · trivial
  · exact within_bind (within_ask (hC _ trivial)) fun _ => trivial

end Agent

end Plain

section Idle

variable (hC : ∀ c, c.Idle → C c)

include hC

theorem plain_of_idle : ∀ c, c.Plain → C c := fun c h => hC c h.idle

theorem within_rpc {q : Request} (hq : ¬ (Rpc.agent svc q).Schedules) (hK : K (.agent svc q)) :
    (rpc z svc q).Within C K :=
  within_remote (within_invoke hK) (hC _ trivial) fun _ => hC _ hq

namespace Agent

variable {a : Agent} {f : Uuid}

theorem within_bringUp (hconfigure : K (.agent svc (.configureFdu u)))
    (hstart : K (.agent svc (.startFdu u))) : (bringUp z svc u).Within C K :=
  within_bind (within_rpc hC id hconfigure) fun _ =>
    within_bind (within_rpc hC id hstart) fun _ => trivial

theorem within_takeDown (hstop : K (.agent svc (.stopFdu u))) (hclean : K (.agent svc (.cleanFdu u)))
    (hundefine : K (.agent svc (.undefineFdu u))) : (takeDown z svc u).Within C K :=
  within_bind (within_rpc hC id hstop) fun _ => within_bind (within_rpc hC id hclean) fun _ =>
    within_bind (within_rpc hC id hundefine) fun _ => trivial

theorem within_dispatch {work : FDURecord → Uuid → M FDURecord} {forward : Uuid → M FDURecord}
    (hwork : ∀ inst p, (work inst p).Within C K) (hforward : ∀ svc, (forward svc).Within C K) :
    (dispatch a u work forward).Within C K := by
  refine within_bind (within_ask (hC _ trivial)) fun inst => ?_
  split
  · exact within_bind (within_ask (hC _ trivial)) fun _ => within_bind (within_issue (hC _ trivial))
      fun _ => within_bind within_okOr fun _ => hwork _ _
  · exact within_bind (within_ask (hC _ trivial)) fun _ => hforward _

theorem within_fduStatus : (fduStatus z a u).Within C K := by
  have hstatus : (DummyHypervisor.getFduStatus z a.nodeUuid u).Within C K :=
    within_bind (DummyHypervisor.within_getNodeUuid (plain_of_idle hC)) fun _ =>
      within_ask (hC _ trivial)
  exact within_bind (within_ask (hC _ trivial)) fun _ => within_bind (within_ask (hC _ trivial)) fun _ =>
    within_bind (within_issue (hC _ trivial)) fun _ => within_bind within_okOr fun _ =>
      within_remote hstatus (hC _ trivial) fun _ => hC _ id

end Agent

theorem within_poll {awaited : FDUState} (hK : K (.poll u awaited)) :
    (body z (.poll u awaited)).Within C K :=
  Prog.within_retry (hC _ trivial) hK

end Idle

section Plugin

variable (hplain : ∀ c, c.Plain → C c) (hlock : ∀ p, C (.lock p)) (hunlock : ∀ p, C (.unlock p))

namespace DummyHypervisor

include hlock hunlock in
theorem within_withLock {α : Type} {b : M α} (hb : b.Within C K) : (withLock p b).Within C K :=
  within_bind (within_issue (hlock p)) fun _ => within_attempt hb fun _ =>
    within_bind (within_issue (hunlock p)) fun _ => Prog.within_final _

include hplain hlock hunlock

theorem within_transition {before : FDUState} {work : FDURecord → M Unit}
    (hwork : ∀ inst, (work inst).Within C K) : (transition z n p before u work).Within C K := by
  refine within_bind (within_getNodeUuid hplain) fun _ => within_bind (within_ask (hplain _ trivial))
    fun inst => ?_
  split
  · exact within_withLock hlock hunlock (within_bind (hwork inst) fun _ => trivial)
  · trivial

theorem within_undefineFdu (hremove : C (.remove p u))
    (hlocal : ∀ f u, C (.access (.localDeleteInstance n f u))) : (undefineFdu z n p u).Within C K :=
  within_transition hplain hlock hunlock fun _ => within_bind (within_issue hremove) fun _ =>
    within_bind (within_ask (hplain _ trivial)) fun _ => within_ask (hlocal _ _)

end DummyHypervisor

end Plugin

def PluginRequest.Moves (u : Uuid) : PluginRequest → Prop
  | .configureFdu v | .cleanFdu v | .startFdu v | .stopFdu v => v = u
  | _ => False

namespace DummyHypervisor

/-- A call that works on the record it reads, and puts it back changed. -/
def Moving (z : Session) (n p u : Uuid) (b : M Uuid) : Prop :=
  ∃ before work, b = transition z n p before u work ∧
    ∀ inst, (work inst).Within (Cmd.Rewrites n inst) fun _ => False

/-- And does not do anything else. -/
def Restoring (z : Session) (n p u : Uuid) (b : M Uuid) : Prop :=
  ∃ before work, b = transition z n p before u work ∧
    ∀ inst, (work inst).Within (Cmd.Restores n p inst) fun _ => False

theorem Restoring.moving {b : M Uuid} (h : Restoring z n p u b) : Moving z n p u b := by
  obtain ⟨before, work, rfl, hwork⟩ := h
  exact ⟨before, work, rfl, fun inst => (hwork inst).mono (fun _ hc => hc.rewrites) fun _ => id⟩

theorem within_store {inst r : FDURecord} (hpath : r.path = inst.path) (hnode : r.node = inst.node) :
    (store n p r).Within (Cmd.Restores n p inst) K :=
  within_bind (within_ask (Or.inr ⟨r, Or.inl rfl, hpath, hnode⟩)) fun _ =>
    within_issue (Or.inr ⟨r, Or.inr rfl, hpath, hnode⟩)

theorem restoring_configureFdu : Restoring z n p u (configureFdu z n p u) := by
  refine ⟨_, _, rfl, fun inst => ?_⟩
  have hplain : ∀ c, c.Plain → Cmd.Restores n p inst c := fun _ => Or.inl
  exact within_bind (within_fduInfo hplain) fun _ => within_bind (within_callNet (hplain _ trivial))
    fun _ => within_bind (within_createConnectionPoints hplain _ _) fun _ =>
      within_bind (within_createInterfaces hplain _ _ _ _) fun _ => within_store rfl rfl

theorem restoring_cleanFdu : Restoring z n p u (cleanFdu z n p u) :=
  ⟨_, _, rfl, fun _ => within_bind (within_decodeSpecific _) fun _ =>
    within_bind (within_callAll (fun _ => Or.inl) _) fun _ => within_store rfl rfl⟩

theorem restoring_startFdu : Restoring z n p u (startFdu z n p u) :=
  ⟨_, _, rfl, fun _ => within_store rfl rfl⟩

theorem restoring_stopFdu : Restoring z n p u (stopFdu z n p u) :=
  ⟨_, _, rfl, fun _ => within_store rfl rfl⟩

section Follows

variable {Q : Type} {D : Discipline Cmd.Ans Proc.Ret Exn Q} {J : Q → Prop}
  {L : FDURecord → Q → Prop} {q₀ : Q}

theorem Moving.follows {b : M Uuid} (h : Moving z n p u b)
    (hJ : ∀ q c, J q → c.Tame → D.allows q c ∧ ∀ x q', D.next q c x q' → J q')
    (hread : ∀ q inst q', J q → D.next q (.access (.localGetInstance n u)) (.ok inst) q' → L inst q')
    (hL : ∀ inst q c, L inst q → c.Rewrites n inst → D.allows q c ∧ ∀ x q', D.next q c x q' → L inst q')
    (hq : J q₀) : b.Follows D (fun _ _ => True) q₀ := by
  obtain ⟨before, work, rfl, hwork⟩ := h
  have hnode : (getNodeUuid z n).Within Cmd.Tame fun _ => False :=
    within_getNodeUuid fun _ hc => hc.idle.tame
  refine follows_bind (hnode.follows (J := J) hJ (fun _ _ _ => False.elim) hq) (fun _ q₁ h₁ => ?_)
    fun _ _ _ => trivial
  have hget : Cmd.Tame (.access (.localGetInstance n u)) := trivial
  refine follows_ask_bind (hJ q₁ _ h₁ hget).1 (fun inst q₂ hn => ?_) fun _ _ _ => trivial
  split
  · have hlock : ∀ c, c.Tame → Cmd.Rewrites n inst c := fun _ => Or.inl
    have hw : (withLock p (work inst >>= fun _ => pure u)).Within (Cmd.Rewrites n inst)
        fun _ => False :=
      within_withLock (fun _ => hlock _ trivial) (fun _ => hlock _ trivial)
        (within_bind (hwork inst) fun _ => trivial)
    exact (hw.follows (J := L inst) (hL inst) (fun _ _ _ => False.elim) (hread q₁ inst q₂ h₁ hn)).mono
      fun _ _ _ => trivial
  · trivial

theorem follows_call {r : PluginRequest} (hr : r.Moves u)
    (hJ : ∀ q c, J q → c.Tame → D.allows q c ∧ ∀ x q', D.next q c x q' → J q')
    (hread : ∀ q inst q', J q → D.next q (.access (.localGetInstance n u)) (.ok inst) q' → L inst q')
    (hL : ∀ inst q c, L inst q → c.Rewrites n inst → D.allows q c ∧ ∀ x q', D.next q c x q' → L inst q')
    (hreply : ∀ q r o, D.allows q (.access (.reply (.plugin p r) o)))
    (hq : J q₀) : (call z n p r).Follows D (fun _ _ => True) q₀ := by
  have hrequest : Cmd.Tame (.access (.request (.plugin p r))) := trivial
  refine follows_remote (hJ q₀ _ hq hrequest).1 (fun x q₁ hn => ?_) fun _ _ _ => trivial
  have h₁ : J q₁ := (hJ q₀ _ hq hrequest).2 _ q₁ hn
  have done : ∀ {b : M r.Ret}, b.Follows D (fun _ _ => True) q₁ →
      b.Follows D (fun o q₂ => D.allows q₂ (.access (.reply (.plugin p r) (received z o))) ∧
        ∀ y q₃, D.next q₂ (.access (.reply (.plugin p r) (received z o))) y q₃ → True) q₁ :=
    fun h => h.mono fun _ _ _ => ⟨hreply _ _ _, fun _ _ _ => trivial⟩
  cases r with
  | configureFdu v => obtain rfl := hr; exact done (restoring_configureFdu.moving.follows hJ hread hL h₁)
  | cleanFdu v => obtain rfl := hr; exact done (restoring_cleanFdu.moving.follows hJ hread hL h₁)
  | startFdu v => obtain rfl := hr; exact done (restoring_startFdu.moving.follows hJ hread hL h₁)
  | stopFdu v => obtain rfl := hr; exact done (restoring_stopFdu.moving.follows hJ hread hL h₁)
  | _ => exact hr.elim

theorem follows_define {d : FDUDescriptor}
    (hJ : ∀ q c, J q → c.Tame → D.allows q c ∧ ∀ x q', D.next q c x q' → J q')
    (hnew : ∀ q, J q → D.allows q .newUuid ∧ ∀ u q', D.next q .newUuid u q' → J q')
    (hread : ∀ q m q', J q → D.next q (.access (.reply (.agentPlugin n .getNodeUuid) (.ok n))) (.ok m) q' →
      m = n)
    (hput : ∀ q i, J q → i.node = n → D.allows q (.access (.localPutInstance n i)) ∧
      ∀ x q', D.next q (.access (.localPutInstance n i)) x q' → J q')
    (hq : J q₀) : (call z n p (.defineFdu d)).Follows D (fun _ q => J q) q₀ := by
  have hallow : ∀ {q c}, J q → c.Tame → D.allows q c := fun hq hc => (hJ _ _ hq hc).1
  have hkeep : ∀ {q c x q'}, D.next q c x q' → J q → c.Tame → J q' := fun hn hq hc =>
    (hJ _ _ hq hc).2 _ _ hn
  have hnode : ∀ {q}, J q → (getNodeUuid z n).Follows D
      (fun o q' => J q' ∧ ∀ m, o = .ok m → m = n) q := by
    intro q hq
    refine follows_remote (hallow hq trivial) (fun _ q₁ h₁ => ?_) fun e q₁ h₁ =>
      ⟨hkeep h₁ hq trivial, fun _ h => by cases h⟩
    have hq₁ := hkeep h₁ hq trivial
    refine ⟨hallow hq₁ id, fun o q₂ h₂ => ⟨hkeep h₂ hq₁ id, fun m hm => ?_⟩⟩
    cases o with
    | error e => cases hm
    | ok m' => cases hm; exact hread _ _ _ hq₁ h₂
  have hstore : ∀ {q i}, J q → i.node = n → (store n p i).Follows D (fun _ q => J q) q := by
    intro q i hq hi
    obtain ⟨hallow', hkeep'⟩ := hput _ _ hq hi
    refine follows_ask_bind hallow' (fun _ q₁ h₁ => ?_) fun _ q₁ h₁ => hkeep' _ _ h₁
    exact ⟨hallow (hkeep' _ _ h₁) trivial, fun _ q₂ h₂ => hkeep h₂ (hkeep' _ _ h₁) trivial⟩
  refine follows_remote (hallow hq trivial) (fun _ q₁ h₁ => ?_) fun e q₁ h₁ => hkeep h₁ hq trivial
  refine Prog.Follows.mono (Ψ := fun _ q => J q) ?_ fun o q₂ h₂ =>
    ⟨hallow h₂ id, fun _ _ hn => hkeep hn h₂ id⟩
  refine follows_bind (hnode (hkeep h₁ hq trivial)) (fun m q₂ h₂ => ?_) fun _ _ h => h.1
  obtain rfl := h₂.2 m rfl
  apply follows_withLock (hallow h₂.1 trivial)
  intro _ q₃ h₃
  refine Prog.Follows.mono (Ψ := fun _ q => J q) ?_ fun o q₄ h₄ =>
    ⟨hallow h₄ trivial, fun _ _ hn => hkeep hn h₄ trivial⟩
  obtain ⟨hallow', hkeep'⟩ := hnew _ (hkeep h₃ h₂.1 trivial)
  apply follows_issue_bind hallow'
  intro u q₄ h₄
  refine follows_unwrap_bind (fun f _ => ?_) fun _ => hkeep' _ _ h₄
  exact follows_bind (hstore (hkeep' _ _ h₄) rfl) (fun _ _ h => h) fun _ _ h => h

end Follows

end DummyHypervisor

section Drops

namespace Agent

variable {a : Agent} {f : Uuid}

theorem within_undefineFdu (hC : ∀ c, c.Drops → C c) (hrpc : ∀ svc, K (.agent svc (.cleanFdu u))) :
    (undefineFdu z a u).Within C K := by
  have hidle : ∀ c, c.Idle → C c := fun c h => hC c h.tame.drops
  have hplugin : ∀ p, (DummyHypervisor.call z a.nodeUuid p (.undefineFdu u)).Within C K := fun p =>
    within_remote (DummyHypervisor.within_undefineFdu (plain_of_idle hidle) (fun _ => hC _ trivial)
      (fun _ => hC _ trivial) (hC _ trivial) fun _ _ => hC _ trivial) (hC _ trivial) fun _ => hC _ id
  have hremove : (removeInstance u).Within C K :=
    within_bind (within_ask (hC _ trivial)) fun _ => within_ask (hC _ trivial)
  exact within_dispatch hidle
    (fun _ p => within_bind (hplugin p) fun _ => within_bind hremove fun _ => trivial)
    fun svc => within_rpc hidle id (hrpc svc)

theorem within_offloadFdu (hplain : ∀ c, c.Plain → C c) (hdelete : C (.access (.deleteFdu f))) :
    (offloadFdu f).Within C K := by
  refine within_bind (within_ask (hplain _ trivial)) fun _ =>
    within_bind (within_ask (hplain _ trivial)) fun _ => ?_
  split
  · exact within_bind (within_ask hdelete) fun _ => trivial
  · trivial

theorem within_offloadEntity {e : Uuid} (hplain : ∀ c, c.Plain → C c)
    (hdelete : C (.access (.deleteEntity e))) : (offloadEntity e).Within C K := by
  refine within_bind (within_ask (hplain _ trivial)) fun _ =>
    within_bind (within_ask (hplain _ trivial)) fun _ => ?_
  split
  · exact within_bind (within_ask hdelete) fun _ => trivial
  · trivial

theorem within_onboardFdu (fdu : FDUDescriptor) (hnew : C .newUuid)
    (hput : ∀ d, C (.access (.putFdu d))) : (onboardFdu fdu).Within C K := by
  have hadd : ∀ fdu, (addFdu fdu).Within C K := fun fdu =>
    within_bind within_okOr fun _ => within_ask (hput _)
  unfold onboardFdu
  split
  · exact within_bind (within_issue hnew) fun _ => within_bind (hadd _) fun _ => trivial
  · exact within_bind (hadd _) fun _ => trivial

theorem within_onboardEntity (entity : EntityDescriptor) (hnew : C .newUuid)
    (hput : ∀ d, C (.access (.putEntity d))) : (onboardEntity entity).Within C K := by
  have hcomplete : ∀ fdus, (completeFdus fdus).Within C K := by
    intro fdus
    induction fdus with
    | nil => trivial
    | cons fdu fdus ih =>
      have hrest : ∀ ifdu : FDUDescriptor, (do
          let fdus ← completeFdus fdus
          pure (ifdu :: fdus) : M _).Within C K := fun _ => within_bind ih fun _ => trivial
      simp only [completeFdus]
      split
      · exact within_bind (within_issue hnew) fun _ => hrest _
      · exact hrest _
  have hadd : ∀ entity, (addEntity entity).Within C K := fun entity =>
    within_bind within_okOr fun _ => within_ask (hput _)
  apply within_bind (hcomplete _)
  intro fdus
  split
  · exact within_bind (within_issue hnew) fun _ => within_bind (hadd _) fun _ => trivial
  · exact within_bind (hadd _) fun _ => trivial

end Agent

end Drops

section Keeps

variable (hC : ∀ c, c.Keeps → C c)

include hC

theorem idle_of_keeps : ∀ c, c.Idle → C c := fun c h => hC c h.keeps

namespace DummyHypervisor

theorem Moving.within {b : M Uuid} (h : Moving z n p u b) : b.Within C K := by
  obtain ⟨before, work, rfl, hwork⟩ := h
  refine within_transition (plain_of_idle (idle_of_keeps hC)) (fun _ => hC _ trivial)
    (fun _ => hC _ trivial) fun inst => ?_
  exact (hwork inst).mono (fun c hc => hC c hc.keeps) fun _ => False.elim

theorem within_defineFdu {fdu : FDUDescriptor} : (defineFdu z n p fdu).Within C K :=
  within_bind (within_getNodeUuid (plain_of_idle (idle_of_keeps hC))) fun _ =>
    within_withLock (fun _ => hC _ trivial) (fun _ => hC _ trivial)
      (within_bind (within_issue (hC _ trivial)) fun _ => within_bind within_unwrap fun _ =>
        within_bind (within_bind (within_ask (hC _ trivial)) fun _ => within_issue (hC _ trivial))
          fun _ => trivial)

theorem within_call {q : PluginRequest} (hq : ∀ u, q ≠ .undefineFdu u) :
    (call z n p q).Within C K := by
  refine within_remote ?_ (hC _ trivial) fun _ => hC _ id
  cases q with
  | defineFdu fdu => exact within_defineFdu hC
  | undefineFdu u => exact absurd rfl (hq u)
  | configureFdu u => exact restoring_configureFdu.moving.within hC
  | cleanFdu u => exact restoring_cleanFdu.moving.within hC
  | startFdu u => exact restoring_startFdu.moving.within hC
  | stopFdu u => exact restoring_stopFdu.moving.within hC
  | getFduStatus u =>
    exact within_bind (within_getNodeUuid (plain_of_idle (idle_of_keeps hC))) fun _ => within_ask (hC _ trivial)

end DummyHypervisor

namespace Agent

variable {a : Agent} {f : Uuid} (hpoll : ∀ u awaited, K (.poll u awaited))

include hpoll

theorem within_move {q : PluginRequest} (hq : ∀ u, q ≠ .undefineFdu u) {awaited : FDUState} :
    (move z a q awaited u p).Within C K :=
  within_bind (DummyHypervisor.within_call hC hq) fun _ => within_invoke (hpoll _ _)

theorem within_moving {q : PluginRequest} (hq : ∀ u, q ≠ .undefineFdu u) {awaited : FDUState}
    {r : Uuid → M FDURecord} (hr : ∀ svc, (r svc).Within C K) :
    (dispatch a u (fun _ => move z a q awaited u) r).Within C K :=
  within_dispatch (idle_of_keeps hC) (fun _ _ => within_move hC hpoll hq) hr

theorem within_configureFdu (hrpc : ∀ svc, K (.agent svc (.configureFdu u))) :
    (configureFdu z a u).Within C K :=
  within_moving hC hpoll (fun _ h => by cases h) fun svc =>
    within_rpc (idle_of_keeps hC) id (hrpc svc)

theorem within_startFdu (hrpc : ∀ svc, K (.agent svc (.startFdu u))) :
    (startFdu z a u).Within C K :=
  within_moving hC hpoll (fun _ h => by cases h) fun svc =>
    within_rpc (idle_of_keeps hC) id (hrpc svc)

theorem within_stopFdu (hrpc : ∀ svc, K (.agent svc (.stopFdu u))) :
    (stopFdu z a u).Within C K :=
  within_moving hC hpoll (fun _ h => by cases h) fun svc =>
    within_rpc (idle_of_keeps hC) id (hrpc svc)

theorem within_cleanFdu (hrpc : ∀ svc, K (.agent svc (.cleanFdu u))) :
    (cleanFdu z a u).Within C K :=
  within_moving hC hpoll (fun _ h => by cases h) fun svc =>
    within_rpc (idle_of_keeps hC) id (hrpc svc)

theorem within_defineFdu : (defineFdu z a f).Within C K :=
  within_bind (within_ask (hC _ trivial)) fun _ => within_bind (within_issue (hC _ trivial)) fun _ =>
    within_bind within_okOr fun _ => within_bind (DummyHypervisor.within_call hC nofun) fun _ =>
      within_invoke (hpoll _ _)

theorem within_scheduleFdu (hcheck : ∀ svc, K (.agent svc (.checkFduCompatibility f)))
    (hdefine : ∀ svc, K (.agent svc (.defineFdu f))) : (scheduleFdu z a f).Within C K := by
  refine within_bind (within_getCompatibleNodes (plain_of_idle (idle_of_keeps hC)) hcheck) fun _ =>
    within_bind (within_issue (hC _ trivial)) fun selected => ?_
  cases selected with
  | none => trivial
  | some svc =>
    dsimp only
    split
    · exact within_defineFdu hC hpoll
    · exact within_rpc (idle_of_keeps hC) id (hdefine _)

end Agent

end Keeps

/-- The calls that store neither a descriptor nor a record of an entity. -/
def Request.Minor : Request → Prop
  | .scheduleEntity _ | .descheduleEntity _ | .onboardEntity _ => False
  | _ => True

theorem Request.Minor.within {a : Agent} {r : Request} (hr : r.Minor) (hkeeps : ∀ c, c.Keeps → C c)
    (hdrops : ∀ c, c.Drops → C c) (hdelete : ∀ e, C (.access (.deleteEntity e)))
    (hpoll : ∀ u awaited, K (.poll u awaited)) (hagent : ∀ svc q, q.Minor → K (.agent svc q)) :
    (Agent.handle z a r).Within C K := by
  have hplain : ∀ c, c.Plain → C c := fun c h => hkeeps c h.idle.keeps
  cases r with
  | checkFduCompatibility f => exact Agent.within_checkFduCompatibility hplain
  | scheduleEntity e => exact hr.elim
  | descheduleEntity e => exact hr.elim
  | scheduleFdu f =>
    exact Agent.within_scheduleFdu hkeeps hpoll (fun _ => hagent _ _ trivial)
      fun _ => hagent _ _ trivial
  | onboardFdu fdu => exact Agent.within_onboardFdu fdu (hkeeps _ trivial) fun _ => hkeeps _ trivial
  | onboardEntity entity => exact hr.elim
  | defineFdu f => exact Agent.within_defineFdu hkeeps hpoll
  | configureFdu u => exact Agent.within_configureFdu hkeeps hpoll fun _ => hagent _ _ trivial
  | startFdu u => exact Agent.within_startFdu hkeeps hpoll fun _ => hagent _ _ trivial
  | stopFdu u => exact Agent.within_stopFdu hkeeps hpoll fun _ => hagent _ _ trivial
  | cleanFdu u => exact Agent.within_cleanFdu hkeeps hpoll fun _ => hagent _ _ trivial
  | undefineFdu u => exact Agent.within_undefineFdu hdrops fun _ => hagent _ _ trivial
  | offloadFdu f => exact Agent.within_offloadFdu hplain (hdrops _ trivial)
  | offloadEntity e => exact Agent.within_offloadEntity hplain (hdelete e)
  | fduStatus u => exact Agent.within_fduStatus (idle_of_keeps hkeeps)

section Entities

variable (hidle : ∀ c, c.Idle → C c) (hput : ∀ i, C (.access (.putEntityInstance i)))

namespace Agent

variable {a : Agent}

include hidle in
theorem within_unscheduleFdus (us : List Uuid) (hagent : ∀ svc q, q.Minor → K (.agent svc q)) :
    (unscheduleFdus z a us).Within C K := by
  induction us with
  | nil => trivial
  | cons u us ih =>
    exact within_bind (within_ask (hidle _ trivial)) fun _ =>
      within_bind (within_client (plain_of_idle hidle)) fun _ => within_bind (within_takeDown hidle
        (hagent _ _ trivial) (hagent _ _ trivial) (hagent _ _ trivial)) fun _ => ih

include hidle in
theorem within_onboardFdus (fdus : List FDUDescriptor) (hagent : ∀ svc q, q.Minor → K (.agent svc q)) :
    (onboardFdus z a fdus).Within C K := by
  induction fdus with
  | nil => trivial
  | cons fdu fdus ih =>
    exact within_bind (within_rpc hidle id (hagent _ (.onboardFdu fdu) trivial)) fun _ => ih

include hidle in
theorem within_offloadFdus (fdus : List FDUDescriptor) (hagent : ∀ svc q, q.Minor → K (.agent svc q)) :
    (offloadFdus z a fdus).Within C K := by
  induction fdus with
  | nil => trivial
  | cons fdu fdus ih =>
    exact within_bind within_okOr fun _ =>
      within_bind (within_rpc hidle id (hagent _ (.offloadFdu _) trivial)) fun _ => ih

include hidle in
theorem within_scheduleFdus (fdus : List FDUDescriptor) (inst : EntityRecord)
    (hreply : ∀ svc f o, C (.access (.reply (.agent svc (.scheduleFdu f)) o)))
    (hagent : ∀ svc q, q.Minor → K (.agent svc q)) : (scheduleFdus z a fdus inst).Within C K := by
  induction fdus generalizing inst with
  | nil => trivial
  | cons fdu fdus ih =>
    apply within_bind within_okOr
    intro f
    have hschedule : (rpc z a.instanceUuid (.scheduleFdu f)).Within C K :=
      within_remote (within_invoke (hagent _ _ trivial)) (hidle _ trivial) fun _ => hreply _ _ _
    exact within_bind hschedule fun _ => within_bind (within_client (plain_of_idle hidle)) fun _ =>
      within_bind (within_bringUp hidle (hagent _ _ trivial) (hagent _ _ trivial)) fun _ => ih _

include hput in
theorem within_writeStatus {inst : EntityRecord} {status : EntityStatus} :
    (writeStatus inst status).Within C K :=
  within_bind (within_ask (hput _)) fun _ => trivial

include hput in
theorem within_report {inst : EntityRecord} {b : M Unit} (hb : b.Within C K) :
    (report inst b).Within C K := by
  apply hb.bindE
  intro o
  rcases o with (e | _) | _
  · exact (within_ask (hput _)).bindE fun _ => trivial
  · trivial
  · trivial

include hidle hput in
theorem within_scheduleEntity {e : Uuid} (hnew : C .newUuid) (hspawn : ∀ t, C (.spawn t)) :
    (scheduleEntity a e).Within C K :=
  within_bind (within_ask (hidle _ trivial)) fun _ => within_bind (within_issue hnew) fun _ =>
    within_bind within_okOr fun _ => within_bind (within_ask (hput _)) fun _ =>
      within_bind (within_issue (hspawn _)) fun _ => trivial

include hidle in
theorem within_descheduleEntity {e : Uuid} (hspawn : ∀ t, C (.spawn t)) :
    (descheduleEntity a e).Within C K :=
  within_bind (within_ask (hidle _ trivial)) fun _ => within_bind (within_issue (hspawn _)) fun _ =>
    trivial

end Agent

include hidle hput in
theorem Task.within {t : Task} (hreply : ∀ svc f o, C (.access (.reply (.agent svc (.scheduleFdu f)) o)))
    (hagent : ∀ svc q, q.Minor → K (.agent svc q)) : (t.body z).Within C K := by
  cases t with
  | schedule n svc inst d =>
    exact Agent.within_report hput (within_bind (Agent.within_onboardFdus hidle _ hagent) fun _ =>
      within_bind (Agent.within_writeStatus hput) fun _ => within_bind (Agent.within_writeStatus hput)
        fun _ => within_bind (Agent.within_scheduleFdus hidle _ _ hreply hagent) fun _ =>
          within_bind (Agent.within_writeStatus hput) fun _ => trivial)
  | deschedule n svc inst =>
    exact Agent.within_report hput (within_bind (within_ask (hidle _ trivial)) fun _ =>
      within_bind (Agent.within_writeStatus hput) fun _ =>
        within_bind (Agent.within_unscheduleFdus hidle _ hagent) fun _ =>
          within_bind (Agent.within_writeStatus hput) fun _ =>
            within_bind (Agent.within_writeStatus hput) fun _ =>
              within_bind (Agent.within_offloadFdus hidle _ hagent) fun _ =>
                within_bind (Agent.within_writeStatus hput) fun _ => trivial)

end Entities

end Fog05
