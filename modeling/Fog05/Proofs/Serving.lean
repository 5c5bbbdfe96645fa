import Fog05.Conc.Serial
import Fog05.Model.NetworkServer
import Fog05.Proofs.Pairing

/-! The operations of the networking plugin, served one access at a time. Served alone, an
operation does what it does as a whole; served together, operations that do not use the same
records do what they do one after the other. -/

namespace Fog05

open Conc

namespace DummyNetwork

variable {α β : Type} {s s' : Net}

/-! ### Served alone -/

/-- What `new_v4` draws, by what has been given out. -/
structure Draws where
  draw : List Uuid → Uuid
  fresh : ∀ l, draw l ∉ l

/-- What a call meets. -/
def Draws.env (d : Draws) (q : Request) : Env := ⟨q.agent, d.draw, d.fresh, q.alphanumeric⟩

section Alone

variable (d : Draws)

def NetCmd.perform : (c : NetCmd) → Net → c.Reply × Net
  | .newUuid, s => (d.draw s.issued, { s with issued := d.draw s.issued :: s.issued })
  | .get k u, s => (single ((k.table s).select (· = u)), s)
  | .add k a, s => (.ok (), k.set ((k.table s).put a) s)
  | .remove k u, s => (.ok (), k.set ((k.table s).erase u) s)

/-- Perform `x`, then go on with its outcome, successful or not. -/
def settle (x : NetM α) (f : Except FError α → NetM β) : NetM β := fun s =>
  match x s with
  | .ok a s' => f (.ok a) s'
  | .error err s' => f (.error err) s'

/-- A program with nothing beside it and without failures. -/
def performAlone : NetProg α → NetM α
  | .ret a => pure a
  | .err err => fail err
  | .act c k => fun s => performAlone (k (c.perform d s).1) (c.perform d s).2
  | .call q k => settle (q.op.perform (d.env q)) fun o => performAlone (k o)

variable {d} {q : Request}

theorem performAlone_bindE (p : NetProg α) (f : Except FError α → NetProg β) :
    performAlone d (p.bindE f) = settle (performAlone d p) fun o => performAlone d (f o) := by
  induction p with
  | ret a => rfl
  | err err => rfl
  | act c k ih =>
    funext s
    exact congrFun (ih (c.perform d s).1) _
  | call q k ih =>
    funext s
    simp only [Prog.bindE_call, performAlone, ih, settle]
    cases q.op.perform (d.env q) s <;> rfl

@[simp] theorem performAlone_bind (p : NetProg α) (f : α → NetProg β) :
    performAlone d (p >>= f) = performAlone d p >>= fun a => performAlone d (f a) := by
  rw [Prog.bind_def, performAlone_bindE]
  funext s
  change _ = EStateM.bind _ _ s
  rw [settle, EStateM.bind]
  cases performAlone d p s <;> rfl

@[simp] theorem performAlone_pure (a : α) : performAlone d (pure a) = pure a := rfl

@[simp] theorem performAlone_fail (err : FError) :
    performAlone d (Server.fail err : NetProg α) = fail err := rfl

@[simp] theorem performAlone_final (o : Except FError α) :
    performAlone d (.final o) = look fun _ => o := by
  cases o <;> rfl

@[simp] theorem performAlone_getNodeUuid :
    performAlone d (Server.getNodeUuid q) = getNodeUuid (d.env q) :=
  performAlone_final q.agent

@[simp] theorem performAlone_newUuid : performAlone d Server.newUuid = newUuid (d.env q) := rfl

theorem performAlone_get (k : NetKind) (u : Uuid) :
    performAlone d (Server.get k u) = look fun s => single ((k.table s).select (· = u)) :=
  funext fun s => congrFun (performAlone_final _) s

theorem performAlone_getOrNotFound (k : NetKind) (u : Uuid) :
    performAlone d (Server.getOrNotFound k u) =
      lookOrNotFound fun s => single ((k.table s).select (· = u)) :=
  funext fun s => congrFun (performAlone_final _) s

section Reads

variable (u : Uuid)

@[simp] theorem performAlone_getVirtualNetwork :
    performAlone (α := VirtualNetwork) e (Server.get .vnet u) = look (·.getVirtualNetwork u) :=
  performAlone_get .vnet u

@[simp] theorem performAlone_globalGetVirtualNetwork :
    performAlone (α := VirtualNetwork) e (Server.get .globalVnet u) =
      look (·.globalGetVirtualNetwork u) :=
  performAlone_get .globalVnet u

@[simp] theorem performAlone_getConnectionPoint :
    performAlone (α := Types.ConnectionPoint) e (Server.get .cp u) =
      look (·.getConnectionPoint u) :=
  performAlone_get .cp u

@[simp] theorem performAlone_getInterface :
    performAlone (α := VirtualInterface) e (Server.get .iface u) = look (·.getInterface u) :=
  performAlone_get .iface u

@[simp] theorem performAlone_globalGetInterface :
    performAlone (α := VirtualInterface) e (Server.get .globalIface u) =
      look (·.globalGetInterface u) :=
  performAlone_get .globalIface u

@[simp] theorem performAlone_getVirtualNetworkOrNotFound :
    performAlone (α := VirtualNetwork) e (Server.getOrNotFound .vnet u) =
      lookOrNotFound (·.getVirtualNetwork u) :=
  performAlone_getOrNotFound .vnet u

@[simp] theorem performAlone_getConnectionPointOrNotFound :
    performAlone (α := Types.ConnectionPoint) e (Server.getOrNotFound .cp u) =
      lookOrNotFound (·.getConnectionPoint u) :=
  performAlone_getOrNotFound .cp u

@[simp] theorem performAlone_getInterfaceOrNotFound :
    performAlone (α := VirtualInterface) e (Server.getOrNotFound .iface u) =
      lookOrNotFound (·.getInterface u) :=
  performAlone_getOrNotFound .iface u

@[simp] theorem performAlone_getNetworkNamespaceOrNotFound :
    performAlone (α := Types.NetworkNamespace) e (Server.getOrNotFound .netns u) =
      lookOrNotFound (·.getNetworkNamespace u) :=
  performAlone_getOrNotFound .netns u

@[simp] theorem performAlone_getNetworkNamespace :
    performAlone (α := Types.NetworkNamespace) e (Server.get .netns u) =
      look (·.getNetworkNamespace u) :=
  performAlone_get .netns u

end Reads

@[simp] theorem performAlone_add (k : NetKind) (a : k.Obj) :
    performAlone d (Server.add k a) = write fun s => k.set ((k.table s).put a) s := rfl

@[simp] theorem performAlone_remove (k : NetKind) (u : Uuid) :
    performAlone d (Server.remove k u) = write fun s => k.set ((k.table s).erase u) s := rfl

@[simp] theorem performAlone_newInterfaces (intf : Types.VirtualInterfaceConfig) (netNs : Option Uuid) :
    performAlone d (Server.newInterfaces q intf netNs) = newInterfaces (d.env q) intf netNs := by
  unfold Server.newInterfaces newInterfaces
  cases aloneKind intf.kind <;> rfl

@[simp] theorem performAlone_addInterfaces (l : List VirtualInterface) :
    performAlone d (Server.addInterfaces l) = addInterfaces l := by
  induction l with
  | nil => rfl
  | cons i l ih =>
    rw [Server.addInterfaces, performAlone_bind]
    simp only [ih]
    rfl

@[simp] theorem performAlone_update (u : Uuid)
    (f : VirtualInterface → Except FError VirtualInterface) :
    performAlone d (Server.update u f) = update u f := by
  simp only [Server.update, performAlone_bind, performAlone_getInterface, performAlone_final,
    performAlone_add, performAlone_pure]
  rfl

@[simp] theorem performAlone_removePair (i : VirtualInterface) :
    performAlone d (Server.removePair i) = write (·.removePair i) := by
  unfold Server.removePair Net.removePair
  cases i.pair? <;> rfl

/-! The operations that go on in more than one way. -/

theorem performAlone_createConnectionPoint :
    performAlone d (Server.createConnectionPoint q) = createConnectionPoint (d.env q) := by
  have hget : ∀ u, performAlone d (Server.get .cp u).attempt =
      look fun s => .ok (s.getConnectionPoint u) := by
    intro u
    funext s
    rw [Prog.attempt, performAlone_bindE, performAlone_getConnectionPoint]
    simp only [settle, look]
    cases s.getConnectionPoint u <;> rfl
  simp only [Server.createConnectionPoint, createConnectionPoint, performAlone_bind,
    performAlone_getNodeUuid, performAlone_newUuid, hget]
  refine bind_congr fun _ => bind_congr fun _ => bind_congr fun o => ?_
  cases o <;> rfl

theorem performAlone_unbindConnectionPoint (cp v : Uuid) :
    performAlone d (Server.unbindConnectionPointFromVirtualNetwork q cp v) =
      unbindConnectionPointFromVirtualNetwork (d.env q) cp v := by
  simp only [Server.unbindConnectionPointFromVirtualNetwork, performAlone_bind,
    performAlone_getNodeUuid, performAlone_getConnectionPoint, performAlone_getVirtualNetwork,
    apply_ite (performAlone d), performAlone_add, performAlone_pure, performAlone_fail]
  rfl

theorem performAlone_deleteInNamespace (i n : Uuid) :
    performAlone d (Server.deleteVirtualInterfaceInNamespace q i n) =
      deleteVirtualInterfaceInNamespace (d.env q) i n := by
  simp only [Server.deleteVirtualInterfaceInNamespace, performAlone_bind,
    performAlone_getNodeUuid, performAlone_getNetworkNamespace, performAlone_getInterface,
    apply_ite (performAlone d), performAlone_add, performAlone_remove, performAlone_removePair,
    performAlone_pure, performAlone_fail]
  rfl

theorem performAlone_getVirtualBridge (b : Uuid) :
    performAlone d (Server.getVirtualBridge q b) = getVirtualBridge (d.env q) b := by
  simp only [Server.getVirtualBridge, getVirtualBridge, performAlone_bind,
    performAlone_getNodeUuid, performAlone_getInterface]
  refine bind_congr fun _ => bind_congr fun i => ?_
  cases i.kind <;> rfl

theorem performAlone_deleteVirtualBridge (b : Uuid) :
    performAlone d (Server.deleteVirtualBridge q b) = deleteVirtualBridge (d.env q) b := by
  simp only [Server.deleteVirtualBridge, deleteVirtualBridge, performAlone_bind,
    performAlone_getNodeUuid, performAlone_globalGetInterface]
  refine bind_congr fun _ => bind_congr fun i => ?_
  cases i.kind <;> rfl

theorem performAlone_deleteMacvanInterface (i : Uuid) :
    performAlone d (Server.deleteMacvanInterface q i) = deleteMacvanInterface (d.env q) i := by
  simp only [Server.deleteMacvanInterface, deleteMacvanInterface, performAlone_bind,
    performAlone_getNodeUuid, performAlone_getInterface]
  refine bind_congr fun _ => bind_congr fun i => ?_
  cases i.kind <;> rfl

theorem performAlone_moveIntoDefault (i : Uuid) :
    performAlone d (Server.moveInterfaceIntoDefaultNamespace q i) =
      moveInterfaceIntoDefaultNamespace (d.env q) i := by
  simp only [Server.moveInterfaceIntoDefaultNamespace, moveInterfaceIntoDefaultNamespace,
    performAlone_bind, performAlone_getNodeUuid, performAlone_getInterface]
  refine bind_congr fun _ => bind_congr fun i => ?_
  cases i.netNs with
  | none => rfl
  | some n =>
    simp only [performAlone_bind, performAlone_add, performAlone_getNetworkNamespace,
      apply_ite (performAlone d), performAlone_pure, performAlone_fail]
    rfl

theorem performAlone_attach (i b : Uuid) :
    performAlone d (Server.attachInterfaceToBridge q i b) = attachInterfaceToBridge (d.env q) i b := by
  simp only [Server.attachInterfaceToBridge, attachInterfaceToBridge, performAlone_bind,
    performAlone_getNodeUuid, performAlone_getInterface]
  refine bind_congr fun _ => bind_congr fun i => bind_congr fun bridge => ?_
  cases bridge.kind with
  | bridge info =>
    simp only [performAlone_bind, performAlone_getInterface, performAlone_add, performAlone_pure]
    rfl
  | _ => rfl

theorem performAlone_detach (i : Uuid) :
    performAlone d (Server.detachInterfaceFromBridge q i) = detachInterfaceFromBridge (d.env q) i := by
  simp only [Server.detachInterfaceFromBridge, detachInterfaceFromBridge, performAlone_bind,
    performAlone_getNodeUuid, performAlone_getInterface]
  refine bind_congr fun _ => bind_congr fun i => ?_
  cases i.parent with
  | none => rfl
  | some b =>
    simp only [performAlone_bind, performAlone_getInterface]
    refine bind_congr fun bridge => ?_
    cases bridge.kind with
    | bridge info =>
      simp only [performAlone_bind, performAlone_getInterface, performAlone_add,
        apply_ite (performAlone d), performAlone_pure, performAlone_fail]
      rfl
    | _ => rfl

/-- Served alone, an operation does what it does as a whole. -/
theorem performAlone_program (op : Op) : performAlone d (op.program q) = op.perform (d.env q) := by
  cases op with
  | createConnectionPoint => exact performAlone_createConnectionPoint
  | unbindConnectionPointFromVirtualNetwork cp v => exact performAlone_unbindConnectionPoint cp v
  | deleteVirtualInterfaceInNamespace i n => exact performAlone_deleteInNamespace i n
  | getVirtualBridge b => exact performAlone_getVirtualBridge b
  | deleteVirtualBridge b => exact performAlone_deleteVirtualBridge b
  | deleteMacvanInterface i => exact performAlone_deleteMacvanInterface i
  | moveInterfaceIntoDefaultNamespace i => exact performAlone_moveIntoDefault i
  | attachInterfaceToBridge i b => exact performAlone_attach i b
  | detachInterfaceFromBridge i => exact performAlone_detach i
  | assingAddressToInterface i a =>
    cases a with
    | none => rfl
    | some a => 
      simp only [Op.program, Op.perform, Server.assingAddressToInterface, performAlone_bind, performAlone_getNodeUuid, performAlone_update]
      rfl
  | _ =>
    -- one access after the other
    simp only [Op.program, Op.perform, Server.createDefaultVirtualNetwork, Server.createVirtualNetwork,
      Server.getVirtualNetwork, Server.deleteVirtualNetwork, Server.getConnectionPoint,
      Server.deleteConnectionPoint, Server.createVirtualInterface, Server.getVirtualInterface,
      Server.deleteVirtualInterface, Server.createVirtualBridge, Server.createNetworkNamespace,
      Server.getNetworkNamespace, Server.deleteNetworkNamespace,
      Server.bindInterfaceToConnectionPoint, Server.unbindInterfaceFromConnectionPoint,
      Server.bindConnectionPointToVirtualNetwork, Server.getInterfaceAddresses,
      Server.createMacvlanInterface, Server.moveInterfaceInfoNamespace,
      Server.renameVirtualInterface, Server.createVirtualInterfaceInNamespace,
      Server.removeAddressFromInterface, Server.setMacaddresOfInterface,
      createDefaultVirtualNetwork, createVirtualNetwork, getVirtualNetwork, deleteVirtualNetwork,
      getConnectionPoint, deleteConnectionPoint, createVirtualInterface, getVirtualInterface,
      deleteVirtualInterface, createVirtualBridge, createAlone, setDefaultRouteInNetworkNamespace,
      createNetworkNamespace, getNetworkNamespace, deleteNetworkNamespace,
      bindInterfaceToConnectionPoint, unbindInterfaceFromConnectionPoint,
      bindConnectionPointToVirtualNetwork, getInterfaceAddresses, getOverlayIface, getVlanFace,
      createMacvlanInterface, moveInterfaceInfoNamespace, renameVirtualInterface,
      createVirtualInterfaceInNamespace, removeAddressFromInterface, setMacaddresOfInterface,
      performAlone_bind, performAlone_pure, performAlone_fail, performAlone_getNodeUuid,
      performAlone_newUuid, performAlone_add, performAlone_remove,
      performAlone_getVirtualNetwork, performAlone_globalGetVirtualNetwork,
      performAlone_getVirtualNetworkOrNotFound, performAlone_getConnectionPoint,
      performAlone_getConnectionPointOrNotFound, performAlone_getInterface,
      performAlone_getInterfaceOrNotFound, performAlone_getNetworkNamespace,
      performAlone_getNetworkNamespaceOrNotFound, performAlone_update, performAlone_removePair,
      performAlone_newInterfaces, performAlone_addInterfaces] <;> rfl

/-- Only a program runs, and `d` draws for it. -/
def drawing (d : Draws) : System NetCmd.Reply Request.Ret FError Net where
  act c s r s' := c.perform d s = (r, s')
  env _ _ := False
  body q := q.op.program q

/-- An outcome and what is left with it. -/
def leaving (s : Net) : Except FError α → EStateM.Result FError Net α
  | .ok a => .ok a s
  | .error err => .error err s

theorem performAlone_of_runs {p : NetProg α} {o : Except FError α} {n : ℕ}
    (h : (drawing d).Runs n s p s' (.final o)) : performAlone d p s = leaving s' o := by
  generalize hp : Prog.final o = p' at h
  induction h with
  | refl s p =>
    subst hp
    cases o <;> rfl
  | @act _ s s₁ _ c k r _ ha _ ih =>
    have ha' : c.perform d s = (r, s₁) := ha
    change performAlone d (k (c.perform d s).1) (c.perform d s).2 = _
    rw [ha']
    exact ih hp
  | call _ ih =>
    rw [← ih hp, performAlone_bindE, performAlone, ← performAlone_program]
    rfl
  | env _ he => exact he.elim

theorem issued_perform (c : NetCmd) (s : Net) :
    s.issued.length ≤ (c.perform d s).2.issued.length := by
  cases c with
  | newUuid => exact Nat.le_succ _
  | get k u => exact le_rfl
  | add k a => cases k <;> exact le_rfl
  | remove k u => cases k <;> exact le_rfl

theorem runs_of_eq {d d' : Draws} {p p' : NetProg α} {n : ℕ} (h : (drawing d).Runs n s p s' p')
    (hd : ∀ l : List Uuid, s.issued.length ≤ l.length → d'.draw l = d.draw l) :
    (drawing d').Runs n s p s' p' := by
  induction h with
  | refl => exact .refl _ _
  | @act n s s₁ s' c k r p' ha _ ih =>
    have ha' : c.perform d s = (r, s₁) := ha
    have hsame : c.perform d' s = c.perform d s := by
      cases c with
      | newUuid => simp only [NetCmd.perform, hd _ le_rfl]
      | _ => rfl
    have hlater := issued_perform (d := d) c s
    rw [ha'] at hlater
    exact .act (hsame.trans ha') (ih fun l hl => hd l (hlater.trans hl))
  | call _ ih => exact .call (ih hd)
  | env _ he => exact he.elim

/-- Draw `u` when `l` has been given out. -/
def Draws.override (d : Draws) (l : List Uuid) (u : Uuid) (hu : u ∉ l) : Draws where
  draw l' := if l' = l then u else d.draw l'
  fresh l' := by
    split
    · next h => rwa [h]
    · exact d.fresh l'

/-- The accesses are served. -/
def NetChoice.Works : NetChoice → Prop
  | .failed _ => False
  | _ => True

theorem exec_newUuid {ch : NetChoice} {r : Uuid} (hx : netExec .newUuid ch s = some (r, s')) :
    ch = .uuid r ∧ r ∉ s.issued ∧ s' = { s with issued := r :: s.issued } := by
  cases ch with
  | uuid u =>
    rw [netExec] at hx
    split at hx
    · cases hx
    · next hu =>
      cases hx
      exact ⟨rfl, hu, rfl⟩
  | served => cases hx
  | failed err => cases hx

theorem perform_of_exec {c : NetCmd} {ch : NetChoice} {r : c.Reply} (hch : ch.Works)
    (hc : c ≠ .newUuid) (hx : netExec c ch s = some (r, s')) : c.perform d s = (r, s') := by
  cases ch with
  | failed err => exact hch.elim
  | uuid u => cases c <;> first | cases hx | exact absurd rfl hc
  | served => cases c <;> cases hx <;> rfl

/-- What has been drawn in a run could have been told before it. -/
theorem exists_draws {p p' : NetProg α} {n : ℕ}
    (h : (server.system NetChoice.Works).Runs n s p s' p') :
    ∃ d, (drawing d).Runs n s p s' p' := by
  induction h with
  | refl => exact ⟨⟨Env.inOrder.draw, Env.inOrder.fresh⟩, .refl _ _⟩
  | @act n s s₁ s' c k r p' ha _ ih =>
    obtain ⟨d, hd⟩ := ih
    obtain ⟨ch, hch, hx⟩ := ha
    by_cases hc : c = .newUuid
    · subst hc
      obtain ⟨-, hr, rfl⟩ := exec_newUuid hx
      refine ⟨d.override s.issued r hr, .act ?_ (runs_of_eq hd fun l hl => if_neg ?_)⟩
      · exact Prod.ext (if_pos rfl) (by simp [NetCmd.perform, Draws.override])
      · rintro rfl
        exact absurd hl (Nat.not_succ_le_self _)
    · exact ⟨d, .act (perform_of_exec hch hc hx) hd⟩
  | call _ ih =>
    obtain ⟨d, hd⟩ := ih
    exact ⟨d, .call hd⟩
  | env _ he =>
    obtain ⟨e, -⟩ := he
    exact e.elim

end Alone

/-! ### Served one after the other -/

/-- A call of `op` that meets what `e` says. -/
def Env.request (e : Env) (op : Op) : Request := ⟨op, e.agent, e.alphanumeric⟩

def Op.answer (op : Op) (e : Env) (s : Net) : Except FError op.Ret :=
  match op.perform e s with
  | .ok a _ => .ok a
  | .error err _ => .error err

/-- What these operations answer, performed one after the other. -/
def Net.answers (s : Net) : List (Env × Op) → List ((op : Op) × Except FError op.Ret)
  | [] => []
  | (e, op) :: l => ⟨op, op.answer e s⟩ :: (op.after e s).answers l

theorem answers_append (s : Net) (l : List (Env × Op)) (e : Env) (op : Op) :
    s.answers (l ++ [(e, op)]) = s.answers l ++ [⟨op, op.answer e (s.run l)⟩] := by
  induction l generalizing s with
  | nil => rfl
  | cons x l ih => exact congrArg (_ :: ·) (ih _)

theorem perform_of_ends {q : Request} {o : Except FError q.op.Ret}
    (h : (server.system NetChoice.Works).Ends (server.body q) s o s') :
    ∃ e : Env, e.request q.op = q ∧ q.op.perform e s = leaving s' o := by
  obtain ⟨n, hn⟩ := h
  obtain ⟨d, hd⟩ := exists_draws hn
  exact ⟨d.env q, rfl, performAlone_program q.op ▸ performAlone_of_runs hd⟩

theorem run_of_serves {s₀ : Net} {done : List ((q : Request) × Except FError q.Ret)}
    (h : server.Serves NetChoice.Works s₀ done s) :
    ∃ l : List (Env × Op), l.map (fun x => x.1.request x.2) = done.map Sigma.fst ∧
      s₀.answers l = done.map (fun x => ⟨x.1.op, x.2⟩) ∧ s₀.run l = s := by
  induction h with
  | nil => exact ⟨[], rfl, rfl, rfl⟩
  | @snoc done s₁ s q o _ hends ih =>
    obtain ⟨l, hl, hanswers, rfl⟩ := ih
    obtain ⟨e, he, hx⟩ := perform_of_ends hends
    refine ⟨l ++ [(e, q.op)], ?_, ?_, ?_⟩
    · rw [List.map_append, List.map_append, hl]
      exact congrArg _ (congrArg (· :: []) he)
    · rw [answers_append, hanswers, List.map_append, Op.answer, hx]
      cases o <;> rfl
    · rw [Net.run, List.foldl_append]
      change q.op.after e (s₀.run l) = s
      rw [Op.after, hx]
      cases o <;> rfl

/-! ### Accesses to different records -/

/-- The record that an access is about. -/
def NetCmd.record : NetCmd → Option (NetKind × Uuid)
  | .newUuid => none
  | .get k u | .remove k u => some (k, u)
  | .add k a => some (k, k.uuid a)

def NetCmd.Writes : NetCmd → Prop
  | .newUuid | .get _ _ => False
  | .add _ _ | .remove _ _ => True

/-- Accesses to one record, one of which writes it. -/
def NetCmd.Conflicts (c c' : NetCmd) : Prop :=
  c.record ≠ none ∧ c.record = c'.record ∧ (c.Writes ∨ c'.Writes)

/-- What a read of a record answers. -/
def Net.row (s : Net) (k : NetKind) (u : Uuid) : Except FError k.Obj :=
  single ((k.table s).select (· = u))

/-- All reads answer the same, and the same uuids have been given out. -/
structure Net.Agrees (s t : Net) : Prop where
  row : ∀ k u, s.row k u = t.row k u
  issued : ∀ u, u ∈ s.issued ↔ u ∈ t.issued

theorem Net.agrees_equivalence : Equivalence Net.Agrees where
  refl _ := ⟨fun _ _ => rfl, fun _ => Iff.rfl⟩
  symm h := ⟨fun k u => (h.row k u).symm, fun u => (h.issued u).symm⟩
  trans h h' := ⟨fun k u => (h.row k u).trans (h'.row k u), fun u =>
    (h.issued u).trans (h'.issued u)⟩

theorem table_set (k : NetKind) (t : Table k.uuid) (s : Net) : k.table (k.set t s) = t := by
  cases k <;> rfl

theorem table_set_of_ne {k k' : NetKind} (h : k' ≠ k) (t : Table k.uuid) (s : Net) :
    k'.table (k.set t s) = k'.table s := by
  cases k <;> cases k' <;> first | rfl | exact absurd rfl h

theorem issued_set (k : NetKind) (t : Table k.uuid) (s : Net) : (k.set t s).issued = s.issued := by
  cases k <;> rfl

@[simp] theorem row_issued (s : Net) (l : List Uuid) (k : NetKind) (u : Uuid) :
    ({ s with issued := l } : Net).row k u = s.row k u := by
  cases k <;> rfl

theorem row_add_self (k : NetKind) (a : k.Obj) (s : Net) :
    (k.set ((k.table s).put a) s).row k (k.uuid a) = .ok a := by
  rw [Net.row, table_set]
  exact single_key_eq_ok.2 ⟨Table.mem_put_self _ _, rfl⟩

theorem row_add_of_ne {k k' : NetKind} {a : k.Obj} {u : Uuid} (h : (k', u) ≠ (k, k.uuid a))
    (s : Net) : (k.set ((k.table s).put a) s).row k' u = s.row k' u := by
  by_cases hk : k' = k
  · subst hk
    rw [Net.row, table_set, Table.select_put_of_not fun hu => h (by rw [hu]), Net.row]
  · rw [Net.row, table_set_of_ne hk, Net.row]

theorem row_remove_self (k : NetKind) (u : Uuid) (s : Net) :
    (k.set ((k.table s).erase u) s).row k u = .error .notFound := by
  rw [Net.row, table_set]
  exact single_key_eq_notFound fun a ha => (Table.mem_erase.1 ha).2

theorem row_remove_of_ne {k k' : NetKind} {u v : Uuid} (h : (k', v) ≠ (k, u)) (s : Net) :
    (k.set ((k.table s).erase u) s).row k' v = s.row k' v := by
  by_cases hk : k' = k
  · subst hk
    rw [Net.row, table_set, Table.select_erase_of_not fun hu => h (by rw [hu]), Net.row]
  · rw [Net.row, table_set_of_ne hk, Net.row]

section Access

variable {c c' : NetCmd} {ch ch' : NetChoice} {r : c.Reply} {k : NetKind} {u : Uuid} {t : Net}

theorem exec_local (hc : c.record = some (k, u)) (hx : netExec c ch s = some (r, s'))
    (hst : s.row k u = t.row k u) :
    ∃ t', netExec c ch t = some (r, t') ∧ s'.row k u = t'.row k u := by
  cases c with
  | newUuid => cases hc
  | get k u =>
    cases hc
    cases ch with
    | served =>
      cases hx
      exact ⟨t, by rw [netExec]; exact congrArg (fun x => some (x, t)) hst.symm, hst⟩
    | failed err => cases hx; exact ⟨t, rfl, hst⟩
    | uuid v => cases hx
  | add k a =>
    cases hc
    cases ch with
    | served => cases hx; exact ⟨_, rfl, by rw [row_add_self, row_add_self]⟩
    | failed err => cases hx; exact ⟨t, rfl, hst⟩
    | uuid v => cases hx
  | remove k u =>
    cases hc
    cases ch with
    | served => cases hx; exact ⟨_, rfl, by rw [row_remove_self, row_remove_self]⟩
    | failed err => cases hx; exact ⟨t, rfl, hst⟩
    | uuid v => cases hx

theorem exec_beside (hc : c.record = some (k, u)) (hx : netExec c ch s = some (r, s')) :
    (∀ k' v, (k', v) ≠ (k, u) → s'.row k' v = s.row k' v) ∧ s'.issued = s.issued := by
  cases c with
  | newUuid => cases hc
  | get k u => cases ch <;> cases hx <;> exact ⟨fun _ _ _ => rfl, rfl⟩
  | add k a =>
    cases hc
    cases ch with
    | served => cases hx; exact ⟨fun _ _ h => row_add_of_ne h s, issued_set _ _ _⟩
    | failed err => cases hx; exact ⟨fun _ _ _ => rfl, rfl⟩
    | uuid v => cases hx
  | remove k u =>
    cases hc
    cases ch with
    | served => cases hx; exact ⟨fun _ _ h => row_remove_of_ne h s, issued_set _ _ _⟩
    | failed err => cases hx; exact ⟨fun _ _ _ => rfl, rfl⟩
    | uuid v => cases hx

theorem exec_read (hc : ¬ c.Writes) (hc' : c ≠ .newUuid)
    (hx : netExec c ch s = some (r, s')) : s' = s := by
  cases c with
  | newUuid => exact absurd rfl hc'
  | get k u => cases ch <;> cases hx <;> rfl
  | add k a => exact absurd trivial hc
  | remove k u => exact absurd trivial hc

theorem record_of_ne (hc : c ≠ .newUuid) : ∃ k u, c.record = some (k, u) := by
  cases c with
  | newUuid => exact absurd rfl hc
  | _ => exact ⟨_, _, rfl⟩

theorem exec_agrees (hst : s.Agrees t) (hx : netExec c ch s = some (r, s')) :
    ∃ t', netExec c ch t = some (r, t') ∧ s'.Agrees t' := by
  by_cases hc : c = .newUuid
  · subst hc
    obtain ⟨rfl, hr, rfl⟩ := exec_newUuid hx
    refine ⟨{ t with issued := r :: t.issued }, if_neg fun h => hr ((hst.issued r).2 h), ?_⟩
    exact ⟨fun k u => by simp [hst.row], fun u => by simp [hst.issued u]⟩
  · obtain ⟨k, u, hku⟩ := record_of_ne hc
    obtain ⟨t', hx', hrow⟩ := exec_local hku hx (hst.row k u)
    obtain ⟨hs, hissued⟩ := exec_beside hku hx
    obtain ⟨ht, hissued'⟩ := exec_beside hku hx'
    refine ⟨t', hx', ⟨fun k' v => ?_, fun v => ?_⟩⟩
    · by_cases hv : (k', v) = (k, u)
      · cases hv
        exact hrow
      · rw [hs k' v hv, ht k' v hv, hst.row k' v]
    · rw [hissued, hissued', hst.issued v]

theorem exec_after_draw (v : Uuid) (hc : c.record = some (k, u))
    (hx : netExec c ch s = some (r, s')) :
    ∃ t, netExec c ch { s with issued := v :: s.issued } = some (r, t) ∧
      Net.Agrees { s' with issued := v :: s'.issued } t := by
  obtain ⟨t, hx', hrow⟩ := exec_local hc hx (row_issued s _ k u).symm
  obtain ⟨hs, hissued⟩ := exec_beside hc hx
  obtain ⟨ht, hissued'⟩ := exec_beside hc hx'
  refine ⟨t, hx', ⟨fun k' w => ?_, fun w => by simp [hissued, hissued']⟩⟩
  rw [row_issued]
  by_cases hw : (k', w) = (k, u)
  · cases hw
    exact hrow
  · rw [hs k' w hw, ht k' w hw]
    exact (row_issued s _ k' w).symm

theorem exec_swap_records {r' : c'.Reply} {s₁ s₂ : Net} {k' : NetKind} {u' : Uuid}
    (hc : c.record = some (k, u)) (hc' : c'.record = some (k', u')) (hne : (k', u') ≠ (k, u))
    (hx : netExec c ch s = some (r, s₁)) (hx' : netExec c' ch' s₁ = some (r', s₂)) :
    ∃ t₁ t₂, netExec c' ch' s = some (r', t₁) ∧ netExec c ch t₁ = some (r, t₂) ∧
      s₂.Agrees t₂ := by
  obtain ⟨hs₁, hissued₁⟩ := exec_beside hc hx
  obtain ⟨hs₂, hissued₂⟩ := exec_beside hc' hx'
  obtain ⟨t₁, ht, hrow'⟩ := exec_local hc' hx' (hs₁ k' u' hne)
  obtain ⟨ht₁, hissued₁'⟩ := exec_beside hc' ht
  obtain ⟨t₂, ht', hrow⟩ := exec_local hc hx (ht₁ k u hne.symm).symm
  obtain ⟨ht₂, hissued₂'⟩ := exec_beside hc ht'
  refine ⟨t₁, t₂, ht, ht', ⟨fun l w => ?_, fun w => by
    rw [hissued₂, hissued₁, hissued₂', hissued₁']⟩⟩
  by_cases hw : (l, w) = (k, u)
  · cases hw
    rw [hs₂ _ _ hne.symm, hrow]
  · rw [ht₂ l w hw]
    by_cases hw' : (l, w) = (k', u')
    · cases hw'
      exact hrow'
    · rw [hs₂ l w hw', hs₁ l w hw, ht₁ l w hw']

/-- Accesses that do not conflict do the same in either order. -/
theorem exec_swap {r' : c'.Reply} {s₁ s₂ : Net} (hcc : ¬ c.Conflicts c')
    (hx : netExec c ch s = some (r, s₁)) (hx' : netExec c' ch' s₁ = some (r', s₂)) :
    ∃ t₁ t₂, netExec c' ch' s = some (r', t₁) ∧ netExec c ch t₁ = some (r, t₂) ∧
      s₂.Agrees t₂ := by
  by_cases hc : c = .newUuid
  · subst hc
    obtain ⟨rfl, hr, rfl⟩ := exec_newUuid hx
    by_cases hc' : c' = .newUuid
    · subst hc'
      obtain ⟨rfl, hr', rfl⟩ := exec_newUuid hx'
      obtain ⟨hne, hr'⟩ := not_or.1 (mt List.mem_cons.2 hr')
      refine ⟨_, _, if_neg hr', if_neg (by simp [Ne.symm hne, hr]), ?_⟩
      exact ⟨fun k u => by simp, fun u => by simp [or_left_comm]⟩
    · obtain ⟨k, u, hku⟩ := record_of_ne hc'
      obtain ⟨t, ht, -⟩ := exec_local hku hx' (row_issued s _ k u)
      obtain ⟨t', ht', hagrees⟩ := exec_after_draw r hku ht
      obtain ⟨-, rfl⟩ := Prod.mk.inj (Option.some.inj (hx'.symm.trans ht'))
      refine ⟨t, _, ht, if_neg ?_, Net.agrees_equivalence.symm hagrees⟩
      rwa [(exec_beside hku ht).2]
  · obtain ⟨k, u, hku⟩ := record_of_ne hc
    by_cases hc' : c' = .newUuid
    · subst hc'
      obtain ⟨rfl, hr', rfl⟩ := exec_newUuid hx'
      obtain ⟨t, ht, hagrees⟩ := exec_after_draw r' hku hx
      rw [(exec_beside hku hx).2] at hr'
      exact ⟨_, t, if_neg hr', ht, hagrees⟩
    · obtain ⟨k', u', hku'⟩ := record_of_ne hc'
      by_cases hne : (k', u') = (k, u)
      · -- both are reads
        rw [hne] at hku'
        have hreads : ¬ c.Writes ∧ ¬ c'.Writes :=
          not_or.1 fun hw => hcc ⟨by simp [hku], by rw [hku, hku'], hw⟩
        obtain rfl := exec_read hreads.1 hc hx
        obtain rfl := exec_read hreads.2 hc' hx'
        exact ⟨_, _, hx', hx, Net.agrees_equivalence.refl _⟩
      · exact exec_swap_records hku hku' hne hx hx'

end Access

theorem server_commuting : server.Commuting NetCmd.Conflicts Net.Agrees where
  equiv := Net.agrees_equivalence
  exec := exec_agrees
  swap := exec_swap
  move e := e.elim
  launch _ := rfl

theorem mem_table_iff (k : NetKind) (a : k.Obj) : a ∈ k.table s ↔ s.row k (k.uuid a) = .ok a := by
  rw [Net.row, single_key_eq_ok]
  exact ⟨fun ha => ⟨ha, rfl⟩, And.left⟩

theorem Net.Agrees.mem_ifaces {t : Net} (h : s.Agrees t) (i : VirtualInterface) :
    i ∈ s.ifaces ↔ i ∈ t.ifaces := by
  have hs := mem_table_iff (s := s) .iface i
  have ht := mem_table_iff (s := t) .iface i
  rw [h.row .iface] at hs
  exact hs.trans ht.symm

theorem Paired.agrees {t : Net} (h : Paired s.ifaces) (hst : s.Agrees t) : Paired t.ifaces := by
  intro i hi info hk
  obtain ⟨p, hp, hpi⟩ := h i ((hst.mem_ifaces i).2 hi) info hk
  exact ⟨p, (hst.mem_ifaces p).1 hp, hpi⟩

theorem paired_run {s₀ : Net} (h : s₀.Initial) (l : List (Env × Op)) :
    Paired (s₀.run l).ifaces := by
  refine (reachable_induction (P := fun s => Paired s.ifaces) ?_ ?_ ⟨s₀, l, h, rfl⟩).2
  · intro s hs i hi
    rw [hs.ifaces] at hi
    exact absurd hi (Table.not_mem_empty i)
  · exact fun e s op s' hs hp he => hp.step hs he

/-- Calls under way at the same time, whose accesses do not conflict, answer and leave what
they would one after the other, in the order in which they end. Where nothing was stored at
first, the two ends of every `VETH` are there in the end. -/
theorem served_in_turn {s₀ : Net} {w : Pool NetCmd.Reply Request.Ret FError Net}
    {logs : List (List NetCmd)}
    (h : server.Apart NetCmd.Conflicts NetChoice.Works s₀ w logs) (hover : w.threads = []) :
    (∃ l : List (Env × Op), l.map (fun x => x.1.request x.2) = w.done.map Sigma.fst ∧
      s₀.answers l = w.done.map (fun x => ⟨x.1.op, x.2⟩) ∧ (s₀.run l).Agrees w.state) ∧
    (s₀.Initial → Paired w.state.ifaces) := by
  obtain ⟨s, hserves, hsame⟩ := h.serial server_commuting hover
  obtain ⟨l, hl, hanswers, rfl⟩ := run_of_serves hserves
  exact ⟨⟨l, hl, hanswers, hsame⟩, fun h₀ => (paired_run h₀ l).agrees hsame⟩

instance : DecidablePred NetCmd.Writes
  | .newUuid | .get _ _ => inferInstanceAs (Decidable False)
  | .add _ _ | .remove _ _ => inferInstanceAs (Decidable True)

instance : DecidableRel NetCmd.Conflicts := fun c c' =>
  inferInstanceAs (Decidable (c.record ≠ none ∧ c.record = c'.record ∧ (c.Writes ∨ c'.Writes)))

instance : DecidablePred NetChoice.Works
  | .failed _ => inferInstanceAs (Decidable False)
  | .served | .uuid _ => inferInstanceAs (Decidable True)

/-- A pair and a connection point are made at the same time. -/
def pairBesidePoint : List (Label Request NetChoice Empty) :=
  [.start ⟨.createVirtualInterface ⟨"eth0", .veth⟩, .ok 0, "k3Xb81Qz"⟩,
    .start ⟨.createConnectionPoint, .ok 0, "k3Xb81Qz"⟩, .fire 0 (.uuid 1), .fire 1 (.uuid 2),
    .fire 1 .served, .fire 0 (.uuid 3), .fire 1 (.uuid 4), .fire 0 .served, .fire 1 (.uuid 5),
    .fire 1 (.uuid 6), .fire 1 (.uuid 7), .fire 1 .served, .fire 1 .served, .fire 0 .served,
    .fire 0 .served]

theorem served_in_turn_two : ∃ w : Pool NetCmd.Reply Request.Ret FError Net,
    w.state.ifaces.rows.map (fun i => i.uuid) = [1, 3] ∧
    (∃ l : List (Env × Op), l.map (fun x => x.1.request x.2) = w.done.map Sigma.fst ∧
      (Net.blank.run l).Agrees w.state) ∧ Paired w.state.ifaces := by
  have hrun : (server.runApart NetCmd.Conflicts NetChoice.Works pairBesidePoint
      (Pool.idle Net.blank, [])).any (fun x => x.1.threads.isEmpty &&
        x.1.state.ifaces.rows.map (fun i => i.uuid) == [1, 3]) = true := by
    decide +kernel
  obtain ⟨⟨w, logs⟩, hw, hend⟩ := (Option.any_eq_true _ _).1 hrun
  obtain ⟨hover, hifaces⟩ := Bool.and_eq_true_iff.1 hend
  have hapart := Machine.apart_of_runApart .idle hw
  obtain ⟨⟨l, hl, -, hagrees⟩, hpaired⟩ := served_in_turn hapart (List.isEmpty_iff.1 hover)
  exact ⟨w, eq_of_beq hifaces, ⟨l, hl, hagrees⟩, hpaired Net.blank_initial⟩

end DummyNetwork

end Fog05
