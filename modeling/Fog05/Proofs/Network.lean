import Fog05.Conc.Post
import Fog05.Model.Network

/-! The operations of the networking plugin as transitions of its store: what each can do
to connection points, interfaces and namespaces. -/

namespace Fog05

open Conc

theorem single_key_eq_ok {α κ : Type} [DecidableEq κ] {key : α → κ} {t : Table key} {k : κ}
    {a : α} : single (t.select (· = k)) = .ok a ↔ a ∈ t ∧ key a = k := by
  constructor
  · exact single_select_key
  · rintro ⟨ha, rfl⟩
    exact (single_select_eq_ok fun b hb h => Table.eq_of_key hb ha h).2 ⟨ha, rfl⟩

theorem single_key_eq_error {α κ : Type} [DecidableEq κ] {key : α → κ} {t : Table key} {k : κ}
    {err : FError} (h : single (t.select (· = k)) = .error err) : ∀ a ∈ t, key a ≠ k := by
  intro a ha hk
  rw [single_key_eq_ok.2 ⟨ha, hk⟩] at h
  cases h

theorem single_key_eq_notFound {α κ : Type} [DecidableEq κ] {key : α → κ} {t : Table key} {k : κ}
    (h : ∀ a ∈ t, key a ≠ k) : single (t.select (· = k)) = .error .notFound := by
  rw [single_eq_notFound, List.eq_nil_iff_forall_not_mem]
  intro a ha
  obtain ⟨ha, hk⟩ := Table.mem_select.1 ha
  exact h a ha hk

namespace DummyNetwork

variable {e : Env} {s s' : Net} {α β : Type}

/-! ### Reads and writes -/

@[simp] theorem Net.getInterface_eq_ok {u : Uuid} {i : VirtualInterface} :
    s.getInterface u = .ok i ↔ i ∈ s.ifaces ∧ i.uuid = u :=
  single_key_eq_ok

@[simp] theorem Net.getNetworkNamespace_eq_ok {u : Uuid} {n : Types.NetworkNamespace} :
    s.getNetworkNamespace u = .ok n ↔ n ∈ s.netns ∧ n.uuid = u :=
  single_key_eq_ok

@[simp] theorem Net.getConnectionPoint_eq_ok {u : Uuid} {cp : Types.ConnectionPoint} :
    s.getConnectionPoint u = .ok cp ↔ cp ∈ s.cps ∧ cp.uuid = u :=
  single_key_eq_ok

@[simp] theorem Net.globalGetInterface_eq_ok {u : Uuid} {i : VirtualInterface} :
    s.globalGetInterface u = .ok i ↔ i ∈ s.globalIfaces ∧ i.uuid = u :=
  single_key_eq_ok

section Rules

variable {Q : Except FError β → Net → Prop}

theorem post_look {f : Net → Except FError β} (hok : ∀ b, f s = .ok b → Q (.ok b) s)
    (herr : ∀ err, f s = .error err → Q (.error err) s) : Post (look f) s Q := by
  unfold Post look
  cases h : f s with
  | ok b => exact hok b h
  | error err => exact herr err h

theorem post_look_bind {f : Net → Except FError α} {k : α → NetM β}
    (hok : ∀ a, f s = .ok a → Post (k a) s Q)
    (herr : ∀ err, f s = .error err → Q (.error err) s) : Post (look f >>= k) s Q := by
  apply Post.bind (Ψ := fun o s' => s' = s ∧ f s = o)
  · apply post_look
    · exact fun a h => ⟨rfl, h⟩
    · exact fun err h => ⟨rfl, h⟩
  · rintro a s' ⟨rfl, h⟩
    exact hok a h
  · rintro err s' ⟨rfl, h⟩
    exact herr err h

theorem post_lookOrNotFound_bind {f : Net → Except FError α} {k : α → NetM β}
    (hok : ∀ a, f s = .ok a → Post (k a) s Q)
    (herr : ∀ err, f s = .error err → Q (.error .notFound) s) :
    Post (lookOrNotFound f >>= k) s Q := by
  apply post_look_bind
  · intro a h
    cases hf : f s with
    | ok b =>
      rw [hf] at h
      cases h
      exact hok a hf
    | error err => rw [hf] at h; cases h
  · intro err h
    cases hf : f s with
    | ok b => rw [hf] at h; cases h
    | error err' =>
      rw [hf] at h
      cases h
      exact herr err' hf

theorem post_getNodeUuid_bind {k : Uuid → NetM β} (hok : ∀ n, e.agent = .ok n → Post (k n) s Q)
    (herr : ∀ err, e.agent = .error err → Q (.error err) s) : Post (getNodeUuid e >>= k) s Q :=
  post_look_bind hok herr

theorem post_write_bind {f : Net → Net} {k : Unit → NetM β} (h : Post (k ()) (f s) Q) :
    Post (write f >>= k) s Q :=
  h

theorem post_newUuid_bind {k : Uuid → NetM β}
    (h : ∀ u, u ∉ s.issued → Post (k u) { s with issued := u :: s.issued } Q) :
    Post (newUuid e >>= k) s Q :=
  h _ (e.fresh _)

end Rules

/-! ### What an operation can do -/

/-- What the record of interface `u` refers to by `f`. -/
def Net.refs (s : Net) (f : VirtualInterface → Option Uuid) (u : Uuid) : List Uuid :=
  (s.ifaces.select (· = u)).filterMap f

theorem Net.mem_refs {f : VirtualInterface → Option Uuid} {i : VirtualInterface} {v : Uuid}
    (hi : i ∈ s.ifaces) (hf : f i = some v) : v ∈ s.refs f i.uuid :=
  List.mem_filterMap.2 ⟨i, Table.mem_select.2 ⟨hi, rfl⟩, hf⟩

/-- The connection points, interfaces and namespaces whose records an operation may replace
or remove: those it names, and what the interface it names is linked to. -/
def Op.touched (s : Net) : Op → List Uuid
  | .deleteConnectionPoint u | .deleteNetworkNamespace u | .deleteVirtualBridge u
  | .deleteMacvanInterface u | .bindInterfaceToConnectionPoint u _
  | .unbindInterfaceFromConnectionPoint u _ | .renameVirtualInterface u _
  | .assingAddressToInterface u _ | .removeAddressFromInterface u _
  | .setMacaddresOfInterface u _ | .createVirtualInterfaceInNamespace _ u => [u]
  | .deleteVirtualInterface u => u :: s.refs VirtualInterface.pair? u
  | .deleteVirtualInterfaceInNamespace u n => u :: n :: s.refs VirtualInterface.pair? u
  | .moveInterfaceInfoNamespace u v | .attachInterfaceToBridge u v => [u, v]
  | .moveInterfaceIntoDefaultNamespace u => u :: s.refs (fun i => i.netNs) u
  | .detachInterfaceFromBridge u => u :: s.refs (fun i => i.parent) u
  | _ => []

/-- Nothing but virtual networks and the uuids given out may differ. -/
structure Net.Same (s s' : Net) : Prop where
  cps : s'.cps = s.cps
  ifaces : s'.ifaces = s.ifaces
  netns : s'.netns = s.netns
  globalIfaces : s'.globalIfaces = s.globalIfaces
  issued : s.issued ⊆ s'.issued

theorem Net.Same.refl (s : Net) : s.Same s := ⟨rfl, rfl, rfl, rfl, List.Subset.refl _⟩

/-- The records of a new interface, made where `issued` had been given out, and what has
been given out after it. -/
inductive Made (issued : List Uuid) (netNs : Option Uuid) :
    List VirtualInterface → List Uuid → Prop
  | alone {uuid name kind} : uuid ∉ issued → (∀ info, kind ≠ .veth info) →
      (∀ info, kind = .bridge info → info.childs = []) →
      Made issued netNs [newInterface uuid name netNs kind] (uuid :: issued)
  | pair {u v name name'} : u ∉ issued → v ∉ u :: issued →
      Made issued netNs [newInterface u name netNs (.veth ⟨v, true⟩),
        newInterface v name' netNs (.veth ⟨u, false⟩)] (v :: u :: issued)

/-- A change of a record that leaves its links as they are, except that an interface may
be unbound from a connection point. -/
structure Retouch (cps : Table Types.ConnectionPoint.uuid) (i i' : VirtualInterface) : Prop where
  uuid : i'.uuid = i.uuid
  kind : i'.kind = i.kind
  parent : i'.parent = i.parent
  netNs : i'.netNs = i.netNs ∨ i'.netNs = none ∧ ∃ cp ∈ cps, i.netNs = some cp.netNs

/-- What an operation can do to the store, one case for each way of changing it. -/
inductive Effect (e : Env) (s : Net) : Op → Net → Prop
  | same {op s'} : s.Same s' → Effect e s op s'
  | cpMade {cp issued} : cp.uuid ∉ s.issued → cp.netNs ∉ s.issued → s.issued ⊆ issued →
      cp.uuid ∈ issued → cp.netNs ∈ issued →
      Effect e s .createConnectionPoint { s with cps := s.cps.put cp, issued }
  | cpDeleted {u} : Effect e s (.deleteConnectionPoint u) (s.removeConnectionPoint u)
  | nsMade {n} : n.uuid ∉ s.issued → n.interfaces = [] →
      Effect e s .createNetworkNamespace
        { s with netns := s.netns.put n, issued := n.uuid :: s.issued }
  | nsDeleted {u} : Effect e s (.deleteNetworkNamespace u) (s.removeNetworkNamespace u)
  | made {op l issued} : Made s.issued none l issued →
      Effect e s op { s with ifaces := l.foldl Table.put s.ifaces, issued }
  | madeIn {intf n l issued} : n ∈ s.netns → Made s.issued (some n.uuid) l issued →
      Effect e s (.createVirtualInterfaceInNamespace intf n.uuid) { s with
        netns := s.netns.put { n with interfaces := n.interfaces ++ l.map fun i => i.uuid }
        ifaces := l.foldl Table.put s.ifaces
        issued }
  | deleted {i n} : e.agent = .ok n → i ∈ s.ifaces →
      Effect e s (.deleteVirtualInterface i.uuid) ((s.removePair i).removeInterface i.uuid)
  | macvanDeleted {i info n} : e.agent = .ok n → i ∈ s.ifaces → i.kind = .macvlan info →
      Effect e s (.deleteMacvanInterface i.uuid) (s.removeInterface i.uuid)
  | bridgeDeleted {i} : i ∈ s.globalIfaces →
      Effect e s (.deleteVirtualBridge i.uuid) (s.removeInterface i.uuid)
  | deletedIn {i n m} : e.agent = .ok m → i ∈ s.ifaces → n ∈ s.netns → i.netNs = some n.uuid →
      i.uuid ∈ n.interfaces →
      Effect e s (.deleteVirtualInterfaceInNamespace i.uuid n.uuid)
        (((s.removePair i).addNetworkNamespace
          { n with interfaces := n.interfaces.erase i.uuid }).removeInterface i.uuid)
  | bound {i cp n} : e.agent = .ok n → i ∈ s.ifaces → cp ∈ s.cps →
      Effect e s (.bindInterfaceToConnectionPoint i.uuid cp.uuid)
        (s.addInterface { i with netNs := some cp.netNs })
  | retouched {op i i'} : i ∈ s.ifaces → i.uuid ∈ op.touched s → Retouch s.cps i i' →
      Effect e s op (s.addInterface i')
  | entered {i n m} : e.agent = .ok m → i ∈ s.ifaces → n ∈ s.netns →
      Effect e s (.moveInterfaceInfoNamespace i.uuid n.uuid)
        ((s.addInterface { i with netNs := some n.uuid }).addNetworkNamespace
          { n with interfaces := n.interfaces ++ [i.uuid] })
  | left {i n} : i ∈ s.ifaces → n ∈ s.netns → i.netNs = some n.uuid → i.uuid ∈ n.interfaces →
      Effect e s (.moveInterfaceIntoDefaultNamespace i.uuid)
        ((s.addInterface { i with netNs := none }).addNetworkNamespace
          { n with interfaces := n.interfaces.erase i.uuid })
  | leftNone {i u} : i ∈ s.ifaces → i.netNs = some u →
      (∀ n ∈ s.netns, n.uuid = u → i.uuid ∉ n.interfaces) →
      Effect e s (.moveInterfaceIntoDefaultNamespace i.uuid)
        (s.addInterface { i with netNs := none })
  | attached {i b info n} : e.agent = .ok n → i ∈ s.ifaces → b ∈ s.ifaces →
      b.kind = .bridge info →
      Effect e s (.attachInterfaceToBridge i.uuid b.uuid)
        ((s.addInterface { i with parent := some b.uuid }).addInterface
          { b with kind := .bridge ⟨info.childs ++ [i.uuid]⟩ })
  | detached {i b info} : i ∈ s.ifaces → b ∈ s.ifaces → i.parent = some b.uuid →
      b.kind = .bridge info → i.uuid ∈ info.childs →
      Effect e s (.detachInterfaceFromBridge i.uuid)
        ((s.addInterface { i with parent := none }).addInterface
          { b with kind := .bridge ⟨info.childs.erase i.uuid⟩ })

theorem post_newInterfaces_bind {Q : Except FError β → Net → Prop}
    {intf : Types.VirtualInterfaceConfig} {netNs : Option Uuid}
    {k : VirtualInterface × List VirtualInterface → NetM β}
    (h : ∀ i l issued, Made s.issued netNs (i :: l) issued → Post (k (i, l)) { s with issued } Q) :
    Post (newInterfaces e intf netNs >>= k) s Q := by
  unfold newInterfaces
  cases hk : aloneKind intf.kind with
  | some kind =>
    apply h _ _ _ (Made.alone (e.fresh _) ?_ ?_)
    · rintro info rfl
      cases hc : intf.kind <;> rw [hc] at hk <;> cases hk
    · rintro info rfl
      cases hc : intf.kind <;> rw [hc] at hk <;> cases hk
      rfl
  | none => exact h _ _ _ (Made.pair (e.fresh _) (e.fresh _))

theorem foldl_addInterface (l : List VirtualInterface) (s : Net) :
    l.foldl Net.addInterface s = { s with ifaces := l.foldl Table.put s.ifaces } := by
  induction l generalizing s with
  | nil => rfl
  | cons i l ih => exact ih _

theorem post_update {u : Uuid} {f : VirtualInterface → Except FError VirtualInterface}
    {Q : Except FError VirtualInterface → Net → Prop} (herr : ∀ err, Q (.error err) s)
    (hok : ∀ i i', i ∈ s.ifaces → i.uuid = u → f i = .ok i' → Q (.ok i') (s.addInterface i')) :
    Post (update u f) s Q := by
  apply post_look_bind
  · intro i hi
    obtain ⟨hi, hu⟩ := Net.getInterface_eq_ok.1 hi
    apply post_look_bind
    · intro i' hf
      exact hok i i' hi hu hf
    · exact fun err _ => herr err
  · exact fun err _ => herr err

theorem Effect.refl (op : Op) : Effect e s op s := .same (Net.Same.refl s)

theorem Effect.vnets {op : Op} (vnets : Table fun vnet : VirtualNetwork => vnet.uuid) :
    Effect e s op { s with vnets } :=
  .same ⟨rfl, rfl, rfl, rfl, List.Subset.refl _⟩

section Effects

theorem effect_getNodeUuid {op : Op} {k : Uuid → NetM β}
    (h : ∀ n, e.agent = .ok n → Post (k n) s fun _ s' => Effect e s op s') :
    Post (getNodeUuid e >>= k) s fun _ s' => Effect e s op s' :=
  post_getNodeUuid_bind h fun _ _ => Effect.refl op

theorem effect_look {op : Op} {f : Net → Except FError α} {k : α → NetM β}
    (h : ∀ a, f s = .ok a → Post (k a) s fun _ s' => Effect e s op s') :
    Post (look f >>= k) s fun _ s' => Effect e s op s' :=
  post_look_bind h fun _ _ => Effect.refl op

theorem effect_lookOrNotFound {op : Op} {f : Net → Except FError α} {k : α → NetM β}
    (h : ∀ a, f s = .ok a → Post (k a) s fun _ s' => Effect e s op s') :
    Post (lookOrNotFound f >>= k) s fun _ s' => Effect e s op s' :=
  post_lookOrNotFound_bind h fun _ _ => Effect.refl op

theorem effect_get {op : Op} {f : Net → Except FError β} :
    Post (getNodeUuid e >>= fun _ => look f) s fun _ s' => Effect e s op s' :=
  effect_getNodeUuid fun _ _ => post_look (fun _ _ => Effect.refl op) fun _ _ => Effect.refl op

theorem effect_update {op : Op} {u : Uuid} {f : VirtualInterface → Except FError VirtualInterface}
    (hu : u ∈ op.touched s) (hf : ∀ i i', f i = .ok i' → Retouch s.cps i i') :
    Post (update u f) s fun _ s' => Effect e s op s' := by
  apply post_update fun _ => Effect.refl op
  rintro i i' hi rfl h
  exact .retouched hi hu (hf i i' h)

theorem effect_createConnectionPoint :
    Post (createConnectionPoint e) s fun _ s' => Effect e s .createConnectionPoint s' := by
  apply effect_getNodeUuid
  intro _ _
  apply post_newUuid_bind
  intro u hu
  apply post_look_bind
  · intro o _
    cases o with
    | error err =>
      apply post_newUuid_bind
      intro netNs hnetNs
      apply post_newUuid_bind
      intro bridge _
      apply post_newUuid_bind
      intro internal _
      apply post_newUuid_bind
      intro external _
      apply Effect.cpMade
      · exact hu
      · exact fun h => hnetNs (List.mem_cons_of_mem _ h)
      · exact fun v hv => by simp [hv]
      · simp
      · simp
    | ok cp => exact .same ⟨rfl, rfl, rfl, rfl, List.subset_cons_self _ _⟩
  · intro err _
    exact .same ⟨rfl, rfl, rfl, rfl, List.subset_cons_self _ _⟩

theorem effect_deleteConnectionPoint {u : Uuid} :
    Post (deleteConnectionPoint e u) s fun _ s' => Effect e s (.deleteConnectionPoint u) s' := by
  apply effect_getNodeUuid
  intro _ _
  apply effect_lookOrNotFound
  intro _ _
  exact .cpDeleted

theorem effect_bindConnectionPoint {cp v : Uuid} :
    Post (bindConnectionPointToVirtualNetwork e cp v) s fun _ s' =>
      Effect e s (.bindConnectionPointToVirtualNetwork cp v) s' := by
  apply effect_getNodeUuid
  intro _ _
  apply effect_look
  intro _ _
  apply effect_look
  intro _ _
  exact Effect.vnets _

theorem effect_unbindConnectionPoint {cp v : Uuid} :
    Post (unbindConnectionPointFromVirtualNetwork e cp v) s fun _ s' =>
      Effect e s (.unbindConnectionPointFromVirtualNetwork cp v) s' := by
  apply effect_getNodeUuid
  intro _ _
  apply effect_look
  intro _ _
  apply effect_look
  intro _ _
  split
  · exact Effect.vnets _
  · exact Effect.refl _

theorem effect_createAlone {op : Op} {name : String} {kind : Types.VirtualInterfaceKind}
    (hveth : ∀ info, kind ≠ .veth info) (hbridge : ∀ info, kind = .bridge info → info.childs = []) :
    Post (createAlone e name kind) s fun _ s' => Effect e s op s' := by
  apply effect_getNodeUuid
  intro _ _
  apply post_newUuid_bind
  intro u hu
  exact .made (.alone hu hveth hbridge)

theorem effect_createVirtualInterface {intf : Types.VirtualInterfaceConfig} :
    Post (createVirtualInterface e intf) s fun _ s' =>
      Effect e s (.createVirtualInterface intf) s' := by
  apply effect_getNodeUuid
  intro _ _
  apply post_newInterfaces_bind
  intro i l issued h
  apply post_write_bind
  rw [foldl_addInterface]
  exact .made h

theorem effect_createVirtualInterfaceInNamespace {intf : Types.VirtualInterfaceConfig} {u : Uuid} :
    Post (createVirtualInterfaceInNamespace e intf u) s fun _ s' =>
      Effect e s (.createVirtualInterfaceInNamespace intf u) s' := by
  apply effect_getNodeUuid
  intro _ _
  apply effect_look
  intro n hget
  obtain ⟨hn, rfl⟩ := Net.getNetworkNamespace_eq_ok.1 hget
  apply post_newInterfaces_bind
  intro i l issued h
  apply post_write_bind
  apply post_write_bind
  rw [foldl_addInterface]
  exact .madeIn hn h

theorem effect_deleteVirtualInterface {u : Uuid} :
    Post (deleteVirtualInterface e u) s fun _ s' => Effect e s (.deleteVirtualInterface u) s' := by
  apply effect_getNodeUuid
  intro _ hagent
  apply effect_lookOrNotFound
  intro i hget
  obtain ⟨hi, rfl⟩ := Net.getInterface_eq_ok.1 hget
  exact .deleted hagent hi

theorem effect_deleteVirtualInterfaceInNamespace {u v : Uuid} :
    Post (deleteVirtualInterfaceInNamespace e u v) s fun _ s' =>
      Effect e s (.deleteVirtualInterfaceInNamespace u v) s' := by
  apply effect_getNodeUuid
  intro _ hagent
  apply effect_look
  intro n hget
  obtain ⟨hn, rfl⟩ := Net.getNetworkNamespace_eq_ok.1 hget
  apply effect_look
  intro i hget
  obtain ⟨hi, rfl⟩ := Net.getInterface_eq_ok.1 hget
  split
  · next h => exact .deletedIn hagent hi hn h.1 h.2
  · exact Effect.refl _

theorem effect_getVirtualBridge {u : Uuid} :
    Post (getVirtualBridge e u) s fun _ s' => Effect e s (.getVirtualBridge u) s' := by
  apply effect_getNodeUuid
  intro _ _
  apply effect_look
  intro i _
  split
  · exact Effect.refl _
  · exact Effect.refl _

theorem effect_deleteVirtualBridge {u : Uuid} :
    Post (deleteVirtualBridge e u) s fun _ s' => Effect e s (.deleteVirtualBridge u) s' := by
  apply effect_getNodeUuid
  intro _ _
  apply effect_look
  intro i hget
  obtain ⟨hi, rfl⟩ := Net.globalGetInterface_eq_ok.1 hget
  split
  · exact .bridgeDeleted hi
  · exact Effect.refl _

theorem effect_deleteMacvanInterface {u : Uuid} :
    Post (deleteMacvanInterface e u) s fun _ s' => Effect e s (.deleteMacvanInterface u) s' := by
  apply effect_getNodeUuid
  intro _ hagent
  apply effect_look
  intro i hget
  obtain ⟨hi, rfl⟩ := Net.getInterface_eq_ok.1 hget
  split
  · next h => exact .macvanDeleted hagent hi h
  · exact Effect.refl _

theorem effect_createNetworkNamespace :
    Post (createNetworkNamespace e) s fun _ s' => Effect e s .createNetworkNamespace s' := by
  apply effect_getNodeUuid
  intro _ _
  apply post_newUuid_bind
  intro u hu
  exact .nsMade (n := ⟨u, _, []⟩) hu rfl

theorem effect_deleteNetworkNamespace {u : Uuid} :
    Post (deleteNetworkNamespace e u) s fun _ s' => Effect e s (.deleteNetworkNamespace u) s' := by
  apply effect_getNodeUuid
  intro _ _
  apply effect_lookOrNotFound
  intro _ _
  exact .nsDeleted

theorem effect_bindInterface {u v : Uuid} :
    Post (bindInterfaceToConnectionPoint e u v) s fun _ s' =>
      Effect e s (.bindInterfaceToConnectionPoint u v) s' := by
  apply effect_getNodeUuid
  intro _ hagent
  apply effect_look
  intro cp hget
  obtain ⟨hcp, rfl⟩ := Net.getConnectionPoint_eq_ok.1 hget
  apply post_update fun _ => Effect.refl _
  rintro i i' hi rfl h
  cases h
  exact .bound hagent hi hcp

theorem effect_unbindInterface {u v : Uuid} :
    Post (unbindInterfaceFromConnectionPoint e u v) s fun _ s' =>
      Effect e s (.unbindInterfaceFromConnectionPoint u v) s' := by
  apply effect_getNodeUuid
  intro _ _
  apply effect_look
  intro cp hcp
  apply effect_update
  · exact List.mem_singleton_self u
  · intro i i' h
    split at h
    · next hns =>
      cases h
      exact ⟨rfl, rfl, rfl, Or.inr ⟨rfl, cp, (Net.getConnectionPoint_eq_ok.1 hcp).1, hns⟩⟩
    · cases h

theorem effect_moveInterfaceInfoNamespace {u v : Uuid} :
    Post (moveInterfaceInfoNamespace e u v) s fun _ s' =>
      Effect e s (.moveInterfaceInfoNamespace u v) s' := by
  apply effect_getNodeUuid
  intro _ hagent
  apply effect_look
  intro i hget
  obtain ⟨hi, rfl⟩ := Net.getInterface_eq_ok.1 hget
  apply effect_look
  intro n hget
  obtain ⟨hn, rfl⟩ := Net.getNetworkNamespace_eq_ok.1 hget
  exact .entered hagent hi hn

theorem effect_moveInterfaceIntoDefaultNamespace {u : Uuid} :
    Post (moveInterfaceIntoDefaultNamespace e u) s fun _ s' =>
      Effect e s (.moveInterfaceIntoDefaultNamespace u) s' := by
  apply effect_getNodeUuid
  intro _ _
  apply effect_look
  intro i hget
  obtain ⟨hi, rfl⟩ := Net.getInterface_eq_ok.1 hget
  split
  · exact Effect.refl _
  · next v hv =>
    apply post_write_bind
    apply post_look_bind
    · intro n hget
      obtain ⟨hn, rfl⟩ := Net.getNetworkNamespace_eq_ok.1 hget
      split
      · next hmem => exact .left hi hn hv hmem
      · next hmem =>
        refine .leftNone hi hv fun m hm hmn => ?_
        rwa [Table.eq_of_key hm hn hmn]
    · intro err hn
      exact .leftNone hi hv fun m hm hmn => absurd hmn (single_key_eq_error hn m hm)

theorem effect_attachInterfaceToBridge {u v : Uuid} :
    Post (attachInterfaceToBridge e u v) s fun _ s' =>
      Effect e s (.attachInterfaceToBridge u v) s' := by
  apply effect_getNodeUuid
  intro _ hagent
  apply effect_look
  intro i hget
  obtain ⟨hi, rfl⟩ := Net.getInterface_eq_ok.1 hget
  apply effect_look
  intro b hget
  obtain ⟨hb, rfl⟩ := Net.getInterface_eq_ok.1 hget
  split
  · next info hk =>
    apply effect_look
    intro b' hget
    obtain ⟨hb', hbb⟩ := Net.getInterface_eq_ok.1 hget
    obtain rfl := Table.eq_of_key hb' hb hbb
    exact .attached hagent hi hb hk
  · exact Effect.refl _

theorem effect_detachInterfaceFromBridge {u : Uuid} :
    Post (detachInterfaceFromBridge e u) s fun _ s' =>
      Effect e s (.detachInterfaceFromBridge u) s' := by
  apply effect_getNodeUuid
  intro _ _
  apply effect_look
  intro i hget
  obtain ⟨hi, rfl⟩ := Net.getInterface_eq_ok.1 hget
  split
  · exact Effect.refl _
  · next v hv =>
    apply effect_look
    intro b hget
    obtain ⟨hb, rfl⟩ := Net.getInterface_eq_ok.1 hget
    split
    · next info hk =>
      split
      · next hmem =>
        apply effect_look
        intro b' hget
        obtain ⟨hb', hbb⟩ := Net.getInterface_eq_ok.1 hget
        obtain rfl := Table.eq_of_key hb' hb hbb
        exact .detached hi hb hv hk hmem
      · exact Effect.refl _
    · exact Effect.refl _

/-- The operations do what `Effect` says, whatever they answer. -/
theorem perform_effect (op : Op) : Post (op.perform e) s fun _ s' => Effect e s op s' := by
  cases op with
  | createDefaultVirtualNetwork dhcp => exact effect_getNodeUuid fun _ _ => Effect.vnets _
  | createVirtualNetwork v =>
    exact effect_look fun _ _ => effect_getNodeUuid fun _ _ => Effect.vnets _
  | deleteVirtualNetwork v =>
    exact effect_getNodeUuid fun _ _ => effect_lookOrNotFound fun _ _ => Effect.vnets _
  | getVirtualNetwork _ | getConnectionPoint _ | getVirtualInterface _
  | getNetworkNamespace _ => exact effect_get
  | getInterfaceAddresses _ =>
    exact effect_getNodeUuid fun _ _ => effect_look fun _ _ => Effect.refl _
  | setDefaultRouteInNetworkNamespace _ _ | getOverlayIface | getVlanFace => exact Effect.refl _
  | createConnectionPoint => exact effect_createConnectionPoint
  | deleteConnectionPoint u => exact effect_deleteConnectionPoint
  | bindConnectionPointToVirtualNetwork cp v => exact effect_bindConnectionPoint
  | unbindConnectionPointFromVirtualNetwork cp v => exact effect_unbindConnectionPoint
  | createVirtualInterface intf => exact effect_createVirtualInterface
  | createVirtualBridge name =>
    exact effect_createAlone (fun _ h => by cases h) fun _ h => by cases h; rfl
  | createMacvlanInterface master =>
    exact effect_createAlone (fun _ h => by cases h) fun _ h => by cases h
  | createVirtualInterfaceInNamespace intf u => exact effect_createVirtualInterfaceInNamespace
  | deleteVirtualInterface u => exact effect_deleteVirtualInterface
  | deleteVirtualInterfaceInNamespace u v => exact effect_deleteVirtualInterfaceInNamespace
  | getVirtualBridge u => exact effect_getVirtualBridge
  | deleteVirtualBridge u => exact effect_deleteVirtualBridge
  | deleteMacvanInterface u => exact effect_deleteMacvanInterface
  | createNetworkNamespace => exact effect_createNetworkNamespace
  | deleteNetworkNamespace u => exact effect_deleteNetworkNamespace
  | bindInterfaceToConnectionPoint u v => exact effect_bindInterface
  | unbindInterfaceFromConnectionPoint u v => exact effect_unbindInterface
  | moveInterfaceInfoNamespace u v => exact effect_moveInterfaceInfoNamespace
  | moveInterfaceIntoDefaultNamespace u => exact effect_moveInterfaceIntoDefaultNamespace
  | attachInterfaceToBridge u v => exact effect_attachInterfaceToBridge
  | detachInterfaceFromBridge u => exact effect_detachInterfaceFromBridge
  | renameVirtualInterface u name =>
    refine effect_getNodeUuid fun _ _ => effect_update (List.mem_singleton_self u) ?_
    intro i i' h
    cases h
    exact ⟨rfl, rfl, rfl, Or.inl rfl⟩
  | assingAddressToInterface u address =>
    cases address with
    | none => exact Effect.refl _
    | some address =>
      refine effect_getNodeUuid fun _ _ => effect_update (List.mem_singleton_self u) ?_
      intro i i' h
      cases h
      exact ⟨rfl, rfl, rfl, Or.inl rfl⟩
  | removeAddressFromInterface u address =>
    refine effect_getNodeUuid fun _ _ => effect_update (List.mem_singleton_self u) ?_
    intro i i' h
    split at h
    · cases h
      exact ⟨rfl, rfl, rfl, Or.inl rfl⟩
    · cases h
  | setMacaddresOfInterface u address =>
    refine effect_getNodeUuid fun _ _ => effect_update (List.mem_singleton_self u) ?_
    intro i i' h
    cases h
    exact ⟨rfl, rfl, rfl, Or.inl rfl⟩

theorem effect_after (op : Op) : Effect e s op (op.after e s) := by
  have h := perform_effect (e := e) (s := s) op
  unfold Post at h
  unfold Op.after
  cases hr : op.perform e s with
  | ok r s' =>
    rw [hr] at h
    exact h
  | error err s' =>
    rw [hr] at h
    exact h

end Effects

/-! ### What the operations answer when they find what they look for -/

section Answers

variable {node : Uuid} {i b : VirtualInterface} {n : Types.NetworkNamespace}
  {cp : Types.ConnectionPoint}

theorem Op.after_of_ok (op : Op) {r : op.Ret} (h : op.perform e s = .ok r s') :
    op.after e s = s' := by
  unfold Op.after
  rw [h]

theorem getNodeUuid_bind (hagent : e.agent = .ok node) (k : Uuid → NetM β) :
    (getNodeUuid e >>= k) s = k node s := by
  simp [getNodeUuid, look, hagent, bind, EStateM.bind]

theorem look_eq {f : Net → Except FError β} {b : β} (h : f s = .ok b) : look f s = .ok b s := by
  simp [look, h]

theorem look_bind {f : Net → Except FError α} {a : α} (h : f s = .ok a) (k : α → NetM β) :
    (look f >>= k) s = k a s := by
  simp [look, h, bind, EStateM.bind]

theorem lookOrNotFound_bind {f : Net → Except FError α} {a : α} (h : f s = .ok a) (k : α → NetM β) :
    (lookOrNotFound f >>= k) s = k a s := by
  simp [lookOrNotFound, look, h, bind, EStateM.bind, Except.mapError]

theorem look_bind_error {f : Net → Except FError α} {err : FError} (h : f s = .error err)
    (k : α → NetM β) : (look f >>= k) s = .error err s := by
  simp [look, h, bind, EStateM.bind]

theorem lookOrNotFound_bind_error {f : Net → Except FError α} {err : FError} (h : f s = .error err)
    (k : α → NetM β) : (lookOrNotFound f >>= k) s = .error .notFound s := by
  simp [lookOrNotFound, look, h, bind, EStateM.bind, Except.mapError]

theorem deleteVirtualInterface_eq (hagent : e.agent = .ok node) (hi : i ∈ s.ifaces) :
    deleteVirtualInterface e i.uuid s = .ok i ((s.removePair i).removeInterface i.uuid) := by
  unfold deleteVirtualInterface
  rw [getNodeUuid_bind hagent, lookOrNotFound_bind (Net.getInterface_eq_ok.2 ⟨hi, rfl⟩)]
  rfl

theorem createNetworkNamespace_eq (hagent : e.agent = .ok node) :
    createNetworkNamespace e s = .ok ⟨e.draw s.issued, generateRandomNetnsName e, []⟩
      { s with
        netns := s.netns.put ⟨e.draw s.issued, generateRandomNetnsName e, []⟩
        issued := e.draw s.issued :: s.issued } := by
  unfold createNetworkNamespace
  rw [getNodeUuid_bind hagent]
  rfl

theorem createConnectionPoint_made (hagent : e.agent = .ok node)
    (hcps : ∀ cp ∈ s.cps, cp.uuid ∈ s.issued) :
    Post (createConnectionPoint e) s fun o s' => ∃ cp issued, cp.uuid ∉ s.issued ∧
      o = .ok cp ∧ s' = { s with cps := s.cps.put cp, issued } := by
  apply post_getNodeUuid_bind
  · intro _ _
    apply post_newUuid_bind
    intro u hu
    apply post_look_bind
    · intro o ho
      cases o with
      | error err => exact ⟨_, _, hu, rfl, rfl⟩
      | ok old =>
        obtain ⟨hold, rfl⟩ := Net.getConnectionPoint_eq_ok.1 (Except.ok.inj ho)
        exact absurd (hcps old hold) hu
    · intro err herr
      cases herr
  · intro err herr
    rw [hagent] at herr
    cases herr

theorem createVethInNamespace_eq (hagent : e.agent = .ok node) (hn : n ∈ s.netns) (name : String) :
    ∃ u v name', u ∉ s.issued ∧ v ∉ u :: s.issued ∧
      createVirtualInterfaceInNamespace e ⟨name, .veth⟩ n.uuid s =
        .ok (newInterface u name (some n.uuid) (.veth ⟨v, true⟩)) { s with
          netns := s.netns.put { n with interfaces := n.interfaces ++ [u, v] }
          ifaces := (s.ifaces.put (newInterface u name (some n.uuid) (.veth ⟨v, true⟩))).put
            (newInterface v name' (some n.uuid) (.veth ⟨u, false⟩))
          issued := v :: u :: s.issued } := by
  refine ⟨_, _, generateRandomInterfaceName e, e.fresh _, e.fresh _, ?_⟩
  unfold createVirtualInterfaceInNamespace
  rw [getNodeUuid_bind hagent, look_bind (Net.getNetworkNamespace_eq_ok.2 ⟨hn, rfl⟩)]
  rfl

theorem deleteConnectionPoint_eq (hagent : e.agent = .ok node) (hcp : cp ∈ s.cps) :
    deleteConnectionPoint e cp.uuid s = .ok cp.uuid (s.removeConnectionPoint cp.uuid) := by
  unfold deleteConnectionPoint
  rw [getNodeUuid_bind hagent, lookOrNotFound_bind (Net.getConnectionPoint_eq_ok.2 ⟨hcp, rfl⟩)]
  rfl

theorem deleteNetworkNamespace_eq (hagent : e.agent = .ok node) (hn : n ∈ s.netns) :
    deleteNetworkNamespace e n.uuid s = .ok n (s.removeNetworkNamespace n.uuid) := by
  unfold deleteNetworkNamespace
  rw [getNodeUuid_bind hagent, lookOrNotFound_bind (Net.getNetworkNamespace_eq_ok.2 ⟨hn, rfl⟩)]
  rfl

theorem deleteMacvanInterface_eq (hagent : e.agent = .ok node) (hi : i ∈ s.ifaces)
    {info : Types.MACVLANKind} (hk : i.kind = .macvlan info) :
    deleteMacvanInterface e i.uuid s = .ok i (s.removeInterface i.uuid) := by
  unfold deleteMacvanInterface
  rw [getNodeUuid_bind hagent, look_bind (Net.getInterface_eq_ok.2 ⟨hi, rfl⟩)]
  simp only [hk]
  rfl

theorem deleteVirtualInterfaceInNamespace_eq (hagent : e.agent = .ok node) (hi : i ∈ s.ifaces)
    (hn : n ∈ s.netns) (hns : i.netNs = some n.uuid) (hmem : i.uuid ∈ n.interfaces) :
    deleteVirtualInterfaceInNamespace e i.uuid n.uuid s =
      .ok i (((s.removePair i).addNetworkNamespace
        { n with interfaces := n.interfaces.erase i.uuid }).removeInterface i.uuid) := by
  unfold deleteVirtualInterfaceInNamespace
  rw [getNodeUuid_bind hagent, look_bind (Net.getNetworkNamespace_eq_ok.2 ⟨hn, rfl⟩),
    look_bind (Net.getInterface_eq_ok.2 ⟨hi, rfl⟩), if_pos ⟨hns, hmem⟩]
  rfl

theorem bindInterfaceToConnectionPoint_eq (hagent : e.agent = .ok node) (hi : i ∈ s.ifaces)
    (hcp : cp ∈ s.cps) :
    bindInterfaceToConnectionPoint e i.uuid cp.uuid s =
      .ok { i with netNs := some cp.netNs } (s.addInterface { i with netNs := some cp.netNs }) := by
  unfold bindInterfaceToConnectionPoint update
  rw [getNodeUuid_bind hagent, look_bind (Net.getConnectionPoint_eq_ok.2 ⟨hcp, rfl⟩),
    look_bind (Net.getInterface_eq_ok.2 ⟨hi, rfl⟩)]
  rfl

theorem moveInterfaceInfoNamespace_eq (hagent : e.agent = .ok node) (hi : i ∈ s.ifaces)
    (hn : n ∈ s.netns) :
    moveInterfaceInfoNamespace e i.uuid n.uuid s = .ok { i with netNs := some n.uuid }
      ((s.addInterface { i with netNs := some n.uuid }).addNetworkNamespace
        { n with interfaces := n.interfaces ++ [i.uuid] }) := by
  unfold moveInterfaceInfoNamespace
  rw [getNodeUuid_bind hagent, look_bind (Net.getInterface_eq_ok.2 ⟨hi, rfl⟩),
    look_bind (Net.getNetworkNamespace_eq_ok.2 ⟨hn, rfl⟩)]
  rfl

theorem moveInterfaceIntoDefaultNamespace_eq (hagent : e.agent = .ok node) (hi : i ∈ s.ifaces)
    (hn : n ∈ s.netns) (hns : i.netNs = some n.uuid) (hmem : i.uuid ∈ n.interfaces) :
    moveInterfaceIntoDefaultNamespace e i.uuid s = .ok { i with netNs := none }
      ((s.addInterface { i with netNs := none }).addNetworkNamespace
        { n with interfaces := n.interfaces.erase i.uuid }) := by
  have hget : (s.addInterface { i with netNs := none }).getNetworkNamespace n.uuid = .ok n :=
    Net.getNetworkNamespace_eq_ok.2 ⟨hn, rfl⟩
  unfold moveInterfaceIntoDefaultNamespace
  rw [getNodeUuid_bind hagent, look_bind (Net.getInterface_eq_ok.2 ⟨hi, rfl⟩)]
  simp only [hns]
  change (look _ >>= _) _ = _
  rw [look_bind hget, if_pos hmem]
  rfl

theorem attachInterfaceToBridge_eq (hagent : e.agent = .ok node) (hi : i ∈ s.ifaces)
    (hb : b ∈ s.ifaces) {info : Types.BridgeKind} (hk : b.kind = .bridge info) :
    attachInterfaceToBridge e i.uuid b.uuid s = .ok { i with parent := some b.uuid }
      ((s.addInterface { i with parent := some b.uuid }).addInterface
        { b with kind := .bridge ⟨info.childs ++ [i.uuid]⟩ }) := by
  have hget : s.getInterface b.uuid = .ok b := Net.getInterface_eq_ok.2 ⟨hb, rfl⟩
  unfold attachInterfaceToBridge
  rw [getNodeUuid_bind hagent, look_bind (Net.getInterface_eq_ok.2 ⟨hi, rfl⟩), look_bind hget]
  simp only [hk]
  rw [look_bind hget]
  rfl

end Answers

/-! ### A plugin next to an agent that answers -/

theorem le_foldr_max {l : List Uuid} {u : Uuid} (h : u ∈ l) : u ≤ l.foldr max 0 := by
  induction l with
  | nil => cases h
  | cons v l ih =>
    rcases List.mem_cons.1 h with rfl | h
    · exact le_max_left _ _
    · exact (ih h).trans (le_max_right _ _)

def Env.inOrder : Env where
  agent := .ok 0
  draw l := l.foldr max 0 + 1
  fresh _ h := absurd (le_foldr_max h) (Nat.not_succ_le_self _)
  alphanumeric := "k3Xb81Qz"

def Net.blank : Net where
  vnets := Table.empty
  cps := Table.empty
  ifaces := Table.empty
  netns := Table.empty
  globalVnets := Table.empty
  globalIfaces := Table.empty
  issued := []

theorem Net.blank_initial : Net.blank.Initial :=
  ⟨rfl, rfl, rfl, rfl, fun _ hg => absurd hg (Table.not_mem_empty _)⟩

def Net.play (l : List Op) : Net := Net.blank.run (l.map fun op => (Env.inOrder, op))

theorem Net.play_reachable (l : List Op) : (Net.play l).Reachable :=
  ⟨Net.blank, _, Net.blank_initial, rfl⟩

end DummyNetwork

end Fog05
