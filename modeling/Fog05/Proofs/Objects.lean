import Fog05.Conc.Frame
import Fog05.Proofs.Membership

/-! The families of network objects: what an operation may do to the records it does not
name, and how creating, getting and deleting an object agree. -/

namespace Fog05

open Conc

namespace DummyNetwork

variable {e : Env} {s s' s'' : Net} {touched : List Uuid}

/-! ### What an operation leaves alone -/

structure Net.Frame (s s' : Net) (touched : List Uuid) : Prop where
  issued : s.issued ⊆ s'.issued
  cps : s.cps.Frame s'.cps touched s.issued
  ifaces : s.ifaces.Frame s'.ifaces touched s.issued
  netns : s.netns.Frame s'.netns touched s.issued

namespace Net.Frame

theorem same (h : s.Same s') : s.Frame s' touched where
  issued := h.issued
  cps := by rw [h.cps]; exact Table.Frame.refl _
  ifaces := by rw [h.ifaces]; exact Table.Frame.refl _
  netns := by rw [h.netns]; exact Table.Frame.refl _

theorem trans (h : s.Frame s' touched) (h' : s'.Frame s'' touched) : s.Frame s'' touched where
  issued := List.Subset.trans h.issued h'.issued
  cps := h.cps.trans h'.cps h.issued
  ifaces := h.ifaces.trans h'.ifaces h.issued
  netns := h.netns.trans h'.netns h.issued

theorem addInterface {i : VirtualInterface} (ht : i.uuid ∈ touched)
    (hold : ∃ j ∈ s.ifaces, j.uuid = i.uuid) : s.Frame (s.addInterface i) touched where
  issued := List.Subset.refl _
  cps := Table.Frame.refl _
  ifaces := Table.Frame.put ht fun _ => hold
  netns := Table.Frame.refl _

theorem addInterfaces {i j : VirtualInterface} (hi : i.uuid ∈ touched) (hj : j.uuid ∈ touched)
    (hiold : ∃ k ∈ s.ifaces, k.uuid = i.uuid) (hjold : ∃ k ∈ s.ifaces, k.uuid = j.uuid) :
    s.Frame ((s.addInterface i).addInterface j) touched :=
  (addInterface hi hiold).trans (addInterface hj (Table.exists_mem_put hjold i))

theorem removeInterface {u : Uuid} (hu : u ∈ touched) : s.Frame (s.removeInterface u) touched where
  issued := List.Subset.refl _
  cps := Table.Frame.refl _
  ifaces := Table.Frame.erase hu
  netns := Table.Frame.refl _

theorem removePair {i : VirtualInterface} (ht : ∀ u, i.pair? = some u → u ∈ touched) :
    s.Frame (s.removePair i) touched := by
  unfold Net.removePair
  split
  · next pair hp => exact removeInterface (ht pair hp)
  · exact same (Net.Same.refl s)

theorem addNetworkNamespace {n m : Types.NetworkNamespace} (hn : n ∈ s.netns)
    (hu : m.uuid = n.uuid) (ht : n.uuid ∈ touched) :
    s.Frame (s.addNetworkNamespace m) touched where
  issued := List.Subset.refl _
  cps := Table.Frame.refl _
  ifaces := Table.Frame.refl _
  netns := Table.Frame.put (hu ▸ ht) fun _ => ⟨n, hn, hu.symm⟩

theorem made {netNs : Option Uuid} {l : List VirtualInterface} {issued : List Uuid}
    (h : Made s.issued netNs l issued) :
    s.Frame { s with ifaces := l.foldl Table.put s.ifaces, issued } touched where
  issued := by
    cases h with
    | alone _ _ _ => exact List.subset_cons_self _ _
    | pair _ _ => exact fun u hu => by simp [hu]
  cps := Table.Frame.refl _
  ifaces := Table.Frame.foldl_putNew fun i hi => (Wired.made_fresh h i hi).1
  netns := Table.Frame.refl _

end Net.Frame

/-- An operation leaves alone what it does not touch, and brings nothing back. -/
theorem Effect.frame {op : Op} (he : Effect e s op s') : s.Frame s' (op.touched s) := by
  cases he with
  | same hs => exact .same hs
  | cpMade hu _ hsub _ _ =>
    exact ⟨hsub, Table.Frame.putNew hu, Table.Frame.refl _, Table.Frame.refl _⟩
  | cpDeleted =>
    refine ⟨List.Subset.refl _, Table.Frame.erase ?_, Table.Frame.refl _, Table.Frame.refl _⟩
    simp [Op.touched]
  | nsMade hu _ =>
    exact ⟨List.subset_cons_self _ _, Table.Frame.refl _, Table.Frame.refl _,
      Table.Frame.putNew hu⟩
  | nsDeleted =>
    refine ⟨List.Subset.refl _, Table.Frame.refl _, Table.Frame.refl _, Table.Frame.erase ?_⟩
    simp [Op.touched]
  | made h => exact .made h
  | @madeIn intf n l issued hn h =>
    have hns : s.Frame (s.addNetworkNamespace
        { n with interfaces := n.interfaces ++ l.map fun i => i.uuid }) [n.uuid] :=
      .addNetworkNamespace hn rfl (List.mem_singleton_self _)
    exact hns.trans (.made h)
  | @deleted i _ _ hi =>
    have hpair : s.Frame (s.removePair i) (i.uuid :: s.refs VirtualInterface.pair? i.uuid) :=
      .removePair fun u hu => List.mem_cons_of_mem _ (Net.mem_refs hi hu)
    exact hpair.trans (.removeInterface List.mem_cons_self)
  | macvanDeleted _ _ _ => exact .removeInterface (List.mem_singleton_self _)
  | bridgeDeleted _ => exact .removeInterface (List.mem_singleton_self _)
  | @deletedIn i n _ _ hi hn _ _ =>
    have hpair : s.Frame (s.removePair i)
        (i.uuid :: n.uuid :: s.refs VirtualInterface.pair? i.uuid) :=
      .removePair fun u hu =>
        List.mem_cons_of_mem _ (List.mem_cons_of_mem _ (Net.mem_refs hi hu))
    have hn' : n ∈ (s.removePair i).netns := by rwa [Wired.removePair_netns]
    refine Net.Frame.trans ?_ (.removeInterface List.mem_cons_self)
    exact hpair.trans (.addNetworkNamespace hn' rfl (List.mem_cons_of_mem _ List.mem_cons_self))
  | @bound i _ _ _ hi _ => exact .addInterface (List.mem_singleton_self _) ⟨i, hi, rfl⟩
  | @retouched _ i _ hi ht hr => exact .addInterface (hr.uuid ▸ ht) ⟨i, hi, hr.uuid.symm⟩
  | @entered i n _ _ hi hn =>
    have hin : s.Frame (s.addInterface { i with netNs := some n.uuid }) [i.uuid, n.uuid] :=
      .addInterface List.mem_cons_self ⟨i, hi, rfl⟩
    exact hin.trans (.addNetworkNamespace hn rfl (by simp))
  | @left i n hi hn hns _ =>
    have hout : s.Frame (s.addInterface { i with netNs := none })
        (i.uuid :: s.refs (fun i => i.netNs) i.uuid) :=
      .addInterface List.mem_cons_self ⟨i, hi, rfl⟩
    exact hout.trans (.addNetworkNamespace hn rfl (List.mem_cons_of_mem _ (Net.mem_refs hi hns)))
  | @leftNone i _ hi _ _ => exact .addInterface List.mem_cons_self ⟨i, hi, rfl⟩
  | @attached i b _ _ _ hi hb _ =>
    exact .addInterfaces List.mem_cons_self (by simp [Op.touched]) ⟨i, hi, rfl⟩ ⟨b, hb, rfl⟩
  | @detached i b _ hi hb hp _ _ =>
    exact .addInterfaces List.mem_cons_self (List.mem_cons_of_mem _ (Net.mem_refs hi hp))
      ⟨i, hi, rfl⟩ ⟨b, hb, rfl⟩

/-! ### Families -/

/-- The tables that network objects are kept in. -/
inductive Shelf
  | connectionPoints
  | interfaces
  | namespaces

namespace Shelf

abbrev Row : Shelf → Type
  | connectionPoints => Types.ConnectionPoint
  | interfaces => VirtualInterface
  | namespaces => Types.NetworkNamespace

def uuid : (k : Shelf) → k.Row → Uuid
  | connectionPoints => fun cp => cp.uuid
  | interfaces => fun i => i.uuid
  | namespaces => fun n => n.uuid

/-- What goes with an object: itself, and the pair of a `VETH`. -/
def gone : (k : Shelf) → k.Row → List Uuid
  | connectionPoints => fun cp => [cp.uuid]
  | interfaces => fun i => i.uuid :: i.pair?.toList
  | namespaces => fun n => [n.uuid]

theorem mem_gone (k : Shelf) (x : k.Row) : k.uuid x ∈ k.gone x := by
  cases k <;> exact List.mem_cons_self

end Shelf

def Net.shelf (s : Net) : (k : Shelf) → Table k.uuid
  | .connectionPoints => s.cps
  | .interfaces => s.ifaces
  | .namespaces => s.netns

/-- The families of network objects, with what their creation asks for. -/
inductive Family
  | connectionPoint
  | virtualInterface (intf : Types.VirtualInterfaceConfig)
  | virtualBridge (brName : String)
  | macvlanInterface (masterIntf : String)
  | networkNamespace

namespace Family

abbrev shelf : Family → Shelf
  | connectionPoint => .connectionPoints
  | virtualInterface _ | virtualBridge _ | macvlanInterface _ => .interfaces
  | networkNamespace => .namespaces

def create (e : Env) : (f : Family) → NetM f.shelf.Row
  | connectionPoint => createConnectionPoint e
  | virtualInterface intf => createVirtualInterface e intf
  | virtualBridge brName => createVirtualBridge e brName
  | macvlanInterface masterIntf => createMacvlanInterface e masterIntf
  | networkNamespace => createNetworkNamespace e

/-- A `MACVLAN` has no get of its own. -/
def get (e : Env) : (f : Family) → Uuid → NetM f.shelf.Row
  | connectionPoint => getConnectionPoint e
  | virtualInterface _ | macvlanInterface _ => getVirtualInterface e
  | virtualBridge _ => getVirtualBridge e
  | networkNamespace => getNetworkNamespace e

abbrev Answer : Family → Type
  | connectionPoint => Uuid
  | virtualInterface _ | virtualBridge _ | macvlanInterface _ => VirtualInterface
  | networkNamespace => Types.NetworkNamespace

/-- How `delete` returns an object: a connection point by its uuid. -/
def answer : (f : Family) → f.shelf.Row → f.Answer
  | connectionPoint => fun cp => cp.uuid
  | virtualInterface _ | virtualBridge _ | macvlanInterface _ | networkNamespace => fun x => x

def delete (e : Env) : (f : Family) → Uuid → NetM f.Answer
  | connectionPoint => deleteConnectionPoint e
  | virtualInterface _ => deleteVirtualInterface e
  | virtualBridge _ => deleteVirtualBridge e
  | macvlanInterface _ => deleteMacvanInterface e
  | networkNamespace => deleteNetworkNamespace e

/-- The interfaces of another kind, for the families with a kind of their own. -/
def Foreign : Family → VirtualInterface → Prop
  | virtualBridge _, i => ∀ info, i.kind ≠ .bridge info
  | macvlanInterface _, i => ∀ info, i.kind ≠ .macvlan info
  | _, _ => False

end Family

/-- Along these operations `x` is neither modified nor deleted: one that touches its record
leaves it as it is. -/
def Spared (s : Net) (k : Shelf) (x : k.Row) (l : List (Env × Op)) : Prop :=
  ∀ l₁ step l₂, l = l₁ ++ step :: l₂ → k.uuid x ∈ step.2.touched (s.run l₁) →
    x ∈ (step.2.after step.1 (s.run l₁)).shelf k

/-- `s'` has what `s` has except `x`, with its pair for a `VETH`. -/
structure Without (s s' : Net) (k : Shelf) (x : k.Row) : Prop where
  here : ∀ a, a ∈ s'.shelf k ↔ a ∈ s.shelf k ∧ k.uuid a ∉ k.gone x
  elsewhere : ∀ k', k' ≠ k → s'.shelf k' = s.shelf k'
  vnets : s'.vnets = s.vnets
  issued : s'.issued = s.issued

/-- What creating an object of a family in `s`, getting it and deleting it owe each other. -/
structure Agrees (f : Family) (s : Net) : Prop where
  get : ∀ e x s₁ l e' node, f.create e s = .ok x s₁ → Spared s₁ f.shelf x l →
    e'.agent = .ok node → f.get e' (f.shelf.uuid x) (s₁.run l) = .ok x (s₁.run l)
  delete : ∀ e x s₁ l e' node, f.create e s = .ok x s₁ → Spared s₁ f.shelf x l →
    e'.agent = .ok node → ∃ s₂,
      f.delete e' (f.shelf.uuid x) (s₁.run l) = .ok (f.answer x) s₂ ∧
      Without (s₁.run l) s₂ f.shelf x ∧
      ∀ l' e'', ∃ err, f.delete e'' (f.shelf.uuid x) (s₂.run l') = .error err (s₂.run l')
  foreign : ∀ i ∈ s.ifaces, f.Foreign i → ∀ e node, e.agent = .ok node →
    f.delete e i.uuid s = .error .wrongKind s

/-! ### What is kept along a run -/

theorem Net.Frame.shelf (h : s.Frame s' touched) :
    ∀ k, (s.shelf k).Frame (s'.shelf k) touched s.issued
  | .connectionPoints => h.cps
  | .interfaces => h.ifaces
  | .namespaces => h.netns

theorem frame_after (op : Op) : s.Frame (op.after e s) (op.touched s) := (effect_after op).frame

variable {k : Shelf} {l : List (Env × Op)}

theorem stored_run {x : k.Row} (hx : x ∈ s.shelf k) (hu : k.uuid x ∈ s.issued)
    (hl : Spared s k x l) : x ∈ (s.run l).shelf k := by
  induction l generalizing s with
  | nil => exact hx
  | cons step l ih =>
    have hframe : s.Frame (step.2.after step.1 s) (step.2.touched s) := frame_after step.2
    apply ih (s := step.2.after step.1 s)
    · by_cases ht : k.uuid x ∈ step.2.touched s
      · exact hl [] step l rfl ht
      · exact (hframe.shelf k).kept x hx hu ht
    · exact hframe.issued hu
    · exact fun l₁ step' l₂ hl' => hl (step :: l₁) step' l₂ (congrArg (step :: ·) hl')

/-- No uuid that has been given out comes back. -/
theorem absent_run {u : Uuid} (hu : u ∈ s.issued) (ha : ∀ a ∈ s.shelf k, k.uuid a ≠ u) :
    ∀ a ∈ (s.run l).shelf k, k.uuid a ≠ u := by
  induction l generalizing s with
  | nil => exact ha
  | cons step l ih =>
    have hframe : s.Frame (step.2.after step.1 s) (step.2.touched s) := frame_after step.2
    apply ih (s := step.2.after step.1 s) (hframe.issued hu)
    intro a ha' hau
    obtain ⟨b, hb, hba⟩ := (hframe.shelf k).old a ha' (hau ▸ hu)
    exact ha b hb (hba.trans hau)

theorem issued_run (l : List (Env × Op)) : s.issued ⊆ (s.run l).issued := by
  induction l generalizing s with
  | nil => exact List.Subset.refl _
  | cons step l ih => exact List.Subset.trans (frame_after (e := step.1) step.2).issued ih

/-! ### Creating -/

namespace Family

/-- The kind of interface that a family is for. -/
def Own : (f : Family) → f.shelf.Row → Prop
  | macvlanInterface _ => fun i => ∃ info, i.kind = .macvlan info
  | _ => fun _ => True

/-- What is created is stored under a uuid that has been given out. -/
structure Created (f : Family) (x : f.shelf.Row) (s : Net) : Prop where
  stored : x ∈ s.shelf f.shelf
  issued : f.shelf.uuid x ∈ s.issued
  own : f.Own x

theorem ok_getNodeUuid {β : Type} {P : β → Net → Prop} {k : Uuid → NetM β}
    (h : ∀ n, Post (k n) s fun o s' => ∀ x, o = .ok x → P x s') :
    Post (getNodeUuid e >>= k) s fun o s' => ∀ x, o = .ok x → P x s' := by
  apply post_getNodeUuid_bind
  · exact fun n _ => h n
  · intro err _ x hx
    cases hx

theorem createConnectionPoint_post : Post (createConnectionPoint e) s fun o s' =>
    ∀ cp, o = .ok cp → cp ∈ s'.cps ∧ cp.uuid ∈ s'.issued := by
  apply ok_getNodeUuid
  intro _
  apply post_newUuid_bind
  intro u _
  apply post_look_bind
  · intro o _
    cases o with
    | error err =>
      intro cp hcp
      cases hcp
      refine ⟨Table.mem_put_self _ _, ?_⟩
      simp [Net.addConnectionPoint]
    | ok old =>
      intro cp hcp
      cases hcp
  · intro err _ cp hcp
    cases hcp

theorem createVirtualInterface_post {intf : Types.VirtualInterfaceConfig} :
    Post (createVirtualInterface e intf) s fun o s' =>
      ∀ i, o = .ok i → i ∈ s'.ifaces ∧ i.uuid ∈ s'.issued := by
  apply ok_getNodeUuid
  intro _
  apply post_newInterfaces_bind
  intro i l issued hl
  apply post_write_bind
  rw [foldl_addInterface]
  intro j hj
  cases hj
  cases hl with
  | alone _ _ _ => exact ⟨Table.mem_put_self _ _, List.mem_cons_self⟩
  | @pair u v _ _ _ hv =>
    have huv : u ≠ v := fun huv => hv (huv ▸ List.mem_cons_self)
    exact ⟨Table.mem_put.2 (Or.inr ⟨Table.mem_put_self _ _, huv⟩),
      List.mem_cons_of_mem _ List.mem_cons_self⟩

theorem createAlone_post {name : String} {kind : Types.VirtualInterfaceKind} :
    Post (createAlone e name kind) s fun o s' =>
      ∀ i, o = .ok i → i ∈ s'.ifaces ∧ i.uuid ∈ s'.issued ∧ i.kind = kind := by
  apply ok_getNodeUuid
  intro _
  apply post_newUuid_bind
  intro u _ i hi
  cases hi
  exact ⟨Table.mem_put_self _ _, List.mem_cons_self, rfl⟩

theorem createNetworkNamespace_post : Post (createNetworkNamespace e) s fun o s' =>
    ∀ n, o = .ok n → n ∈ s'.netns ∧ n.uuid ∈ s'.issued := by
  apply ok_getNodeUuid
  intro _
  apply post_newUuid_bind
  intro u _ n hn
  cases hn
  exact ⟨Table.mem_put_self _ _, List.mem_cons_self⟩

theorem created {f : Family} {x : f.shelf.Row} (h : f.create e s = .ok x s') :
    f.Created x s' := by
  cases f with
  | connectionPoint =>
    obtain ⟨hx, hu⟩ := createConnectionPoint_post.of_ok h x rfl
    exact ⟨hx, hu, trivial⟩
  | virtualInterface intf =>
    obtain ⟨hx, hu⟩ := createVirtualInterface_post.of_ok h x rfl
    exact ⟨hx, hu, trivial⟩
  | virtualBridge brName =>
    obtain ⟨hx, hu, -⟩ := createAlone_post.of_ok h x rfl
    exact ⟨hx, hu, trivial⟩
  | macvlanInterface masterIntf =>
    obtain ⟨hx, hu, hkind⟩ := createAlone_post.of_ok h x rfl
    exact ⟨hx, hu, _, hkind⟩
  | networkNamespace =>
    obtain ⟨hx, hu⟩ := createNetworkNamespace_post.of_ok h x rfl
    exact ⟨hx, hu, trivial⟩

/-! ### Getting and deleting -/

variable {f : Family} {x : f.shelf.Row} {node : Uuid}

theorem get_eq (hf : ∀ brName, f ≠ .virtualBridge brName) (hx : x ∈ s.shelf f.shelf)
    (hagent : e.agent = .ok node) : f.get e (f.shelf.uuid x) s = .ok x s := by
  cases f with
  | virtualBridge brName => exact absurd rfl (hf brName)
  | connectionPoint =>
    exact (getNodeUuid_bind hagent _).trans (look_eq (Net.getConnectionPoint_eq_ok.2 ⟨hx, rfl⟩))
  | virtualInterface _ | macvlanInterface _ =>
    exact (getNodeUuid_bind hagent _).trans (look_eq (Net.getInterface_eq_ok.2 ⟨hx, rfl⟩))
  | networkNamespace =>
    exact (getNodeUuid_bind hagent _).trans (look_eq (Net.getNetworkNamespace_eq_ok.2 ⟨hx, rfl⟩))

theorem without_removePair {i : VirtualInterface} :
    Without s ((s.removePair i).removeInterface i.uuid) .interfaces i where
  here _ := Wired.mem_removed
  elsewhere k hk := by
    cases k with
    | interfaces => exact absurd rfl hk
    | connectionPoints =>
      unfold Net.removePair
      split <;> rfl
    | namespaces => exact Wired.removePair_netns
  vnets := by
    unfold Net.removePair
    split <;> rfl
  issued := by
    unfold Net.removePair
    split <;> rfl

theorem without_removeConnectionPoint {cp : Types.ConnectionPoint} :
    Without s (s.removeConnectionPoint cp.uuid) .connectionPoints cp where
  here a := by
    change a ∈ s.cps.erase cp.uuid ↔ a ∈ s.cps ∧ a.uuid ∉ [cp.uuid]
    simp
  elsewhere k hk := by
    cases k with
    | connectionPoints => exact absurd rfl hk
    | interfaces | namespaces => rfl
  vnets := rfl
  issued := rfl

theorem without_removeNetworkNamespace {n : Types.NetworkNamespace} :
    Without s (s.removeNetworkNamespace n.uuid) .namespaces n where
  here a := by
    change a ∈ s.netns.erase n.uuid ↔ a ∈ s.netns ∧ a.uuid ∉ [n.uuid]
    simp
  elsewhere k hk := by
    cases k with
    | namespaces => exact absurd rfl hk
    | interfaces | connectionPoints => rfl
  vnets := rfl
  issued := rfl

theorem delete_eq (hf : ∀ brName, f ≠ .virtualBridge brName) (hx : x ∈ s.shelf f.shelf)
    (hown : f.Own x) (hagent : e.agent = .ok node) :
    ∃ s₂, f.delete e (f.shelf.uuid x) s = .ok (f.answer x) s₂ ∧ Without s s₂ f.shelf x := by
  cases f with
  | virtualBridge brName => exact absurd rfl (hf brName)
  | connectionPoint => exact ⟨_, deleteConnectionPoint_eq hagent hx, without_removeConnectionPoint⟩
  | virtualInterface intf => exact ⟨_, deleteVirtualInterface_eq hagent hx, without_removePair⟩
  | macvlanInterface master =>
    obtain ⟨info, hkind⟩ := hown
    have hpair : x.pair? = none := by simp [VirtualInterface.pair?, hkind]
    have halone : s.removePair x = s := by simp [Net.removePair, hpair]
    refine ⟨_, deleteMacvanInterface_eq hagent hx hkind, ?_⟩
    have hwithout := without_removePair (s := s) (i := x)
    rwa [halone] at hwithout
  | networkNamespace =>
    exact ⟨_, deleteNetworkNamespace_eq hagent hx, without_removeNetworkNamespace⟩

theorem exists_error_getNodeUuid {β : Type} {k : Uuid → NetM β}
    (h : ∀ n, ∃ err, k n s = .error err s) : ∃ err, (getNodeUuid e >>= k) s = .error err s := by
  cases hagent : e.agent with
  | ok n =>
    obtain ⟨err, hk⟩ := h n
    exact ⟨err, (getNodeUuid_bind hagent k).trans hk⟩
  | error err => exact ⟨err, by simp [getNodeUuid, look, hagent, bind, EStateM.bind]⟩

theorem delete_absent (hf : ∀ brName, f ≠ .virtualBridge brName) {u : Uuid}
    (ha : ∀ a ∈ s.shelf f.shelf, f.shelf.uuid a ≠ u) :
    ∃ err, f.delete e u s = .error err s := by
  cases f with
  | virtualBridge brName => exact absurd rfl (hf brName)
  | connectionPoint =>
    have hnone : s.getConnectionPoint u = .error .notFound := single_key_eq_notFound ha
    exact exists_error_getNodeUuid fun _ => ⟨.notFound, lookOrNotFound_bind_error hnone _⟩
  | virtualInterface intf =>
    have hnone : s.getInterface u = .error .notFound := single_key_eq_notFound ha
    exact exists_error_getNodeUuid fun _ => ⟨.notFound, lookOrNotFound_bind_error hnone _⟩
  | macvlanInterface master =>
    have hnone : s.getInterface u = .error .notFound := single_key_eq_notFound ha
    exact exists_error_getNodeUuid fun _ => ⟨.notFound, look_bind_error hnone _⟩
  | networkNamespace =>
    have hnone : s.getNetworkNamespace u = .error .notFound := single_key_eq_notFound ha
    exact exists_error_getNodeUuid fun _ => ⟨.notFound, lookOrNotFound_bind_error hnone _⟩

theorem delete_foreign (hf : ∀ brName, f ≠ .virtualBridge brName) {i : VirtualInterface}
    (hi : i ∈ s.ifaces) (hforeign : f.Foreign i) (hagent : e.agent = .ok node) :
    f.delete e i.uuid s = .error .wrongKind s := by
  cases f with
  | virtualBridge brName => exact absurd rfl (hf brName)
  | macvlanInterface master =>
    change deleteMacvanInterface e i.uuid s = _
    unfold deleteMacvanInterface
    rw [getNodeUuid_bind hagent, look_bind (Net.getInterface_eq_ok.2 ⟨hi, rfl⟩)]
    cases hkind : i.kind with
    | macvlan info => exact absurd hkind (hforeign info)
    | _ => rfl
  | connectionPoint | virtualInterface _ | networkNamespace => exact False.elim hforeign

/-- A bridge can only be deleted under a uuid that an interface of the global store has. -/
theorem exists_of_deleteVirtualBridge {u : Uuid} {i : VirtualInterface}
    (h : deleteVirtualBridge e u s = .ok i s') : ∃ g ∈ s.globalIfaces, g.uuid = u := by
  by_contra hnone
  have hget : s.globalGetInterface u = .error .notFound :=
    single_key_eq_notFound fun g hg hgu => hnone ⟨g, hg, hgu⟩
  obtain ⟨err, herr⟩ : ∃ err, deleteVirtualBridge e u s = .error err s :=
    exists_error_getNodeUuid fun _ => ⟨.notFound, look_bind_error hget _⟩
  rw [herr] at h
  cases h

end Family

/-- Creating, getting and deleting agree for all families but the bridges. -/
theorem agrees_iff_not_bridge (h : s.Reachable) (f : Family) :
    Agrees f s ↔ ∀ brName, f ≠ .virtualBridge brName := by
  constructor
  · rintro hagrees brName rfl
    have hsound : Sound ((Op.createVirtualBridge brName).after Env.inOrder s) :=
      h.sound.step (effect_after (Op.createVirtualBridge brName))
    obtain ⟨s₂, hdelete, -⟩ := hagrees.delete Env.inOrder _ _ [] Env.inOrder 0 rfl
      (fun l₁ step l₂ hnil => by simp at hnil) rfl
    obtain ⟨g, hg, hgu⟩ := Family.exists_of_deleteVirtualBridge hdelete
    exact hsound.apart g hg _ (Table.mem_put_self _ _) hgu.symm
  · intro hf
    constructor
    · intro e x s₁ l e' node hcreate hspared hagent
      have hx : f.Created x s₁ := Family.created hcreate
      exact Family.get_eq hf (stored_run hx.stored hx.issued hspared) hagent
    · intro e x s₁ l e' node hcreate hspared hagent
      have hx : f.Created x s₁ := Family.created hcreate
      obtain ⟨s₂, hdelete, hwithout⟩ :=
        Family.delete_eq hf (stored_run hx.stored hx.issued hspared) hx.own hagent
      refine ⟨s₂, hdelete, hwithout, fun l' e'' => ?_⟩
      have hissued : f.shelf.uuid x ∈ s₂.issued := hwithout.issued ▸ issued_run l hx.issued
      refine Family.delete_absent hf (absent_run hissued fun a ha hau => ?_)
      exact ((hwithout.here a).1 ha).2 (hau ▸ f.shelf.mem_gone x)
    · intro i hi hforeign e node hagent
      exact Family.delete_foreign hf hi hforeign hagent

theorem macvlan_agrees :
    Agrees (.macvlanInterface "eth0") (Net.play [.createVirtualBridge "br0"]) := by
  refine (agrees_iff_not_bridge (Net.play_reachable _) _).2 ?_
  intro brName h
  cases h

/-- A bridge that has just been created is not found by its delete. -/
theorem not_always_agrees : ¬ ∀ (s : Net) (f : Family), s.Reachable → Agrees f s := by
  intro h
  have hagrees := h (Net.play []) (.virtualBridge "br0") (Net.play_reachable [])
  obtain ⟨s₂, hdelete, -⟩ := hagrees.delete Env.inOrder _ _ [] Env.inOrder 0 rfl
    (fun l₁ step l₂ hnil => by simp at hnil) rfl
  have hnotFound : deleteVirtualBridge Env.inOrder 1 (Net.play [.createVirtualBridge "br0"]) =
      .error .notFound (Net.play [.createVirtualBridge "br0"]) := rfl
  cases hnotFound.symm.trans hdelete

end DummyNetwork

end Fog05
