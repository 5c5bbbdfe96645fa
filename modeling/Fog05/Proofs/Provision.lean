import Fog05.Proofs.Host
import Fog05.Proofs.Objects

/-! What the hypervisor plugin has the networking plugin of the repository make for an
instance, and what deleting it again leaves. -/

namespace Fog05

open Conc

namespace DummyNetwork

variable {e : Env} {m₀ m m' : Net} {q : NetRequest} {o : Except FError NetObject}
  {nss points : Set Uuid} {ends : List (Uuid × Uuid)} {u v c ns : Uuid}

/-! ### Calls as operations -/

/-- The operation that a call asks for. -/
def request : NetRequest → Op
  | .createNetworkNamespace => .createNetworkNamespace
  | .createConnectionPoint => .createConnectionPoint
  | .createVirtualInterfaceInNamespace ifName netns =>
      .createVirtualInterfaceInNamespace ⟨ifName, .veth⟩ netns
  | .bindInterfaceToConnectionPoint intf cp => .bindInterfaceToConnectionPoint intf cp
  | .moveInterfaceIntoDefaultNamespace intf => .moveInterfaceIntoDefaultNamespace intf
  | .deleteNetworkNamespace netns => .deleteNetworkNamespace netns
  | .deleteVirtualInterface intf => .deleteVirtualInterface intf
  | .deleteConnectionPoint cp => .deleteConnectionPoint cp

theorem serve_effect (q : NetRequest) :
    Post (DummyNetwork.serve e q) m fun _ m' => Effect e m (request q) m' := by
  have hmap : ∀ (op : Op) (f : op.Ret → NetObject),
      Post (op.perform e >>= fun x => pure (f x)) m fun _ m' => Effect e m op m' :=
    fun op f => (perform_effect op).bind (fun _ _ h => h) fun _ _ h => h
  cases q with
  | createNetworkNamespace => exact hmap .createNetworkNamespace _
  | createConnectionPoint => exact hmap .createConnectionPoint _
  | createVirtualInterfaceInNamespace ifName netns =>
    exact hmap (.createVirtualInterfaceInNamespace _ netns) _
  | bindInterfaceToConnectionPoint intf cp =>
    exact hmap (.bindInterfaceToConnectionPoint intf cp) _
  | moveInterfaceIntoDefaultNamespace intf =>
    exact hmap (.moveInterfaceIntoDefaultNamespace intf) _
  | deleteNetworkNamespace netns => exact hmap (.deleteNetworkNamespace netns) _
  | deleteVirtualInterface intf => exact hmap (.deleteVirtualInterface intf) _
  | deleteConnectionPoint cp => exact hmap (.deleteConnectionPoint cp) _

theorem plugin_serve {Q : Except FError NetObject → Net → Prop}
    (h : (plugin False).serve q m o m')
    (hQ : ∀ e node, e.agent = .ok node → Post (DummyNetwork.serve e q) m Q) : Q o m' := by
  obtain ⟨e, hanswers, hrun⟩ := h
  obtain ⟨node, hagent⟩ := hanswers.resolve_right not_false
  have hpost := hQ e node hagent
  unfold Post at hpost
  cases hserve : DummyNetwork.serve e q m with
  | ok x m₁ =>
    rw [hserve] at hrun hpost
    obtain ⟨rfl, rfl⟩ := hrun
    exact hpost
  | error err m₁ =>
    rw [hserve] at hrun hpost
    obtain ⟨rfl, rfl⟩ := hrun
    exact hpost

section Calls

variable {i : VirtualInterface} {n : Types.NetworkNamespace} {cp : Types.ConnectionPoint}

theorem serve_createNetworkNamespace (h : (plugin False).serve .createNetworkNamespace m o m') :
    ∃ n : Types.NetworkNamespace, n.uuid ∉ m.issued ∧ o = .ok ⟨n.uuid, none⟩ ∧
      m' = { m with netns := m.netns.put n, issued := n.uuid :: m.issued } := by
  apply plugin_serve h
  intro e node hagent
  exact post_bind_of_ok (createNetworkNamespace_eq hagent) ⟨_, e.fresh _, rfl, rfl⟩

theorem serve_createConnectionPoint (hcps : ∀ cp ∈ m.cps, cp.uuid ∈ m.issued)
    (h : (plugin False).serve .createConnectionPoint m o m') :
    ∃ (cp : Types.ConnectionPoint) (issued : List Uuid), cp.uuid ∉ m.issued ∧
      o = .ok ⟨cp.uuid, none⟩ ∧ m' = { m with cps := m.cps.put cp, issued } := by
  apply plugin_serve h
  intro e node hagent
  apply (createConnectionPoint_made hagent hcps).bind
  · rintro cp m₁ ⟨cp', issued, hu, ho, rfl⟩
    cases ho
    exact ⟨cp, issued, hu, rfl, rfl⟩
  · rintro err m₁ ⟨cp', issued, hu, ho, -⟩
    cases ho

theorem serve_createVirtualInterfaceInNamespace {name : String} (hn : n ∈ m.netns)
    (h : (plugin False).serve (.createVirtualInterfaceInNamespace name n.uuid) m o m') :
    ∃ u v name', u ∉ m.issued ∧ v ∉ u :: m.issued ∧ o = .ok ⟨u, some v⟩ ∧
      m' = { m with
        netns := m.netns.put { n with interfaces := n.interfaces ++ [u, v] }
        ifaces := (m.ifaces.put (newInterface u name (some n.uuid) (.veth ⟨v, true⟩))).put
          (newInterface v name' (some n.uuid) (.veth ⟨u, false⟩))
        issued := v :: u :: m.issued } := by
  apply plugin_serve h
  intro e node hagent
  obtain ⟨u, v, name', hu, hv, heq⟩ := createVethInNamespace_eq hagent hn name
  exact post_bind_of_ok heq ⟨u, v, name', hu, hv, rfl, rfl⟩

theorem serve_bindInterfaceToConnectionPoint (hi : i ∈ m.ifaces) (hcp : cp ∈ m.cps)
    (h : (plugin False).serve (.bindInterfaceToConnectionPoint i.uuid cp.uuid) m o m') :
    (∃ x, o = .ok x) ∧ m' = m.addInterface { i with netNs := some cp.netNs } := by
  apply plugin_serve h
  intro e node hagent
  exact post_bind_of_ok (bindInterfaceToConnectionPoint_eq hagent hi hcp) ⟨⟨_, rfl⟩, rfl⟩

theorem serve_moveInterfaceIntoDefaultNamespace (hi : i ∈ m.ifaces) (hn : n ∈ m.netns)
    (hns : i.netNs = some n.uuid) (hmem : i.uuid ∈ n.interfaces)
    (h : (plugin False).serve (.moveInterfaceIntoDefaultNamespace i.uuid) m o m') :
    (∃ x, o = .ok x) ∧ m' = (m.addInterface { i with netNs := none }).addNetworkNamespace
      { n with interfaces := n.interfaces.erase i.uuid } := by
  apply plugin_serve h
  intro e node hagent
  exact post_bind_of_ok (moveInterfaceIntoDefaultNamespace_eq hagent hi hn hns hmem) ⟨⟨_, rfl⟩, rfl⟩

theorem serve_deleteNetworkNamespace (hn : n ∈ m.netns)
    (h : (plugin False).serve (.deleteNetworkNamespace n.uuid) m o m') :
    (∃ x, o = .ok x) ∧ m' = m.removeNetworkNamespace n.uuid := by
  apply plugin_serve h
  intro e node hagent
  exact post_bind_of_ok (deleteNetworkNamespace_eq hagent hn) ⟨⟨_, rfl⟩, rfl⟩

theorem serve_deleteVirtualInterface (hi : i ∈ m.ifaces)
    (h : (plugin False).serve (.deleteVirtualInterface i.uuid) m o m') :
    (∃ x, o = .ok x) ∧ m' = (m.removePair i).removeInterface i.uuid := by
  apply plugin_serve h
  intro e node hagent
  exact post_bind_of_ok (deleteVirtualInterface_eq hagent hi) ⟨⟨_, rfl⟩, rfl⟩

theorem serve_deleteConnectionPoint (hcp : cp ∈ m.cps)
    (h : (plugin False).serve (.deleteConnectionPoint cp.uuid) m o m') :
    (∃ x, o = .ok x) ∧ m' = m.removeConnectionPoint cp.uuid := by
  apply plugin_serve h
  intro e node hagent
  exact post_bind_of_ok (deleteConnectionPoint_eq hagent hcp) ⟨⟨_, rfl⟩, rfl⟩

end Calls

/-! ### What has been made -/

/-- The uuids of the two ends of these pairs. -/
def uuids (ends : List (Uuid × Uuid)) : List Uuid := ends.flatMap fun pair => [pair.1, pair.2]

theorem uuids_concat : uuids (ends ++ [(u, v)]) = uuids ends ++ [u, v] := by
  simp [uuids]

/-- From `m₀` nothing old has been touched; new are the namespaces `nss`, the pairs `ends`
and the connection points `points`. -/
structure Grown (m₀ m : Net) (nss : Set Uuid) (ends : List (Uuid × Uuid)) (points : Set Uuid) :
    Prop where
  sound : Sound m
  frame : m₀.Frame m []
  netns : m.netns.fresh m₀.issued = nss
  ifaces : m.ifaces.fresh m₀.issued = {w | w ∈ uuids ends}
  pairs : ∀ pair ∈ ends, ∃ i ∈ m.ifaces, i.uuid = pair.1 ∧ i.pair? = some pair.2
  nodup : (uuids ends).Nodup
  cps : m.cps.fresh m₀.issued = points

theorem Net.Frame.after {touched : List Uuid} (h : m₀.Frame m []) (h' : m.Frame m' touched)
    (hfresh : ∀ w ∈ touched, w ∉ m₀.issued) : m₀.Frame m' [] where
  issued := List.Subset.trans h.issued h'.issued
  cps := h.cps.comp h'.cps h.issued fun w hw hw' => absurd hw' (hfresh w hw)
  ifaces := h.ifaces.comp h'.ifaces h.issued fun w hw hw' => absurd hw' (hfresh w hw)
  netns := h.netns.comp h'.netns h.issued fun w hw hw' => absurd hw' (hfresh w hw)

namespace Grown

theorem start (hs : Sound m) : Grown m m ∅ [] ∅ where
  sound := hs
  frame := .same (Net.Same.refl m)
  netns := Table.fresh_eq_empty hs.netns
  ifaces := by
    rw [Table.fresh_eq_empty hs.ifaces]
    simp [uuids]
  pairs _ h := absurd h List.not_mem_nil
  nodup := List.nodup_nil
  cps := Table.fresh_eq_empty fun cp hcp => (hs.cps cp hcp).1

variable (h : Grown m₀ m nss ends points)

include h

theorem kept (hserve : (plugin False).serve q m o m')
    (hfresh : ∀ w ∈ (request q).touched m, w ∉ m₀.issued) : Sound m' ∧ m₀.Frame m' [] := by
  obtain ⟨e, he⟩ : ∃ e, Effect e m (request q) m' :=
    plugin_serve (Q := fun _ m' => ∃ e, Effect e m (request q) m') hserve fun e _ _ =>
      (serve_effect q).mono fun _ _ he => ⟨e, he⟩
  exact ⟨h.sound.step he, h.frame.after he.frame hfresh⟩

theorem not_issued_of_end (hv : v ∈ uuids ends) : v ∉ m₀.issued ∧ ∃ i ∈ m.ifaces, i.uuid = v := by
  have hmem : v ∈ {w | w ∈ uuids ends} := hv
  rw [← h.ifaces] at hmem
  exact hmem

theorem not_issued_of_point (hc : c ∈ points) :
    c ∉ m₀.issued ∧ ∃ cp ∈ m.cps, cp.uuid = c := by
  rw [← h.cps] at hc
  exact hc

theorem not_issued_of_ns (hns : ns ∈ nss) : ns ∉ m₀.issued ∧ ∃ n ∈ m.netns, n.uuid = ns := by
  rw [← h.netns] at hns
  exact hns

theorem not_issued (hu : u ∉ m.issued) : u ∉ m₀.issued := fun hu' => hu (h.frame.issued hu')

theorem pairs_put {i j : VirtualInterface} (hi : i ∈ m.ifaces) (huuid : j.uuid = i.uuid)
    (hpair : j.pair? = i.pair?) :
    ∀ pair ∈ ends, ∃ k ∈ m.ifaces.put j, k.uuid = pair.1 ∧ k.pair? = some pair.2 := by
  intro pair hmem
  obtain ⟨k, hk, hku, hkp⟩ := h.pairs pair hmem
  by_cases hkj : k.uuid = j.uuid
  · obtain rfl := Table.eq_of_key hk hi (hkj.trans huuid)
    exact ⟨j, Table.mem_put_self _ _, huuid.trans hku, hpair.trans hkp⟩
  · exact ⟨k, Table.mem_put.2 (Or.inr ⟨hk, hkj⟩), hku, hkp⟩

theorem createNetworkNamespace (hserve : (plugin False).serve .createNetworkNamespace m o m') :
    ∃ ns, o = .ok ⟨ns, none⟩ ∧ Grown m₀ m' (insert ns nss) ends points := by
  obtain ⟨hsound, hframe⟩ := h.kept hserve fun w hw => absurd hw List.not_mem_nil
  obtain ⟨n, hn, rfl, rfl⟩ := serve_createNetworkNamespace hserve
  refine ⟨n.uuid, rfl, hsound, hframe, ?_, h.ifaces, h.pairs, h.nodup, h.cps⟩
  exact (Table.fresh_put (h.not_issued hn)).trans (by rw [h.netns])

theorem createConnectionPoint (hserve : (plugin False).serve .createConnectionPoint m o m') :
    ∃ c, c ∉ points ∧ o = .ok ⟨c, none⟩ ∧ Grown m₀ m' nss ends (insert c points) := by
  obtain ⟨hsound, hframe⟩ := h.kept hserve fun w hw => absurd hw List.not_mem_nil
  obtain ⟨cp, issued, hcp, rfl, rfl⟩ :=
    serve_createConnectionPoint (fun cp hcp => (h.sound.cps cp hcp).1) hserve
  refine ⟨cp.uuid, fun hmem => ?_, rfl, hsound, hframe, h.netns, h.ifaces, h.pairs, h.nodup, ?_⟩
  · obtain ⟨-, cp', hcp', hu⟩ := h.not_issued_of_point hmem
    exact hcp (hu ▸ (h.sound.cps cp' hcp').1)
  · exact (Table.fresh_put (h.not_issued hcp)).trans (by rw [h.cps])

theorem createVirtualInterfaceInNamespace {name : String} (hns : ns ∈ nss)
    (hserve : (plugin False).serve (.createVirtualInterfaceInNamespace name ns) m o m') :
    ∃ u v, o = .ok ⟨u, some v⟩ ∧ Grown m₀ m' nss (ends ++ [(u, v)]) points ∧
      (∃ n ∈ m'.netns, n.uuid = ns ∧ v ∈ n.interfaces) ∧
      ∃ i ∈ m'.ifaces, i.uuid = v ∧ i.netNs = some ns := by
  obtain ⟨hnsnew, n, hn, rfl⟩ := h.not_issued_of_ns hns
  obtain ⟨hsound, hframe⟩ := h.kept hserve fun w hw => by
    rw [List.mem_singleton.1 hw]
    exact hnsnew
  obtain ⟨u, v, name', hu, hv, rfl, rfl⟩ := serve_createVirtualInterfaceInNamespace hn hserve
  have huv : u ≠ v := fun huv => hv (huv ▸ List.mem_cons_self)
  have hv' : v ∉ m.issued := fun hmem => hv (List.mem_cons_of_mem _ hmem)
  have hother : ∀ w ∈ uuids ends, w ≠ u ∧ w ≠ v := by
    intro w hw
    obtain ⟨-, j, hj, rfl⟩ := h.not_issued_of_end hw
    exact ⟨fun hju => hu (hju ▸ h.sound.ifaces j hj), fun hjv => hv' (hjv ▸ h.sound.ifaces j hj)⟩
  refine ⟨u, v, rfl, ⟨hsound, hframe, ?_, ?_, ?_, ?_, h.cps⟩, ?_, ?_⟩
  · change (m.netns.put _).fresh m₀.issued = nss
    rw [Table.fresh_put_old, h.netns]
    exact ⟨n, hn, rfl⟩
  · rw [Table.fresh_put (h.not_issued hv'), Table.fresh_put (h.not_issued hu), h.ifaces]
    ext w
    simp only [uuids_concat, newInterface, Set.mem_insert_iff, Set.mem_ofPred_eq, List.mem_append,
      List.mem_cons, List.not_mem_nil, or_false]
    tauto
  · intro pair hmem
    rcases List.mem_append.1 hmem with hmem | hmem
    · obtain ⟨k, hk, hku, hkp⟩ := h.pairs pair hmem
      have hpair : pair.1 ∈ uuids ends := List.mem_flatMap.2 ⟨pair, hmem, List.mem_cons_self⟩
      obtain ⟨hku', hkv⟩ := hother _ hpair
      refine ⟨k, Table.mem_put.2 (Or.inr ⟨Table.mem_put.2 (Or.inr ⟨hk, ?_⟩), ?_⟩), hku, hkp⟩
      · exact fun hk => hku' (hku ▸ hk)
      · exact fun hk => hkv (hku ▸ hk)
    · obtain rfl := List.mem_singleton.1 hmem
      exact ⟨_, Table.mem_put.2 (Or.inr ⟨Table.mem_put_self _ _, huv⟩), rfl, rfl⟩
  · rw [uuids_concat, List.nodup_append]
    refine ⟨h.nodup, by simpa using huv, fun w hw w' hw' => ?_⟩
    obtain ⟨hwu, hwv⟩ := hother w hw
    simp only [List.mem_cons, List.not_mem_nil, or_false] at hw'
    rcases hw' with rfl | rfl
    · exact hwu
    · exact hwv
  · exact ⟨_, Table.mem_put_self _ _, rfl, by simp⟩
  · exact ⟨_, Table.mem_put_self _ _, rfl, rfl⟩

theorem bindInterfaceToConnectionPoint (hv : v ∈ uuids ends) (hc : c ∈ points)
    (hserve : (plugin False).serve (.bindInterfaceToConnectionPoint v c) m o m') :
    (∃ x, o = .ok x) ∧ Grown m₀ m' nss ends points := by
  obtain ⟨hvnew, i, hi, rfl⟩ := h.not_issued_of_end hv
  obtain ⟨-, cp, hcp, rfl⟩ := h.not_issued_of_point hc
  obtain ⟨hsound, hframe⟩ := h.kept hserve fun w hw => by
    rw [List.mem_singleton.1 hw]
    exact hvnew
  obtain ⟨ho, rfl⟩ := serve_bindInterfaceToConnectionPoint hi hcp hserve
  refine ⟨ho, hsound, hframe, h.netns, ?_, h.pairs_put hi rfl rfl, h.nodup, h.cps⟩
  change (m.ifaces.put _).fresh m₀.issued = _
  rw [Table.fresh_put_old, h.ifaces]
  exact ⟨i, hi, rfl⟩

theorem moveInterfaceIntoDefaultNamespace (hv : v ∈ uuids ends) (hns : ns ∈ nss)
    (hmem : ∃ n ∈ m.netns, n.uuid = ns ∧ v ∈ n.interfaces)
    (hin : ∃ i ∈ m.ifaces, i.uuid = v ∧ i.netNs = some ns)
    (hserve : (plugin False).serve (.moveInterfaceIntoDefaultNamespace v) m o m') :
    (∃ x, o = .ok x) ∧ Grown m₀ m' nss ends points := by
  obtain ⟨n, hn, rfl, hlisted⟩ := hmem
  obtain ⟨i, hi, rfl, hi'⟩ := hin
  obtain ⟨hsound, hframe⟩ := h.kept hserve fun w hw => by
    rcases List.mem_cons.1 hw with rfl | hw
    · exact (h.not_issued_of_end hv).1
    · rw [refs_eq_toList hi, hi'] at hw
      rw [List.mem_singleton.1 hw]
      exact (h.not_issued_of_ns hns).1
  obtain ⟨ho, rfl⟩ := serve_moveInterfaceIntoDefaultNamespace hi hn hi' hlisted hserve
  refine ⟨ho, hsound, hframe, ?_, ?_, h.pairs_put hi rfl rfl, h.nodup, h.cps⟩
  · change (m.netns.put _).fresh m₀.issued = _
    rw [Table.fresh_put_old, h.netns]
    exact ⟨n, hn, rfl⟩
  · change (m.ifaces.put _).fresh m₀.issued = _
    rw [Table.fresh_put_old, h.ifaces]
    exact ⟨i, hi, rfl⟩

theorem deleteNetworkNamespace (hns : ns ∈ nss)
    (hserve : (plugin False).serve (.deleteNetworkNamespace ns) m o m') :
    (∃ x, o = .ok x) ∧ Grown m₀ m' (nss \ {ns}) ends points := by
  obtain ⟨hnew, n, hn, rfl⟩ := h.not_issued_of_ns hns
  obtain ⟨hsound, hframe⟩ := h.kept hserve fun w hw => by
    rw [List.mem_singleton.1 hw]
    exact hnew
  obtain ⟨ho, rfl⟩ := serve_deleteNetworkNamespace hn hserve
  refine ⟨ho, hsound, hframe, ?_, h.ifaces, h.pairs, h.nodup, h.cps⟩
  change (m.netns.erase _).fresh m₀.issued = _
  rw [Table.fresh_erase, h.netns]

theorem deleteConnectionPoint (hc : c ∈ points)
    (hserve : (plugin False).serve (.deleteConnectionPoint c) m o m') :
    (∃ x, o = .ok x) ∧ Grown m₀ m' nss ends (points \ {c}) := by
  obtain ⟨hnew, cp, hcp, rfl⟩ := h.not_issued_of_point hc
  obtain ⟨hsound, hframe⟩ := h.kept hserve fun w hw => by
    rw [List.mem_singleton.1 hw]
    exact hnew
  obtain ⟨ho, rfl⟩ := serve_deleteConnectionPoint hcp hserve
  refine ⟨ho, hsound, hframe, h.netns, h.ifaces, h.pairs, h.nodup, ?_⟩
  change (m.cps.erase _).fresh m₀.issued = _
  rw [Table.fresh_erase, h.cps]

omit h in
theorem deleteVirtualInterface (h : Grown m₀ m nss ((u, v) :: ends) points)
    (hserve : (plugin False).serve (.deleteVirtualInterface u) m o m') :
    (∃ x, o = .ok x) ∧ Grown m₀ m' nss ends points := by
  obtain ⟨i, hi, rfl, hpair⟩ := h.pairs (u, v) List.mem_cons_self
  have hpair' : i.pair? = some v := hpair
  have hu : i.uuid ∈ uuids ((i.uuid, v) :: ends) := List.mem_cons_self
  have hv : v ∈ uuids ((i.uuid, v) :: ends) := List.mem_cons_of_mem _ List.mem_cons_self
  obtain ⟨hsound, hframe⟩ := h.kept hserve fun w hw => by
    rcases List.mem_cons.1 hw with rfl | hw
    · exact (h.not_issued_of_end hu).1
    · rw [refs_eq_toList hi, hpair'] at hw
      rw [List.mem_singleton.1 hw]
      exact (h.not_issued_of_end hv).1
  obtain ⟨ho, rfl⟩ := serve_deleteVirtualInterface hi hserve
  have hm' : (m.removePair i).removeInterface i.uuid =
      { m with ifaces := (m.ifaces.erase v).erase i.uuid } := by
    simp [Net.removePair, hpair', Net.removeInterface]
  rw [hm'] at hsound hframe ⊢
  have hnodup : i.uuid ∉ v :: uuids ends ∧ v ∉ uuids ends ∧ (uuids ends).Nodup := by
    simpa [uuids] using h.nodup
  obtain ⟨hiu, hvu, hends⟩ := hnodup
  refine ⟨ho, hsound, hframe, h.netns, ?_, ?_, hends, h.cps⟩
  · rw [Table.fresh_erase, Table.fresh_erase, h.ifaces]
    ext w
    rw [Set.mem_sdiff, Set.mem_sdiff, Set.mem_singleton_iff, Set.mem_singleton_iff]
    change (w ∈ i.uuid :: v :: uuids ends ∧ w ≠ v) ∧ w ≠ i.uuid ↔ w ∈ uuids ends
    constructor
    · rintro ⟨⟨hw, hwv⟩, hwi⟩
      simpa [hwv, hwi] using hw
    · intro hw
      refine ⟨⟨List.mem_cons_of_mem _ (List.mem_cons_of_mem _ hw), ?_⟩, ?_⟩
      · exact fun hwv => hvu (hwv ▸ hw)
      · exact fun hwi => hiu (hwi ▸ List.mem_cons_of_mem _ hw)
  · intro pair hmem
    obtain ⟨k, hk, hku, hkp⟩ := h.pairs pair (List.mem_cons_of_mem _ hmem)
    have hmem' : pair.1 ∈ uuids ends := List.mem_flatMap.2 ⟨pair, hmem, List.mem_cons_self⟩
    refine ⟨k, Table.mem_erase.2 ⟨Table.mem_erase.2 ⟨hk, ?_⟩, ?_⟩, hku, hkp⟩
    · exact fun hkv => hvu (by rwa [← hkv, hku])
    · exact fun hki => hiu (List.mem_cons_of_mem _ (by rwa [← hki, hku]))

end Grown

end DummyNetwork

end Fog05
