import Fog05.Proofs.Network

/-! Every reachable store of the networking plugin: what has been given out, what links may
refer to, and the two ends of a `VETH`, which are stored together or not at all. -/

namespace Fog05

open Conc

namespace DummyNetwork

variable {e : Env} {s s' : Net}

/-- The stored objects, and what they refer to, have been given out; no interface shares its
uuid with one of the global store, no namespace is that of a connection point, and what is
the parent of an interface is a bridge. -/
structure Sound (s : Net) : Prop where
  ifaces : ∀ i ∈ s.ifaces, i.uuid ∈ s.issued
  netns : ∀ n ∈ s.netns, n.uuid ∈ s.issued
  cps : ∀ cp ∈ s.cps, cp.uuid ∈ s.issued ∧ cp.netNs ∈ s.issued
  netNs : ∀ i ∈ s.ifaces, ∀ u, i.netNs = some u → u ∈ s.issued
  parent : ∀ i ∈ s.ifaces, ∀ u, i.parent = some u → u ∈ s.issued
  global : ∀ g ∈ s.globalIfaces, g.uuid ∈ s.issued
  apart : ∀ g ∈ s.globalIfaces, ∀ i ∈ s.ifaces, i.uuid ≠ g.uuid
  points : ∀ cp ∈ s.cps, ∀ n ∈ s.netns, cp.netNs ≠ n.uuid
  bridge : ∀ i ∈ s.ifaces, ∀ b ∈ s.ifaces, i.parent = some b.uuid → ∃ info, b.kind = .bridge info

namespace Sound

theorem initial (h : s.Initial) : Sound s := by
  obtain ⟨-, hcps, hifaces, hnetns, hissued⟩ := h
  constructor
  case global => exact hissued
  all_goals simp [hcps, hifaces, hnetns]

theorem of_ifaces_eq (h : Sound s) (hifaces : s'.ifaces = s.ifaces)
    (hglobal : s'.globalIfaces = s.globalIfaces) (hissued : s.issued ⊆ s'.issued)
    (hnetns : ∀ n ∈ s'.netns, n.uuid ∈ s'.issued)
    (hcps : ∀ cp ∈ s'.cps, cp.uuid ∈ s'.issued ∧ cp.netNs ∈ s'.issued)
    (hpoints : ∀ cp ∈ s'.cps, ∀ n ∈ s'.netns, cp.netNs ≠ n.uuid) : Sound s' where
  ifaces i hi := hissued (h.ifaces i (hifaces ▸ hi))
  netns := hnetns
  cps := hcps
  netNs i hi u hu := hissued (h.netNs i (hifaces ▸ hi) u hu)
  parent i hi u hu := hissued (h.parent i (hifaces ▸ hi) u hu)
  global g hg := hissued (h.global g (hglobal ▸ hg))
  apart := by rw [hglobal, hifaces]; exact h.apart
  points := hpoints
  bridge := by rw [hifaces]; exact h.bridge

theorem same (h : Sound s) (hs : s.Same s') : Sound s' := by
  obtain ⟨hcps, hifaces, hnetns, hglobal, hissued⟩ := hs
  apply h.of_ifaces_eq hifaces hglobal hissued
  · exact fun n hn => hissued (h.netns n (hnetns ▸ hn))
  · exact fun cp hcp => (h.cps cp (hcps ▸ hcp)).imp (hissued ·) (hissued ·)
  · rw [hcps, hnetns]
    exact h.points

theorem cpMade (h : Sound s) {cp : Types.ConnectionPoint} {issued : List Uuid}
    (hns : cp.netNs ∉ s.issued) (hissued : s.issued ⊆ issued) (hu : cp.uuid ∈ issued)
    (hnu : cp.netNs ∈ issued) : Sound { s with cps := s.cps.put cp, issued } := by
  refine h.of_ifaces_eq rfl rfl hissued ?_ ?_ ?_
  · exact fun n hn => hissued (h.netns n hn)
  · exact Table.forall_put ⟨hu, hnu⟩ fun cp hcp => (h.cps cp hcp).imp (hissued ·) (hissued ·)
  · exact Table.forall_put (fun n hn hnn => hns (hnn ▸ h.netns n hn)) h.points

theorem removeConnectionPoint (h : Sound s) (u : Uuid) : Sound (s.removeConnectionPoint u) := by
  have hold : ∀ cp ∈ (s.removeConnectionPoint u).cps, cp ∈ s.cps :=
    fun cp hcp => (Table.mem_erase.1 hcp).1
  refine h.of_ifaces_eq rfl rfl (List.Subset.refl _) h.netns ?_ ?_
  · exact fun cp hcp => h.cps cp (hold cp hcp)
  · exact fun cp hcp => h.points cp (hold cp hcp)

theorem nsMade (h : Sound s) {n : Types.NetworkNamespace} (hu : n.uuid ∉ s.issued) :
    Sound { s with netns := s.netns.put n, issued := n.uuid :: s.issued } := by
  refine h.of_ifaces_eq rfl rfl (List.subset_cons_self _ _) ?_ ?_ ?_
  · exact Table.forall_put List.mem_cons_self fun n hn => List.mem_cons_of_mem _ (h.netns n hn)
  · exact fun cp hcp =>
      (h.cps cp hcp).imp (List.mem_cons_of_mem _) (List.mem_cons_of_mem _)
  · exact fun cp hcp =>
      Table.forall_put (fun hcpn => hu (hcpn ▸ (h.cps cp hcp).2)) (h.points cp hcp)

theorem removeNetworkNamespace (h : Sound s) (u : Uuid) : Sound (s.removeNetworkNamespace u) := by
  have hold : ∀ n ∈ (s.removeNetworkNamespace u).netns, n ∈ s.netns :=
    fun n hn => (Table.mem_erase.1 hn).1
  refine h.of_ifaces_eq rfl rfl (List.Subset.refl _) ?_ ?_ ?_
  · exact fun n hn => h.netns n (hold n hn)
  · exact h.cps
  · exact fun cp hcp n hn => h.points cp hcp n (hold n hn)

theorem addNetworkNamespace (h : Sound s) {n n' : Types.NetworkNamespace} (hn : n ∈ s.netns)
    (huuid : n'.uuid = n.uuid) : Sound (s.addNetworkNamespace n') := by
  refine h.of_ifaces_eq rfl rfl (List.Subset.refl _) ?_ ?_ ?_
  · exact Table.forall_put (huuid ▸ h.netns n hn) h.netns
  · exact h.cps
  · exact fun cp hcp => Table.forall_put (huuid ▸ h.points cp hcp n hn) (h.points cp hcp)

theorem addNew (h : Sound s) {i : VirtualInterface} (hfresh : i.uuid ∉ s.issued)
    (hparent : i.parent = none) (hnetNs : ∀ u, i.netNs = some u → u ∈ s.issued) :
    Sound { s with ifaces := s.ifaces.put i, issued := i.uuid :: s.issued } := by
  obtain ⟨hifaces, hnetns, hcps, hns, hpar, hglobal, hapart, hpoints, hbridge⟩ := h
  constructor
  all_goals grind [Table.mem_put]

theorem made (h : Sound s) {netNs : Option Uuid} {l : List VirtualInterface} {issued : List Uuid}
    (hl : Made s.issued netNs l issued) (hnetNs : ∀ u, netNs = some u → u ∈ s.issued) :
    Sound { s with ifaces := l.foldl Table.put s.ifaces, issued } := by
  cases hl with
  | alone hu _ _ => exact h.addNew hu rfl hnetNs
  | @pair u v name _ hu hv =>
    have hfirst := h.addNew (i := newInterface u name netNs (.veth ⟨v, true⟩)) hu rfl hnetNs
    exact hfirst.addNew hv rfl fun w hw => List.mem_cons_of_mem _ (hnetNs w hw)

theorem addInterface (h : Sound s) {i i' : VirtualInterface} (hi : i ∈ s.ifaces)
    (huuid : i'.uuid = i.uuid) (hnetNs : ∀ u, i'.netNs = some u → u ∈ s.issued)
    (hkind : ∀ info, i.kind = .bridge info → ∃ info', i'.kind = .bridge info')
    (hparent : ∀ u, i'.parent = some u → u ∈ s.issued ∧
      ∀ b ∈ s.ifaces, b.uuid = u → ∃ info, b.kind = .bridge info) :
    Sound (s.addInterface i') := by
  obtain ⟨hifaces, hnetns, hcps, hns, hpar, hglobal, hapart, hpoints, hbridge⟩ := h
  unfold Net.addInterface
  constructor
  all_goals grind [Table.mem_put]

theorem removeInterface (h : Sound s) (u : Uuid) : Sound (s.removeInterface u) := by
  obtain ⟨hifaces, hnetns, hcps, hns, hpar, hglobal, hapart, hpoints, hbridge⟩ := h
  unfold Net.removeInterface
  constructor
  all_goals grind [Table.mem_erase]

theorem removePair (h : Sound s) (i : VirtualInterface) : Sound (s.removePair i) := by
  unfold Net.removePair
  split
  · exact h.removeInterface _
  · exact h

theorem parent_of_mem (h : Sound s) {i : VirtualInterface} (hi : i ∈ s.ifaces) {u : Uuid}
    (hu : i.parent = some u) :
    u ∈ s.issued ∧ ∀ b ∈ s.ifaces, b.uuid = u → ∃ info, b.kind = .bridge info :=
  ⟨h.parent i hi u hu, fun b hb hbu => h.bridge i hi b hb (hbu ▸ hu)⟩

theorem setNetNs (h : Sound s) {i : VirtualInterface} (hi : i ∈ s.ifaces) (netNs : Option Uuid)
    (hnetNs : ∀ u, netNs = some u → u ∈ s.issued) :
    Sound (s.addInterface { i with netNs }) :=
  h.addInterface hi rfl hnetNs (fun info hk => ⟨info, hk⟩) fun _ hu => h.parent_of_mem hi hu

theorem link (h : Sound s) {i b : VirtualInterface} {info : Types.BridgeKind} (hi : i ∈ s.ifaces)
    (hb : b ∈ s.ifaces) (hk : b.kind = .bridge info) {parent : Option Uuid} {l : List Uuid}
    (hparent : parent = none ∨ parent = some b.uuid) :
    Sound ((s.addInterface { i with parent }).addInterface { b with kind := .bridge ⟨l⟩ }) := by
  have hfirst : Sound (s.addInterface { i with parent }) := by
    refine h.addInterface hi rfl (h.netNs i hi) (fun info' hk' => ⟨info', hk'⟩) ?_
    intro u hu
    rcases hparent with rfl | rfl
    · cases hu
    · cases hu
      refine ⟨h.ifaces b hb, fun b' hb' hbb => ?_⟩
      rw [Table.eq_of_key hb' hb hbb]
      exact ⟨info, hk⟩
  obtain ⟨b₁, hb₁, hu⟩ : ∃ b₁ ∈ (s.addInterface { i with parent }).ifaces, b₁.uuid = b.uuid :=
    Table.exists_mem_put ⟨b, hb, rfl⟩ _
  refine hfirst.addInterface hb₁ hu.symm (h.netNs b hb) (fun _ _ => ⟨_, rfl⟩) ?_
  intro u hbu
  refine ⟨h.parent b hb u hbu, fun b' hb' hb'u => ?_⟩
  rcases Table.mem_put.1 hb' with rfl | ⟨hb', -⟩
  · exact h.bridge b hb i hi (hbu.trans (congrArg some hb'u.symm))
  · exact h.bridge b hb b' hb' (hb'u ▸ hbu)

theorem step (h : Sound s) {op : Op} (he : Effect e s op s') : Sound s' := by
  cases he with
  | same hs => exact h.same hs
  | cpMade _ hns hsub hu hnu => exact h.cpMade hns hsub hu hnu
  | cpDeleted => exact h.removeConnectionPoint _
  | nsMade hu _ => exact h.nsMade hu
  | nsDeleted => exact h.removeNetworkNamespace _
  | made hl => exact h.made hl fun _ hu => by cases hu
  | @madeIn _ n _ _ hn hl =>
    have hmade := h.made hl fun u hu => by cases hu; exact h.netns n hn
    exact hmade.addNetworkNamespace hn rfl
  | deleted _ _ => exact (h.removePair _).removeInterface _
  | macvanDeleted _ _ _ => exact h.removeInterface _
  | bridgeDeleted _ => exact h.removeInterface _
  | @deletedIn i n _ _ _ hn _ _ =>
    have hpair := h.removePair i
    have hmem : n ∈ (s.removePair i).netns := by
      unfold Net.removePair
      split
      · exact hn
      · exact hn
    apply Sound.removeInterface
    exact hpair.addNetworkNamespace hmem rfl
  | bound _ hi hcp =>
    exact h.setNetNs hi _ fun u hu => by cases hu; exact (h.cps _ hcp).2
  | retouched hi _ hr =>
    apply h.addInterface hi hr.uuid
    · intro u hu
      rcases hr.netNs with hns | ⟨hns, -⟩
      · exact h.netNs _ hi u (hns ▸ hu)
      · rw [hns] at hu
        cases hu
    · exact fun info hk => ⟨info, hr.kind.trans hk⟩
    · rw [hr.parent]
      exact fun _ hu => h.parent_of_mem hi hu
  | entered _ hi hn =>
    have hset := h.setNetNs hi (some _) fun u hu => by cases hu; exact h.netns _ hn
    exact hset.addNetworkNamespace hn rfl
  | left hi hn _ _ =>
    have hset := h.setNetNs hi none fun _ hu => by cases hu
    exact hset.addNetworkNamespace hn rfl
  | leftNone hi _ _ => exact h.setNetNs hi none fun _ hu => by cases hu
  | attached _ hi hb hk => exact h.link hi hb hk (Or.inr rfl)
  | detached hi hb _ hk _ => exact h.link hi hb hk (Or.inl rfl)

end Sound

/-- What holds of the local stores that are empty and is kept by the operations from stores
that are sound, holds of every reachable store. -/
theorem reachable_induction {P : Net → Prop} (hinit : ∀ s, s.Initial → P s)
    (hstep : ∀ e s op s', Sound s → P s → Effect e s op s' → P s') (h : s.Reachable) :
    Sound s ∧ P s := by
  obtain ⟨s₀, l, h₀, rfl⟩ := h
  have hs₀ : Sound s₀ ∧ P s₀ := ⟨Sound.initial h₀, hinit s₀ h₀⟩
  clear h₀
  induction l generalizing s₀ with
  | nil => exact hs₀
  | cons step l ih =>
    have he : Effect step.1 s₀ step.2 (step.2.after step.1 s₀) := effect_after step.2
    exact ih _ ⟨hs₀.1.step he, hstep _ _ _ _ hs₀.1 hs₀.2 he⟩

theorem Net.Reachable.sound (h : s.Reachable) : Sound s :=
  (reachable_induction (P := fun _ => True) (fun _ _ => trivial) (fun _ _ _ _ _ _ _ => trivial) h).1

/-! ### The two ends of a `VETH` -/

/-- Every `VETH` has another one as its pair, which names it and is the other end. -/
def Paired (ifaces : Table fun iface : VirtualInterface => iface.uuid) : Prop :=
  ∀ i ∈ ifaces, ∀ info, i.kind = .veth info →
    ∃ p ∈ ifaces, p ≠ i ∧ p.uuid = info.pair ∧ p.kind = .veth ⟨i.uuid, !info.internal⟩

namespace Paired

variable {t : Table fun iface : VirtualInterface => iface.uuid} {i i' j : VirtualInterface}

theorem put (h : Paired t) (hi : i ∈ t) (huuid : i'.uuid = i.uuid)
    (hkind : ∀ info, i'.kind = .veth info ↔ i.kind = .veth info) : Paired (t.put i') := by
  have back : ∀ j ∈ t.put i', ∃ j₀ ∈ t, j₀.uuid = j.uuid ∧
      ∀ info, j.kind = .veth info ↔ j₀.kind = .veth info := by
    intro j hj
    rcases Table.mem_put.1 hj with rfl | ⟨hj, -⟩
    · exact ⟨i, hi, huuid.symm, hkind⟩
    · exact ⟨j, hj, rfl, fun _ => Iff.rfl⟩
  have forth : ∀ j ∈ t, ∃ j₁ ∈ t.put i', j₁.uuid = j.uuid ∧
      ∀ info, j₁.kind = .veth info ↔ j.kind = .veth info := by
    intro j hj
    by_cases hju : j.uuid = i'.uuid
    · obtain rfl := Table.eq_of_key hj hi (hju.trans huuid)
      exact ⟨i', Table.mem_put_self t i', huuid, hkind⟩
    · exact ⟨j, Table.mem_put.2 (Or.inr ⟨hj, hju⟩), rfl, fun _ => Iff.rfl⟩
  intro j hj info hk
  obtain ⟨j₀, hj₀, hu₀, hk₀⟩ := back j hj
  obtain ⟨p₀, hp₀, hne, hpu, hpk⟩ := h j₀ hj₀ info ((hk₀ info).1 hk)
  obtain ⟨p, hp, hu, hkp⟩ := forth p₀ hp₀
  refine ⟨p, hp, ?_, hu.trans hpu, (hkp _).2 (hu₀ ▸ hpk)⟩
  rintro rfl
  exact hne (Table.eq_of_key hp₀ hj₀ (hu.symm.trans hu₀.symm))

theorem putNew (h : Paired t) (hfresh : ∀ j ∈ t, j.uuid ≠ i.uuid)
    (hkind : ∀ info, i.kind ≠ .veth info) : Paired (t.put i) := by
  intro j hj info hk
  rcases Table.mem_put.1 hj with rfl | ⟨hj, -⟩
  · exact absurd hk (hkind info)
  · obtain ⟨p, hp, hrest⟩ := h j hj info hk
    exact ⟨p, Table.mem_put.2 (Or.inr ⟨hp, hfresh p hp⟩), hrest⟩

theorem putPair (h : Paired t) {b : Bool} (hi : ∀ k ∈ t, k.uuid ≠ i.uuid)
    (hj : ∀ k ∈ t, k.uuid ≠ j.uuid) (hij : i.uuid ≠ j.uuid) (hki : i.kind = .veth ⟨j.uuid, b⟩)
    (hkj : j.kind = .veth ⟨i.uuid, !b⟩) : Paired ((t.put i).put j) := by
  have memi : i ∈ (t.put i).put j := by simp [hij]
  have memj : j ∈ (t.put i).put j := Table.mem_put_self _ _
  intro k hk info hkind
  rcases Table.mem_put.1 hk with rfl | ⟨hk, -⟩
  · rw [hkj] at hkind
    cases hkind
    exact ⟨i, memi, fun h => hij (congrArg (fun i => i.uuid) h), rfl, by simp [hki]⟩
  · rcases Table.mem_put.1 hk with rfl | ⟨hk, -⟩
    · rw [hki] at hkind
      cases hkind
      exact ⟨j, memj, fun h => hij (congrArg (fun i => i.uuid) h.symm), rfl, hkj⟩
    · obtain ⟨p, hp, hrest⟩ := h k hk info hkind
      exact ⟨p, by simp [hp, hi p hp, hj p hp], hrest⟩

theorem eraseOther (h : Paired t) {u : Uuid}
    (hu : ∀ j ∈ t, j.uuid = u → ∀ info, j.kind ≠ .veth info) : Paired (t.erase u) := by
  intro j hj info hk
  obtain ⟨hj, hju⟩ := Table.mem_erase.1 hj
  obtain ⟨p, hp, hne, hpu, hpk⟩ := h j hj info hk
  exact ⟨p, Table.mem_erase.2 ⟨hp, fun hpu' => hu p hp hpu' _ hpk⟩, hne, hpu, hpk⟩

theorem erasePair (h : Paired t) (hi : i ∈ t) {info : Types.VETHKind} (hki : i.kind = .veth info) :
    Paired ((t.erase info.pair).erase i.uuid) := by
  obtain ⟨q, hq, -, hqu, hqk⟩ := h i hi info hki
  intro j hj info' hk
  simp only [Table.mem_erase] at hj
  obtain ⟨⟨hj, hjpair⟩, hji⟩ := hj
  obtain ⟨p, hp, hne, hpu, hpk⟩ := h j hj info' hk
  -- the pair of an interface names it, so it is neither of the two that go
  have hpq : p.uuid ≠ info.pair := by
    intro hpq
    obtain rfl := Table.eq_of_key hp hq (hpq.trans hqu.symm)
    rw [hqk, Types.VirtualInterfaceKind.veth.injEq, Types.VETHKind.mk.injEq] at hpk
    exact hji hpk.1.symm
  have hpi : p.uuid ≠ i.uuid := by
    intro hpi
    obtain rfl := Table.eq_of_key hp hi hpi
    rw [hki] at hpk
    cases hpk
    exact hjpair rfl
  exact ⟨p, Table.mem_erase.2 ⟨Table.mem_erase.2 ⟨hp, hpq⟩, hpi⟩, hne, hpu, hpk⟩

theorem removed (h : Paired s.ifaces) (hi : i ∈ s.ifaces) :
    Paired ((s.removePair i).removeInterface i.uuid).ifaces := by
  unfold Net.removePair VirtualInterface.pair?
  cases hk : i.kind with
  | veth info => exact h.erasePair hi hk
  | _ =>
    apply h.eraseOther
    intro j hj hju info hkj
    rw [Table.eq_of_key hj hi hju, hk] at hkj
    cases hkj

theorem made (h : Paired s.ifaces) (hs : Sound s) {netNs : Option Uuid} {l : List VirtualInterface}
    {issued : List Uuid} (hl : Made s.issued netNs l issued) :
    Paired (l.foldl Table.put s.ifaces) := by
  have fresh : ∀ u, u ∉ s.issued → ∀ j ∈ s.ifaces, j.uuid ≠ u :=
    fun u hu j hj hju => hu (hju ▸ hs.ifaces j hj)
  cases hl with
  | alone hu hkind _ => exact h.putNew (fresh _ hu) hkind
  | @pair u v _ _ hu hv =>
    have huv : u ≠ v := fun huv => hv (huv ▸ List.mem_cons_self)
    have hvs : v ∉ s.issued := fun h => hv (List.mem_cons_of_mem _ h)
    exact h.putPair (fresh u hu) (fresh v hvs) huv rfl rfl

theorem link (h : Paired t) {b : VirtualInterface} {info info' : Types.BridgeKind} (hi : i ∈ t)
    (hb : b ∈ t) (hk : b.kind = .bridge info) (parent : Option Uuid) :
    Paired ((t.put { i with parent }).put { b with kind := .bridge info' }) := by
  have hfirst : Paired (t.put { i with parent }) := h.put hi rfl fun _ => Iff.rfl
  by_cases hbi : b.uuid = i.uuid
  · obtain rfl := Table.eq_of_key hb hi hbi
    exact hfirst.put (Table.mem_put_self _ _) rfl fun _ => by simp [hk]
  · exact hfirst.put (Table.mem_put.2 (Or.inr ⟨hb, hbi⟩)) rfl fun _ => by simp [hk]

theorem step (h : Paired s.ifaces) (hs : Sound s) {op : Op} (he : Effect e s op s') :
    Paired s'.ifaces := by
  cases he with
  | same hsame => rw [hsame.ifaces]; exact h
  | cpMade | cpDeleted | nsMade | nsDeleted => exact h
  | made hl => exact h.made hs hl
  | madeIn _ hl => exact h.made hs hl
  | deleted _ hi => exact h.removed hi
  | deletedIn _ hi _ _ _ => exact h.removed hi
  | macvanDeleted _ hi hk =>
    apply h.eraseOther
    intro j hj hju info hkj
    rw [Table.eq_of_key hj hi hju, hk] at hkj
    cases hkj
  | bridgeDeleted hg => exact h.eraseOther fun j hj hju => absurd hju (hs.apart _ hg j hj)
  | bound _ hi _ => exact h.put hi rfl fun _ => Iff.rfl
  | retouched hi _ hr => exact h.put hi hr.uuid fun _ => by rw [hr.kind]
  | entered _ hi _ => exact h.put hi rfl fun _ => Iff.rfl
  | left hi _ _ _ => exact h.put hi rfl fun _ => Iff.rfl
  | leftNone hi _ _ => exact h.put hi rfl fun _ => Iff.rfl
  | attached _ hi hb hk => exact h.link hi hb hk _
  | detached hi hb _ hk _ => exact h.link hi hb hk _

end Paired

/-- Virtual ethernet pairs stay closed. -/
theorem veth_pairs_closed (h : s.Reachable) : Paired s.ifaces := by
  refine (reachable_induction (P := fun s => Paired s.ifaces) ?_ ?_ h).2
  · intro s h₀ i hi
    rw [h₀.ifaces] at hi
    exact absurd hi (Table.not_mem_empty i)
  · exact fun e s op s' hs hp he => hp.step hs he

/-- A pair in a namespace, one end of which leaves it, and another pair that is deleted. -/
def twoPairs : List Op :=
  [.createNetworkNamespace, .createVirtualInterfaceInNamespace ⟨"eth0", .veth⟩ 1,
    .createVirtualInterface ⟨"eth1", .veth⟩, .moveInterfaceIntoDefaultNamespace 3,
    .deleteVirtualInterface 5]

theorem veth_pairs_closed_play :
    (Net.play twoPairs).ifaces.rows.map (fun i => (i.uuid, i.pair?)) = [(2, some 3), (3, some 2)] ∧
      Paired (Net.play twoPairs).ifaces :=
  ⟨rfl, veth_pairs_closed (Net.play_reachable _)⟩

end DummyNetwork

end Fog05
