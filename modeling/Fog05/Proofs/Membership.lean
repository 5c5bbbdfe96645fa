import Fog05.Conc.Roster
import Fog05.Proofs.Pairing

/-! Membership in the networking plugin: an interface names its namespace and its bridge, and
each of these lists its interfaces. The operations keep the two in step as long as nothing
that is a member somewhere is deleted, bound, moved or attached. -/

namespace Fog05

open Conc

namespace DummyNetwork

variable {e : Env} {s s' : Net} {i b : VirtualInterface} {n : Types.NetworkNamespace}

/-- Namespaces list the interfaces that name them, and bridges theirs. -/
structure Linked (s : Net) : Prop where
  netns : ∀ n ∈ s.netns, s.ifaces.Lists (fun i => i.netNs = some n.uuid) n.interfaces
  bridge : ∀ b ∈ s.ifaces, ∀ info, b.kind = .bridge info →
    s.ifaces.Lists (fun i => i.parent = some b.uuid) info.childs

/-- The interface is in no stored namespace. -/
def Net.Free (s : Net) (i : VirtualInterface) : Prop := ∀ n ∈ s.netns, i.netNs ≠ some n.uuid

/-- The interface is under no stored bridge. -/
def Net.Loose (s : Net) (i : VirtualInterface) : Prop := ∀ b ∈ s.ifaces, i.parent ≠ some b.uuid

/-- The interfaces with these uuids are members of nothing that is stored. -/
def Net.Released (s : Net) (gone : List Uuid) : Prop :=
  ∀ i ∈ s.ifaces, i.uuid ∈ gone → s.Free i ∧ s.Loose i

/-- What an operation that the agent lets through has to find: who deletes an interface finds
it, and its pair, in no stored namespace and under no stored bridge, but for the namespace
that the call names; who binds or moves one finds it in no stored namespace; and who
attaches one finds it under no stored bridge and does not attach it to itself. -/
def Careful (e : Env) (s : Net) (op : Op) : Prop :=
  ∀ node, e.agent = .ok node →
    match op with
    | .deleteVirtualInterface u => s.Released (u :: s.refs VirtualInterface.pair? u)
    | .deleteMacvanInterface u =>
        ∀ i ∈ s.ifaces, i.uuid = u → ∀ info, i.kind = .macvlan info → s.Free i ∧ s.Loose i
    | .deleteVirtualInterfaceInNamespace u v =>
        ∀ i ∈ s.ifaces, i.uuid = u → ∀ n ∈ s.netns, n.uuid = v → i.netNs = some v →
          s.Loose i ∧ s.Released (s.refs VirtualInterface.pair? u)
    | .bindInterfaceToConnectionPoint u v =>
        ∀ i ∈ s.ifaces, i.uuid = u → ∀ cp ∈ s.cps, cp.uuid = v → s.Free i
    | .moveInterfaceInfoNamespace u v =>
        ∀ i ∈ s.ifaces, i.uuid = u → ∀ n ∈ s.netns, n.uuid = v → s.Free i
    | .attachInterfaceToBridge u v =>
        ∀ i ∈ s.ifaces, i.uuid = u → ∀ b ∈ s.ifaces, b.uuid = v → ∀ info, b.kind = .bridge info →
          u ≠ v ∧ s.Loose i
    | _ => True

theorem refs_eq_toList (hi : i ∈ s.ifaces) (f : VirtualInterface → Option Uuid) :
    s.refs f i.uuid = (f i).toList := by
  have hsel : s.ifaces.select (· = i.uuid) = [i] :=
    single_eq_ok.1 (single_key_eq_ok.2 ⟨hi, rfl⟩)
  rw [Net.refs, hsel]
  cases h : f i <;> simp [h]

/-- What is kept along the operations that are careful. -/
structure Wired (s : Net) : Prop where
  sound : Sound s
  paired : Paired s.ifaces
  linked : Linked s
  own : ∀ i ∈ s.ifaces, i.parent ≠ some i.uuid

namespace Wired

/-! ### Members -/

theorem free_iff (h : Wired s) (hi : i ∈ s.ifaces) :
    s.Free i ↔ ∀ n ∈ s.netns, i.uuid ∉ n.interfaces :=
  forall₂_congr fun n hn => not_congr ((h.linked.netns n hn).mem i hi)

theorem loose_iff (h : Wired s) (hi : i ∈ s.ifaces) :
    s.Loose i ↔ ∀ b ∈ s.ifaces, ∀ info, b.kind = .bridge info → i.uuid ∉ info.childs := by
  constructor
  · intro hloose b hb info hk hmem
    exact hloose b hb (((h.linked.bridge b hb info hk).mem i hi).2 hmem)
  · intro hout b hb hp
    obtain ⟨info, hk⟩ := h.sound.bridge i hi b hb hp
    exact hout b hb info hk (((h.linked.bridge b hb info hk).mem i hi).1 hp)

theorem not_own (h : Wired s) (hb : b ∈ s.ifaces) {info : Types.BridgeKind}
    (hk : b.kind = .bridge info) : b.uuid ∉ info.childs := fun hmem =>
  h.own b hb (((h.linked.bridge b hb info hk).mem b hb).2 hmem)

theorem exists_of_mem_gone (h : Wired s) (hi : i ∈ s.ifaces) {u : Uuid} (hu : u ∈ i.pair?.toList) :
    ∃ p ∈ s.ifaces, p ≠ i ∧ p.uuid = u ∧ ∀ info, p.kind ≠ .bridge info := by
  unfold VirtualInterface.pair? at hu
  split at hu
  · next info hk =>
    obtain ⟨p, hp, hne, hpu, hpk⟩ := h.paired i hi info hk
    exact ⟨p, hp, hne, hpu.trans (Option.some.inj (Option.mem_toList.1 hu)), by simp [hpk]⟩
  · simp at hu

theorem mem_removed {j : VirtualInterface} :
    j ∈ ((s.removePair i).removeInterface i.uuid).ifaces ↔
      j ∈ s.ifaces ∧ j.uuid ∉ i.uuid :: i.pair?.toList := by
  unfold Net.removePair Net.removeInterface
  cases i.pair? with
  | none => simp
  | some pair => simp [and_assoc, and_comm, and_left_comm]

theorem removePair_netns : (s.removePair i).netns = s.netns := by
  unfold Net.removePair
  split <;> rfl

/-! ### Deleting -/

theorem gone_of_bridge (h : Wired s) (hi : i ∈ s.ifaces) (hb : b ∈ s.ifaces)
    {info : Types.BridgeKind} (hk : b.kind = .bridge info)
    (hgone : b.uuid ∈ i.uuid :: i.pair?.toList) :
    ∀ u ∈ i.uuid :: i.pair?.toList, u ∉ info.childs := by
  have hbi : b = i := by
    rcases List.mem_cons.1 hgone with hbu | hbu
    · exact Table.eq_of_key hb hi hbu
    · obtain ⟨p, hp, -, hpu, hpk⟩ := h.exists_of_mem_gone hi hbu
      rw [Table.eq_of_key hb hp hpu.symm] at hk
      exact absurd hk (hpk info)
  subst hbi
  intro u hu
  rcases List.mem_cons.1 hu with rfl | hu
  · exact h.not_own hb hk
  · simp [VirtualInterface.pair?, hk] at hu

theorem without_iff (h : Wired s) {gone : List Uuid} (hnetns : s'.netns = s.netns)
    (hifaces : ∀ j, j ∈ s'.ifaces ↔ j ∈ s.ifaces ∧ j.uuid ∉ gone)
    (hstored : ∀ u ∈ gone, ∃ j ∈ s.ifaces, j.uuid = u)
    (hbridge : ∀ b ∈ s.ifaces, ∀ info, b.kind = .bridge info → b.uuid ∈ gone →
      ∀ u ∈ gone, u ∉ info.childs) : Linked s' ↔ s.Released gone := by
  constructor
  · intro h' i hi hgone
    rw [h.free_iff hi, h.loose_iff hi]
    constructor
    · intro n hn
      exact ((h.linked.netns n hn).without_iff hifaces).1 (h'.netns n (hnetns ▸ hn)) _ hgone
    · intro b hb info hk
      by_cases hbg : b.uuid ∈ gone
      · exact hbridge b hb info hk hbg _ hgone
      · exact ((h.linked.bridge b hb info hk).without_iff hifaces).1
          (h'.bridge b ((hifaces b).2 ⟨hb, hbg⟩) info hk) _ hgone
  · intro hrel
    constructor
    · intro n hn
      rw [hnetns] at hn
      refine ((h.linked.netns n hn).without_iff hifaces).2 fun u hu => ?_
      obtain ⟨j, hj, rfl⟩ := hstored u hu
      exact (h.free_iff hj).1 (hrel j hj hu).1 n hn
    · intro b hb info hk
      obtain ⟨hb, -⟩ := (hifaces b).1 hb
      refine ((h.linked.bridge b hb info hk).without_iff hifaces).2 fun u hu => ?_
      obtain ⟨j, hj, rfl⟩ := hstored u hu
      exact (h.loose_iff hj).1 (hrel j hj hu).2 b hb info hk

theorem stored_of_gone (h : Wired s) (hi : i ∈ s.ifaces) :
    ∀ u ∈ i.uuid :: i.pair?.toList, ∃ j ∈ s.ifaces, j.uuid = u := by
  intro u hu
  rcases List.mem_cons.1 hu with rfl | hu
  · exact ⟨i, hi, rfl⟩
  · obtain ⟨p, hp, -, hpu, -⟩ := h.exists_of_mem_gone hi hu
    exact ⟨p, hp, hpu⟩

theorem removed_iff (h : Wired s) (hi : i ∈ s.ifaces) :
    Linked ((s.removePair i).removeInterface i.uuid) ↔ s.Released (i.uuid :: i.pair?.toList) :=
  h.without_iff removePair_netns (fun _ => mem_removed) (h.stored_of_gone hi) fun _ hb _ hk hg =>
    h.gone_of_bridge hi hb hk hg

theorem removeInterface_iff (h : Wired s) (hi : i ∈ s.ifaces) :
    Linked (s.removeInterface i.uuid) ↔ s.Free i ∧ s.Loose i := by
  have hiff : Linked (s.removeInterface i.uuid) ↔ s.Released [i.uuid] := by
    have hnetns : (s.removeInterface i.uuid).netns = s.netns := rfl
    apply h.without_iff hnetns
    · simp [Net.removeInterface]
    · exact fun u hu => ⟨i, hi, (List.mem_singleton.1 hu).symm⟩
    · intro b hb info hk hbi u hu
      rw [List.mem_singleton.1 hu, ← List.mem_singleton.1 hbi]
      exact h.not_own hb hk
  rw [hiff]
  constructor
  · exact fun hrel => hrel i hi (List.mem_singleton_self _)
  · intro hrel j hj hju
    rwa [Table.eq_of_key hj hi (List.mem_singleton.1 hju)]

theorem removedIn_iff (h : Wired s) (hi : i ∈ s.ifaces) (hn : n ∈ s.netns)
    (hns : i.netNs = some n.uuid) :
    Linked (((s.removePair i).addNetworkNamespace
      { n with interfaces := n.interfaces.erase i.uuid }).removeInterface i.uuid) ↔
      s.Loose i ∧ s.Released i.pair?.toList := by
  generalize hs' : ((s.removePair i).addNetworkNamespace
    { n with interfaces := n.interfaces.erase i.uuid }).removeInterface i.uuid = s'
  have hifaces : ∀ j, j ∈ s'.ifaces ↔ j ∈ s.ifaces ∧ j.uuid ∉ i.uuid :: i.pair?.toList := by
    intro j
    rw [← hs']
    exact mem_removed
  have hnetns : ∀ m, m ∈ s'.netns ↔ m = { n with interfaces := n.interfaces.erase i.uuid } ∨
      m ∈ s.netns ∧ m.uuid ≠ n.uuid := by
    intro m
    rw [← hs', Net.removeInterface, Net.addNetworkNamespace, removePair_netns]
    exact Table.mem_put
  have hout : ∀ m ∈ s.netns, m.uuid ≠ n.uuid → i.uuid ∉ m.interfaces := by
    intro m hm hmn hmem
    have hmns : i.netNs = some m.uuid := ((h.linked.netns m hm).mem i hi).2 hmem
    rw [hns] at hmns
    exact hmn (Option.some.inj hmns).symm
  constructor
  · intro h'
    have hloose : ∀ j ∈ s.ifaces, j.uuid ∈ i.uuid :: i.pair?.toList → s.Loose j := by
      intro j hj hju
      rw [h.loose_iff hj]
      intro b hb info hk
      by_cases hbg : b.uuid ∈ i.uuid :: i.pair?.toList
      · exact h.gone_of_bridge hi hb hk hbg _ hju
      · exact ((h.linked.bridge b hb info hk).without_iff hifaces).1
          (h'.bridge b ((hifaces b).2 ⟨hb, hbg⟩) info hk) _ hju
    refine ⟨hloose i hi List.mem_cons_self, fun p hp hpu => ?_⟩
    refine ⟨?_, hloose p hp (List.mem_cons_of_mem _ hpu)⟩
    obtain ⟨q, hq, hqi, hqp, -⟩ := h.exists_of_mem_gone hi hpu
    obtain rfl := Table.eq_of_key hq hp hqp
    rw [h.free_iff hp]
    intro m hm
    by_cases hmn : m.uuid = n.uuid
    · obtain rfl := Table.eq_of_key hm hn hmn
      exact ((h.linked.netns m hm).without_remove_iff hifaces).1
        (h'.netns _ ((hnetns _).2 (Or.inl rfl))) _ hpu
        fun hqi' => hqi (Table.eq_of_key hq hi hqi')
    · exact ((h.linked.netns m hm).without_iff hifaces).1
        (h'.netns m ((hnetns m).2 (Or.inr ⟨hm, hmn⟩))) _ (List.mem_cons_of_mem _ hpu)
  · rintro ⟨hloose, hrel⟩
    constructor
    · intro m hm
      rcases (hnetns m).1 hm with rfl | ⟨hm, hmn⟩
      · refine ((h.linked.netns n hn).without_remove_iff hifaces).2 fun u hu _ => ?_
        obtain ⟨p, hp, -, rfl, -⟩ := h.exists_of_mem_gone hi hu
        exact (h.free_iff hp).1 (hrel p hp hu).1 n hn
      · refine ((h.linked.netns m hm).without_iff hifaces).2 fun u hu => ?_
        rcases List.mem_cons.1 hu with rfl | hu
        · exact hout m hm hmn
        · obtain ⟨p, hp, -, rfl, -⟩ := h.exists_of_mem_gone hi hu
          exact (h.free_iff hp).1 (hrel p hp hu).1 m hm
    · intro b hb info hk
      obtain ⟨hb, -⟩ := (hifaces b).1 hb
      refine ((h.linked.bridge b hb info hk).without_iff hifaces).2 fun u hu => ?_
      rcases List.mem_cons.1 hu with rfl | hu
      · exact (h.loose_iff hi).1 hloose b hb info hk
      · obtain ⟨p, hp, -, rfl, -⟩ := h.exists_of_mem_gone hi hu
        exact (h.loose_iff hp).1 (hrel p hp hu).2 b hb info hk

/-! ### Putting records back -/

variable {a : VirtualInterface}

theorem bridge_put (h : Wired s) (hi : i ∈ s.ifaces) (huuid : a.uuid = i.uuid)
    (hkind : a.kind = i.kind) (hparent : a.parent = i.parent) :
    ∀ b ∈ s.ifaces.put a, ∀ info, b.kind = .bridge info →
      (s.ifaces.put a).Lists (fun k => k.parent = some b.uuid) info.childs := by
  intro b hb info hk
  have hlists : s.ifaces.Lists (fun k => k.parent = some b.uuid) info.childs := by
    rcases Table.mem_put.1 hb with rfl | ⟨hb, -⟩
    · rw [huuid]
      exact h.linked.bridge i hi info (hkind ▸ hk)
    · exact h.linked.bridge b hb info hk
  exact hlists.replace hi huuid (by rw [hparent])

theorem netns_put (h : Wired s) (hi : i ∈ s.ifaces) (huuid : a.uuid = i.uuid)
    (hnetNs : a.netNs = i.netNs) :
    ∀ n ∈ s.netns, (s.ifaces.put a).Lists (fun k => k.netNs = some n.uuid) n.interfaces :=
  fun n hn => (h.linked.netns n hn).replace hi huuid (by rw [hnetNs])

theorem setNetNs_iff (h : Wired s) (hi : i ∈ s.ifaces) (huuid : a.uuid = i.uuid)
    (hkind : a.kind = i.kind) (hparent : a.parent = i.parent) :
    Linked (s.addInterface a) ↔
      ∀ n ∈ s.netns, (a.netNs = some n.uuid ↔ i.netNs = some n.uuid) := by
  have hiff : ∀ n ∈ s.netns, (s.ifaces.put a).Lists (fun k => k.netNs = some n.uuid) n.interfaces ↔
      (a.netNs = some n.uuid ↔ i.netNs = some n.uuid) := by
    intro n hn
    rw [(h.linked.netns n hn).put_iff, huuid, ← (h.linked.netns n hn).mem i hi]
  constructor
  · exact fun h' n hn => (hiff n hn).1 (h'.netns n hn)
  · exact fun hall => ⟨fun n hn => (hiff n hn).2 (hall n hn), h.bridge_put hi huuid hkind hparent⟩

theorem bound_iff (h : Wired s) (hi : i ∈ s.ifaces) {cp : Types.ConnectionPoint}
    (hcp : cp ∈ s.cps) : Linked (s.addInterface { i with netNs := some cp.netNs }) ↔ s.Free i := by
  rw [h.setNetNs_iff (a := { i with netNs := some cp.netNs }) hi rfl rfl rfl]
  refine forall₂_congr fun n hn => ?_
  simp [h.sound.points cp hcp n hn]

theorem retouched (h : Wired s) (hi : i ∈ s.ifaces) (hr : Retouch s.cps i a) :
    Linked (s.addInterface a) := by
  rw [h.setNetNs_iff hi hr.uuid hr.kind hr.parent]
  intro n hn
  rcases hr.netNs with hns | ⟨hns, cp, hcp, hcps⟩
  · rw [hns]
  · simp [hns, hcps, h.sound.points cp hcp n hn]

theorem leftNone (h : Wired s) (hi : i ∈ s.ifaces) {u : Uuid} (hns : i.netNs = some u)
    (hout : ∀ n ∈ s.netns, n.uuid = u → i.uuid ∉ n.interfaces) :
    Linked (s.addInterface { i with netNs := none }) := by
  rw [h.setNetNs_iff (a := { i with netNs := none }) hi rfl rfl rfl]
  intro n hn
  have hne : ¬ i.netNs = some n.uuid := by
    intro hin
    refine hout n hn (Option.some.inj (hin.symm.trans hns)) ?_
    exact ((h.linked.netns n hn).mem i hi).1 hin
  simp [hne]

theorem entered_iff (h : Wired s) (hi : i ∈ s.ifaces) (hn : n ∈ s.netns) :
    Linked ((s.addInterface { i with netNs := some n.uuid }).addNetworkNamespace
      { n with interfaces := n.interfaces ++ [i.uuid] }) ↔ s.Free i := by
  rw [h.free_iff hi]
  constructor
  · intro h' m hm
    by_cases hmn : m.uuid = n.uuid
    · obtain rfl := Table.eq_of_key hm hn hmn
      exact ((h.linked.netns m hm).push_iff.1 (h'.netns _ (Table.mem_put_self _ _))).2
    · have hlists := (h.linked.netns m hm).put_iff.1
        (h'.netns m (Table.mem_put.2 (Or.inr ⟨hm, hmn⟩)))
      exact fun hmem => hmn (Option.some.inj (hlists.2 hmem)).symm
  · intro hout
    refine ⟨fun m hm => ?_, h.bridge_put hi rfl rfl rfl⟩
    rcases Table.mem_put.1 hm with rfl | ⟨hm, hmn⟩
    · exact (h.linked.netns n hn).push_iff.2 ⟨rfl, hout n hn⟩
    · refine (h.linked.netns m hm).put_iff.2 (iff_of_false ?_ (hout m hm))
      exact fun hnm => hmn (Option.some.inj hnm).symm

theorem left (h : Wired s) (hi : i ∈ s.ifaces) (hn : n ∈ s.netns) (hns : i.netNs = some n.uuid) :
    Linked ((s.addInterface { i with netNs := none }).addNetworkNamespace
      { n with interfaces := n.interfaces.erase i.uuid }) := by
  refine ⟨fun m hm => ?_, h.bridge_put hi rfl rfl rfl⟩
  rcases Table.mem_put.1 hm with rfl | ⟨hm, hmn⟩
  · exact (h.linked.netns n hn).remove (a := { i with netNs := none }) fun hc => by cases hc
  · refine (h.linked.netns m hm).put_iff.2 (iff_of_false (fun hc => by cases hc) fun hmem => ?_)
    have hmns := ((h.linked.netns m hm).mem i hi).2 hmem
    rw [hns] at hmns
    exact hmn (Option.some.inj hmns).symm

/-! ### Bridges -/

theorem linked_bridge_put (h : Wired s) (hi : i ∈ s.ifaces) (hb : b ∈ s.ifaces)
    (hbi : b.uuid ≠ i.uuid) (parent : Option Uuid) {l : List Uuid}
    (hb' : (s.ifaces.put { i with parent }).Lists (fun j => j.parent = some b.uuid) l)
    (hother : ∀ c ∈ s.ifaces, c.uuid ≠ b.uuid → ∀ info, c.kind = .bridge info →
      (parent = some c.uuid ↔ i.uuid ∈ info.childs)) :
    Linked ((s.addInterface { i with parent }).addInterface { b with kind := .bridge ⟨l⟩ }) := by
  have hmem : b ∈ s.ifaces.put { i with parent } := Table.mem_put.2 (Or.inr ⟨hb, hbi⟩)
  constructor
  · intro n hn
    exact (h.netns_put (a := { i with parent }) hi rfl rfl n hn).replace hmem rfl Iff.rfl
  · intro c hc info hk
    rcases Table.mem_put.1 hc with rfl | ⟨hc, hcb⟩
    · cases hk
      exact hb'.replace hmem rfl Iff.rfl
    · have hlists : (s.ifaces.put { i with parent }).Lists (fun j => j.parent = some c.uuid)
          info.childs := by
        rcases Table.mem_put.1 hc with rfl | ⟨hc, -⟩
        · exact (h.linked.bridge i hi info hk).put_iff.2 (hother i hi hcb info hk)
        · exact (h.linked.bridge c hc info hk).put_iff.2 (hother c hc hcb info hk)
      exact hlists.replace hmem rfl Iff.rfl

theorem attached_iff (h : Wired s) (hi : i ∈ s.ifaces) (hb : b ∈ s.ifaces)
    {info : Types.BridgeKind} (hk : b.kind = .bridge info) :
    Linked ((s.addInterface { i with parent := some b.uuid }).addInterface
      { b with kind := .bridge ⟨info.childs ++ [i.uuid]⟩ }) ↔ i.uuid ≠ b.uuid ∧ s.Loose i := by
  constructor
  · intro h'
    have hlast := h'.bridge _ (Table.mem_put_self _ _) _ rfl
    have hib : i.uuid ≠ b.uuid := by
      intro hib
      -- the bridge would list itself, but its record keeps the old parent
      refine h.own b hb ((hlast.mem _ (Table.mem_put_self _ _)).2 ?_)
      simp [hib]
    refine ⟨hib, fun c hc hp => ?_⟩
    obtain ⟨info', hk'⟩ := h.sound.bridge i hi c hc hp
    have hlisted := ((h.linked.bridge c hc info' hk').mem i hi).1 hp
    by_cases hcb : c.uuid = b.uuid
    · obtain rfl := Table.eq_of_key hc hb hcb
      rw [hk] at hk'
      cases hk'
      have honce := hlast.once
      rw [List.nodup_append] at honce
      exact honce.2.2 _ hlisted _ (List.mem_singleton_self _) rfl
    · have hci : c.uuid ≠ i.uuid := fun hci =>
        h.own i hi (by rw [hp, hci])
      have hc' : c ∈ ((s.addInterface { i with parent := some b.uuid }).addInterface
          { b with kind := .bridge ⟨info.childs ++ [i.uuid]⟩ }).ifaces :=
        Table.mem_put.2 (Or.inr ⟨Table.mem_put.2 (Or.inr ⟨hc, hci⟩), hcb⟩)
      have hi' : ({ i with parent := some b.uuid } : VirtualInterface) ∈
          ((s.addInterface { i with parent := some b.uuid }).addInterface
            { b with kind := .bridge ⟨info.childs ++ [i.uuid]⟩ }).ifaces :=
        Table.mem_put.2 (Or.inr ⟨Table.mem_put_self _ _, hib⟩)
      exact hcb (Option.some.inj (((h'.bridge c hc' info' hk').mem _ hi').2 hlisted)).symm
  · rintro ⟨hib, hloose⟩
    have hout := (h.loose_iff hi).1 hloose
    apply h.linked_bridge_put hi hb (Ne.symm hib)
    · exact (h.linked.bridge b hb info hk).push_iff.2 ⟨rfl, hout b hb info hk⟩
    · intro c hc hcb info' hk'
      exact iff_of_false (fun hbc => hcb (Option.some.inj hbc).symm) (hout c hc info' hk')

theorem detached (h : Wired s) (hi : i ∈ s.ifaces) (hb : b ∈ s.ifaces) (hp : i.parent = some b.uuid)
    {info : Types.BridgeKind} (hk : b.kind = .bridge info) :
    Linked ((s.addInterface { i with parent := none }).addInterface
      { b with kind := .bridge ⟨info.childs.erase i.uuid⟩ }) := by
  have hbi : b.uuid ≠ i.uuid := fun hbi => h.own i hi (hbi ▸ hp)
  apply h.linked_bridge_put hi hb hbi
  · have hnone : ¬ (none : Option Uuid) = some b.uuid := fun hc => by cases hc
    exact (h.linked.bridge b hb info hk).remove (a := { i with parent := none }) hnone
  · intro c hc hcb info' hk'
    refine iff_of_false (fun hc => by cases hc) fun hmem => ?_
    have hpc := ((h.linked.bridge c hc info' hk').mem i hi).2 hmem
    rw [hp] at hpc
    exact hcb (Option.some.inj hpc).symm

/-! ### New records -/

theorem made_uuids {issued issued' : List Uuid} {netNs : Option Uuid} {l : List VirtualInterface}
    (hl : Made issued netNs l issued') : (l.map fun i => i.uuid).Nodup := by
  cases hl with
  | alone _ _ _ => simp
  | @pair u v _ _ _ hv =>
    have huv : u ≠ v := fun huv => hv (huv ▸ List.mem_cons_self)
    simpa [newInterface] using huv

theorem made_fresh {issued issued' : List Uuid} {netNs : Option Uuid} {l : List VirtualInterface}
    (hl : Made issued netNs l issued') :
    ∀ i ∈ l, i.uuid ∉ issued ∧ i.netNs = netNs ∧ i.parent = none ∧
      ∀ info, i.kind = .bridge info → info.childs = [] := by
  intro i hi
  cases hl with
  | alone hu _ hchilds =>
    obtain rfl := List.mem_singleton.1 hi
    exact ⟨hu, rfl, rfl, hchilds⟩
  | pair hu hv =>
    simp only [List.mem_cons, List.not_mem_nil, or_false] at hi
    rcases hi with rfl | rfl
    · exact ⟨hu, rfl, rfl, fun _ hk => by cases hk⟩
    · exact ⟨fun h => hv (List.mem_cons_of_mem _ h), rfl, rfl, fun _ hk => by cases hk⟩

theorem fresh_not_listed (h : Wired s) {p : VirtualInterface → Prop} {l : List Uuid}
    (hl : s.ifaces.Lists p l) {u : Uuid} (hu : u ∉ s.issued) : u ∉ l := by
  intro hmem
  obtain ⟨j, hj, rfl⟩ := hl.stored u hmem
  exact hu (h.sound.ifaces j hj)

theorem bridge_made (h : Wired s) {netNs : Option Uuid} {l : List VirtualInterface}
    {issued : List Uuid} (hl : Made s.issued netNs l issued) :
    ∀ b ∈ l.foldl Table.put s.ifaces, ∀ info, b.kind = .bridge info →
      (l.foldl Table.put s.ifaces).Lists (fun i => i.parent = some b.uuid) info.childs := by
  intro b hb info hk
  have hnew := made_fresh hl
  rcases Table.mem_of_mem_foldl_put hb with hbl | hbs
  · rw [(hnew b hbl).2.2.2 info hk]
    apply Table.Lists.nil
    intro i hi hp
    rcases Table.mem_of_mem_foldl_put hi with hil | his
    · rw [(hnew i hil).2.2.1] at hp
      cases hp
    · exact (hnew b hbl).1 (h.sound.parent i his _ hp)
  · have hlists := h.linked.bridge b hbs info hk
    apply hlists.foldl_put
    intro i hi
    refine ⟨fun hp => ?_, h.fresh_not_listed hlists (hnew i hi).1⟩
    rw [(hnew i hi).2.2.1] at hp
    cases hp

theorem netns_made (h : Wired s) {netNs : Option Uuid} {l : List VirtualInterface}
    {issued : List Uuid} (hl : Made s.issued netNs l issued) (hn : n ∈ s.netns)
    (hne : netNs ≠ some n.uuid) :
    (l.foldl Table.put s.ifaces).Lists (fun i => i.netNs = some n.uuid) n.interfaces := by
  apply (h.linked.netns n hn).foldl_put
  intro i hi
  obtain ⟨hu, hns, -, -⟩ := made_fresh hl i hi
  exact ⟨fun hp => hne (hns ▸ hp), h.fresh_not_listed (h.linked.netns n hn) hu⟩

theorem madeIn (h : Wired s) {l : List VirtualInterface} {issued : List Uuid} (hn : n ∈ s.netns)
    (hl : Made s.issued (some n.uuid) l issued) : Linked { s with
      netns := s.netns.put { n with interfaces := n.interfaces ++ l.map fun i => i.uuid }
      ifaces := l.foldl Table.put s.ifaces
      issued } := by
  refine ⟨fun m hm => ?_, h.bridge_made hl⟩
  rcases Table.mem_put.1 hm with rfl | ⟨hm, hmn⟩
  · apply (h.linked.netns n hn).foldl_push _ (made_uuids hl)
    intro i hi
    obtain ⟨hu, hns, -, -⟩ := made_fresh hl i hi
    exact ⟨hns, h.fresh_not_listed (h.linked.netns n hn) hu⟩
  · exact h.netns_made hl hm fun hnm => hmn (Option.some.inj hnm).symm

theorem nsMade (h : Wired s) (hu : n.uuid ∉ s.issued) (hnil : n.interfaces = []) :
    Linked { s with netns := s.netns.put n, issued := n.uuid :: s.issued } := by
  refine ⟨fun m hm => ?_, h.linked.bridge⟩
  rcases Table.mem_put.1 hm with rfl | ⟨hm, -⟩
  · rw [hnil]
    exact Table.Lists.nil fun i hi hns => hu (h.sound.netNs i hi _ hns)
  · exact h.linked.netns m hm

/-! ### Steps -/

/-- A careful operation leaves the links in step. -/
theorem linked_step (h : Wired s) {op : Op} (he : Effect e s op s') (hc : Careful e s op) :
    Linked s' := by
  cases he with
  | same hs =>
    constructor
    · rw [hs.netns, hs.ifaces]
      exact h.linked.netns
    · rw [hs.ifaces]
      exact h.linked.bridge
  | cpMade _ _ _ _ _ => exact ⟨h.linked.netns, h.linked.bridge⟩
  | cpDeleted => exact ⟨h.linked.netns, h.linked.bridge⟩
  | nsMade hu hnil => exact h.nsMade hu hnil
  | nsDeleted => exact ⟨fun n hn => h.linked.netns n (Table.mem_erase.1 hn).1, h.linked.bridge⟩
  | made hl => exact ⟨fun n hn => h.netns_made hl hn (fun hc => by cases hc), h.bridge_made hl⟩
  | madeIn hn hl => exact h.madeIn hn hl
  | @deleted i _ hagent hi =>
    have hrel : s.Released (i.uuid :: s.refs VirtualInterface.pair? i.uuid) := hc _ hagent
    rw [refs_eq_toList hi] at hrel
    exact (h.removed_iff hi).2 hrel
  | macvanDeleted hagent hi hk => exact (h.removeInterface_iff hi).2 (hc _ hagent _ hi rfl _ hk)
  | @bridgeDeleted i hg =>
    have hsame : s.removeInterface i.uuid = s := by
      rw [Net.removeInterface, Table.erase_eq_self (h.sound.apart i hg)]
    rw [hsame]
    exact h.linked
  | @deletedIn i _ _ hagent hi hn hns _ =>
    have hrel : s.Loose i ∧ s.Released (s.refs VirtualInterface.pair? i.uuid) :=
      hc _ hagent _ hi rfl _ hn rfl hns
    rw [refs_eq_toList hi] at hrel
    exact (h.removedIn_iff hi hn hns).2 hrel
  | bound hagent hi hcp => exact (h.bound_iff hi hcp).2 (hc _ hagent _ hi rfl _ hcp rfl)
  | retouched hi _ hr => exact h.retouched hi hr
  | entered hagent hi hn => exact (h.entered_iff hi hn).2 (hc _ hagent _ hi rfl _ hn rfl)
  | left hi hn hns _ => exact h.left hi hn hns
  | leftNone hi hns hout => exact h.leftNone hi hns hout
  | attached hagent hi hb hk =>
    exact (h.attached_iff hi hb hk).2 (hc _ hagent _ hi rfl _ hb rfl _ hk)
  | detached hi hb hp hk _ => exact h.detached hi hb hp hk

theorem own_step (h : Wired s) {op : Op} (he : Effect e s op s') (hc : Careful e s op) :
    ∀ i ∈ s'.ifaces, i.parent ≠ some i.uuid := by
  have hput : ∀ i ∈ s.ifaces, ∀ j : VirtualInterface, j.uuid = i.uuid → j.parent = i.parent →
      j.parent ≠ some j.uuid := fun i hi j hu hp => by rw [hu, hp]; exact h.own i hi
  have hnew : ∀ {netNs l issued}, Made s.issued netNs l issued →
      ∀ i ∈ l.foldl Table.put s.ifaces, i.parent ≠ some i.uuid := by
    intro netNs l issued hl i hi
    rcases Table.mem_of_mem_foldl_put hi with hi | hi
    · rw [(made_fresh hl i hi).2.2.1]
      exact fun hc => by cases hc
    · exact h.own i hi
  cases he with
  | same hs =>
    rw [hs.ifaces]
    exact h.own
  | cpMade | cpDeleted | nsMade | nsDeleted => exact h.own
  | made hl => exact hnew hl
  | madeIn _ hl => exact hnew hl
  | deleted _ _ => exact fun j hj => h.own j (mem_removed.1 hj).1
  | deletedIn _ _ _ _ _ => exact fun j hj => h.own j (mem_removed.1 hj).1
  | macvanDeleted _ _ _ => exact fun j hj => h.own j (Table.mem_erase.1 hj).1
  | bridgeDeleted _ => exact fun j hj => h.own j (Table.mem_erase.1 hj).1
  | bound _ hi _ => exact Table.forall_put (hput _ hi _ rfl rfl) h.own
  | retouched hi _ hr => exact Table.forall_put (hput _ hi _ hr.uuid hr.parent) h.own
  | entered _ hi _ => exact Table.forall_put (hput _ hi _ rfl rfl) h.own
  | left hi _ _ _ => exact Table.forall_put (hput _ hi _ rfl rfl) h.own
  | leftNone hi _ _ => exact Table.forall_put (hput _ hi _ rfl rfl) h.own
  | attached hagent hi hb hk =>
    have hib := (hc _ hagent _ hi rfl _ hb rfl _ hk).1
    exact Table.forall_put (hput _ hb _ rfl rfl)
      (Table.forall_put (fun hbi => hib (Option.some.inj hbi).symm) h.own)
  | detached hi hb _ _ _ =>
    exact Table.forall_put (hput _ hb _ rfl rfl)
      (Table.forall_put (fun hc => by cases hc) h.own)

theorem step (h : Wired s) {op : Op} (he : Effect e s op s') (hc : Careful e s op) : Wired s' :=
  ⟨h.sound.step he, h.paired.step h.sound he, h.linked_step he hc, h.own_step he hc⟩

/-- An operation that is not careful leaves a link on one side only. -/
theorem careful_of_linked (h : Wired s) {op : Op} (h' : Linked (op.after e s)) :
    Careful e s op := by
  intro node hagent
  cases op with
  | deleteVirtualInterface u =>
    by_cases hu : ∃ i ∈ s.ifaces, i.uuid = u
    · obtain ⟨i, hi, rfl⟩ := hu
      rw [Op.after_of_ok (.deleteVirtualInterface _) (deleteVirtualInterface_eq hagent hi),
        h.removed_iff hi] at h'
      simp only [refs_eq_toList hi]
      exact h'
    · have hnone : s.ifaces.select (· = u) = [] := by
        apply List.eq_nil_iff_forall_not_mem.2
        intro i hi
        exact hu ⟨i, Table.mem_select.1 hi⟩
      intro i hi hiu
      rw [Net.refs, hnone] at hiu
      exact absurd ⟨i, hi, by simpa using hiu⟩ hu
  | deleteMacvanInterface u =>
    rintro i hi rfl info hk
    rw [Op.after_of_ok (.deleteMacvanInterface _) (deleteMacvanInterface_eq hagent hi hk)] at h'
    exact (h.removeInterface_iff hi).1 h'
  | deleteVirtualInterfaceInNamespace u v =>
    rintro i hi rfl n hn rfl hns
    have hmem : i.uuid ∈ n.interfaces := ((h.linked.netns n hn).mem i hi).1 hns
    rw [Op.after_of_ok (.deleteVirtualInterfaceInNamespace _ _)
      (deleteVirtualInterfaceInNamespace_eq hagent hi hn hns hmem), h.removedIn_iff hi hn hns] at h'
    rw [refs_eq_toList hi]
    exact h'
  | bindInterfaceToConnectionPoint u v =>
    rintro i hi rfl cp hcp rfl
    rw [Op.after_of_ok (.bindInterfaceToConnectionPoint _ _)
      (bindInterfaceToConnectionPoint_eq hagent hi hcp)] at h'
    exact (h.bound_iff hi hcp).1 h'
  | moveInterfaceInfoNamespace u v =>
    rintro i hi rfl n hn rfl
    rw [Op.after_of_ok (.moveInterfaceInfoNamespace _ _)
      (moveInterfaceInfoNamespace_eq hagent hi hn)] at h'
    exact (h.entered_iff hi hn).1 h'
  | attachInterfaceToBridge u v =>
    rintro i hi rfl b hb rfl info hk
    rw [Op.after_of_ok (.attachInterfaceToBridge _ _)
      (attachInterfaceToBridge_eq hagent hi hb hk)] at h'
    exact (h.attached_iff hi hb hk).1 h'
  | _ => exact trivial

theorem initial (h : s.Initial) : Wired s where
  sound := Sound.initial h
  paired i hi := by rw [h.ifaces] at hi; exact absurd hi (Table.not_mem_empty i)
  linked := by
    constructor
    · intro n hn
      rw [h.netns] at hn
      exact absurd hn (Table.not_mem_empty n)
    · intro b hb
      rw [h.ifaces] at hb
      exact absurd hb (Table.not_mem_empty b)
  own i hi := by rw [h.ifaces] at hi; exact absurd hi (Table.not_mem_empty i)

theorem run (h : Wired s) (l : List (Env × Op))
    (hl : ∀ l₁ step l₂, l = l₁ ++ step :: l₂ → Careful step.1 (s.run l₁) step.2) :
    Wired (s.run l) := by
  induction l generalizing s with
  | nil => exact h
  | cons step l ih =>
    have hstep : Wired (step.2.after step.1 s) := h.step (effect_after step.2) (hl [] step l rfl)
    refine ih hstep fun l₁ step' l₂ hl' => ?_
    exact hl (step :: l₁) step' l₂ (congrArg (step :: ·) hl')

theorem careful_of_run (h : Wired s) (l : List (Env × Op))
    (hl : ∀ l₁ l₂, l = l₁ ++ l₂ → Linked (s.run l₁)) :
    ∀ l₁ step l₂, l = l₁ ++ step :: l₂ → Careful step.1 (s.run l₁) step.2 := by
  induction l generalizing s with
  | nil =>
    intro l₁ step l₂ hnil
    exact absurd (congrArg List.length hnil) (by simp)
  | cons first l ih =>
    intro l₁ step l₂ hsplit
    have hcareful : Careful first.1 s first.2 := h.careful_of_linked (hl [first] l rfl)
    cases l₁ with
    | nil =>
      cases hsplit
      exact hcareful
    | cons first' l₁ =>
      cases hsplit
      refine ih (h.step (effect_after first.2) hcareful) (fun l₃ l₄ hl₄ => ?_) l₁ step l₂ rfl
      exact hl (first :: l₃) l₄ (congrArg (first :: ·) hl₄)

end Wired

/-- The links are in step in all states of a run exactly if its operations are all careful. -/
theorem linked_iff_careful (h : s.Initial) (l : List (Env × Op)) :
    (∀ l₁ l₂, l = l₁ ++ l₂ → Linked (s.run l₁)) ↔
      ∀ l₁ step l₂, l = l₁ ++ step :: l₂ → Careful step.1 (s.run l₁) step.2 := by
  constructor
  · exact (Wired.initial h).careful_of_run l
  · intro hcareful l₁ l₂ hl
    refine ((Wired.initial h).run l₁ fun l₃ step l₄ hl₁ => ?_).linked
    exact hcareful l₃ step (l₄ ++ l₂) (by rw [hl, hl₁, List.append_assoc, List.cons_append])

/-- Deleting a pair leaves its two ends in the list of their namespace. -/
def strayEntries : List Op :=
  [.createNetworkNamespace, .createVirtualInterfaceInNamespace ⟨"eth0", .veth⟩ 1,
    .deleteVirtualInterface 2]

theorem not_always_linked : ¬ ∀ s : Net, s.Reachable → Linked s := by
  intro h
  have hlinked := h (Net.play strayEntries) (Net.play_reachable _)
  have hnetns : (Net.play strayEntries).netns.rows.map (fun n => n.interfaces) = [[2, 3]] := rfl
  have hifaces : (Net.play strayEntries).ifaces.rows = [] := rfl
  obtain ⟨n, hn, hlist⟩ := List.mem_map.1 (hnetns ▸ List.mem_singleton_self [2, 3])
  obtain ⟨i, hi, -⟩ := (hlinked.netns n hn).stored 2 (by simp [hlist])
  rw [Table.mem_def, hifaces] at hi
  cases hi

/-- A pair whose ends leave their namespace before it is deleted. -/
def emptied : List (Env × Op) :=
  [.createNetworkNamespace, .createVirtualInterfaceInNamespace ⟨"eth0", .veth⟩ 1,
    .moveInterfaceIntoDefaultNamespace 2, .moveInterfaceIntoDefaultNamespace 3,
    .deleteVirtualInterface 2].map fun op => (Env.inOrder, op)

theorem linked_emptied : Linked (Net.blank.run emptied) := by
  refine (linked_iff_careful Net.blank_initial emptied).2 (fun l₁ step l₂ hl => ?_) emptied []
    (List.append_nil _).symm
  have hlinks : (Net.blank.run (emptied.take 4)).ifaces.rows.map (fun i => (i.netNs, i.parent)) =
      [(none, none), (none, none)] := rfl
  match l₁ with
  | [] => cases hl; exact fun _ _ => trivial
  | [_] => cases hl; exact fun _ _ => trivial
  | [_, _] => cases hl; exact fun _ _ => trivial
  | [_, _, _] => cases hl; exact fun _ _ => trivial
  | [_, _, _, _] =>
    cases hl
    intro _ _ i hi _
    have hi' := List.mem_map_of_mem (f := fun i : VirtualInterface => (i.netNs, i.parent)) hi
    have hnone : (i.netNs, i.parent) = (none, none) := by
      have hmem : (i.netNs, i.parent) ∈
          [((none : Option Uuid), (none : Option Uuid)), (none, none)] := hlinks ▸ hi'
      simpa using hmem
    obtain ⟨hns, hp⟩ := Prod.mk.inj hnone
    constructor
    · exact fun n _ hn => by rw [hns] at hn; cases hn
    · exact fun b _ hb => by rw [hp] at hb; cases hb
  | _ :: _ :: _ :: _ :: _ :: _ =>
    have hlen := congrArg List.length hl
    simp [emptied] at hlen

end DummyNetwork

end Fog05
