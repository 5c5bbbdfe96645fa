import Fog05.Proofs.Remote

/-! What an entity task does besides lifecycle calls: it writes its record, finds
clients for the nodes of its instances, and changes the catalog. -/

namespace Fog05

open Conc M

/-- What `advertise` publishes: a node's info names a service its own agent serves. -/
def Advertised (z : Session) (s : Fos) : Prop :=
  ∀ info ∈ s.global.nodes, z.server info.agentServiceUuid = some info.uuid

instance (z : Session) (s : Fos) : Decidable (Advertised z s) :=
  inferInstanceAs (Decidable (∀ info ∈ s.global.nodes.rows, _))

/-- The agent can find a client for node `m`: its own, or the advertised one. -/
def Located (a : Agent) (s : Fos) (m : Uuid) : Prop :=
  m = a.nodeUuid ∨ ∃ info, s.global.getNodeInfo m = .ok info

def Store.withFdus (st : Store) (fdus : Table FDUDescriptor.uuid) : Store :=
  { st with global := { st.global with fdus } }

/-- The state after a record of an entity instance has been written. -/
def Fos.write (s : Fos) (inst : EntityRecord) : Fos := (Access.run (.putEntityInstance inst) s).2

variable {s s₁ s' : Fos} {n u svc f : Uuid} {P Q : Uuid → Prop}

theorem Settled.write (hs : Settled s) (inst : EntityRecord) : Settled (s.write inst) :=
  ⟨hs.still, hs.free, hs.mirror, hs.home, hs.unique, hs.issued⟩

theorem Ready.write {before : FDUState} {inst : FDURecord} (h : Ready s.toStore n before inst)
    (r : EntityRecord) : Ready (s.write r).toStore n before inst :=
  ⟨h.known, h.home, h.plugin, h.status⟩

theorem mem_write {r r' : EntityRecord} :
    r ∈ (s.write r').global.entityInstances ↔
      r = r' ∨ r ∈ s.global.entityInstances ∧ r.path ≠ r'.path :=
  Table.mem_put

theorem mem_write_of_ne {r r' : EntityRecord} (h : r.path ≠ r'.path) :
    r ∈ (s.write r').global.entityInstances ↔ r ∈ s.global.entityInstances := by
  rw [mem_write, or_iff_right fun hr => h (congrArg _ hr), and_iff_left h]

theorem Settled.withFdus (hs : Settled s) {fdus : Table FDUDescriptor.uuid}
    (h : Leads s (s.withFdus fdus) s') : Settled s' := by
  obtain ⟨st, locks, issued, -, -⟩ := h
  refine ⟨st ▸ hs.still, fun p => (locks p).trans (hs.free p), ?_, ?_, ?_, ?_⟩ <;> rw [st]
  · exact hs.mirror
  · exact hs.home
  · exact hs.unique
  · exact fun i hi => issued (hs.issued i hi)

theorem leads_withFdus_stable (hs : s.Still) (fdus : Table FDUDescriptor.uuid) :
    Stable (Leads s (s.withFdus fdus)) := by
  have : (s.withFdus fdus).Still := hs
  exact Leads.stable this

theorem getNodeInfo_uuid {g : Global} {info : NodeInfo} (h : g.getNodeInfo n = .ok info) :
    info ∈ g.nodes ∧ info.uuid = n :=
  single_select_key h

theorem Only.advertised {z : Session} (h : Only P s s') (hadv : Advertised z s) :
    Advertised z s' := by
  rw [Advertised, h.nodes]
  exact hadv

theorem Only.located {a : Agent} (h : Only P s s') {m : Uuid} (hm : Located a s m) :
    Located a s' m := by
  rw [Located, Global.getNodeInfo, h.nodes]
  exact hm

/-- From `s`, only descriptors of the `touched` uuids have changed. -/
def CatalogOnly (touched : Option Uuid → Prop) (s s' : Fos) : Prop :=
  Leads s (s.withFdus s'.global.fdus) s' ∧
    ∀ d, ¬ touched d.uuid → (d ∈ s'.global.fdus ↔ d ∈ s.global.fdus)

namespace CatalogOnly

variable {A B : Option Uuid → Prop}

theorem of_leads (h : Leads s s.toStore s') : CatalogOnly A s s' := by
  have hf : s'.global.fdus = s.global.fdus := by rw [h.store]
  refine ⟨?_, fun d _ => by rw [hf]⟩
  rw [hf]
  exact h

theorem trans (h : CatalogOnly A s s₁) (h' : CatalogOnly A s₁ s') : CatalogOnly A s s' := by
  refine ⟨?_, fun d hd => (h'.2 d hd).trans (h.2 d hd)⟩
  have := h.1.trans h'.1
  rw [h.1.store] at this
  exact this

theorem mono (h : CatalogOnly A s s') (hAB : ∀ x, A x → B x) : CatalogOnly B s s' :=
  ⟨h.1, fun d hd => h.2 d fun ha => hd (hAB _ ha)⟩

theorem settled (h : CatalogOnly A s s') (hs : Settled s) : Settled s' := hs.withFdus h.1

theorem instances (h : CatalogOnly A s s') : s'.global.instances = s.global.instances := by
  rw [h.1.store]
  rfl

theorem rest (h : CatalogOnly A s s') :
    s'.global = { s.global with fdus := s'.global.fdus } := by
  rw [h.1.store]
  rfl

end CatalogOnly

variable {z : Session} {ok : Choice → Prop} [Fair ok] {t : Prop}

namespace Agent

variable {a : Agent} {α : Type} {Φ : Except Exn α → Fos → Prop}

theorem ensures_client (hs : s.Still) (ha : z.server a.instanceUuid = some a.nodeUuid)
    (hadv : Advertised z s) {m : Uuid} {k : Uuid → M α}
    (hok : ∀ svc, z.server svc = some m → Located a s m → Ensures z ok t (k svc) s Φ)
    (herr : ∀ e, ¬ Located a s m → Φ (.error e) s) :
    Ensures z ok t (client a m >>= k) s Φ := by
  by_cases hm : m = a.nodeUuid
  · rw [client, if_pos hm]
    exact hok _ (hm ▸ ha) (Or.inl hm)
  · rw [client, if_neg hm]
    refine ensures_bind (Ψ := fun o s' => s' = s ∧ match o with
      | .ok svc => z.server svc = some m ∧ Located a s m
      | .error _ => ¬ Located a s m) ?_ ?_ ?_
    · refine ensures_ask_bind hs (fun (info : NodeInfo) hinfo => ensures_pure ⟨rfl, ?_⟩)
        fun e he => ⟨rfl, ?_⟩
      · refine ⟨?_, Or.inr ⟨info, hinfo⟩⟩
        obtain ⟨hmem, rfl⟩ := getNodeInfo_uuid hinfo
        exact hadv info hmem
      · rintro (h | ⟨info, hinfo⟩)
        · exact hm h
        · rw [show s.global.getNodeInfo m = .error e from he] at hinfo
          cases hinfo
    · rintro svc _ ⟨rfl, h⟩
      exact hok svc h.1 h.2
    · rintro e _ ⟨rfl, h⟩
      exact herr e h

theorem ensures_writeStatus (hs : s.Still) {inst : EntityRecord} {status : EntityStatus}
    {k : EntityRecord → M α}
    (h : Ensures z ok t (k { inst with status }) (s.write { inst with status }) Φ) :
    Ensures z ok t (writeStatus inst status >>= k) s Φ := by
  refine ensures_bind (Ψ := fun o s' => o = .ok { inst with status } ∧
    s' = s.write { inst with status }) ?_ ?_ (fun _ _ h => by cases h.1)
  · exact ensures_ask_bind hs (fun _ _ => ensures_pure ⟨rfl, rfl⟩) nofun
  · rintro _ _ ⟨h', rfl⟩
    cases h'
    exact h

end Agent

end Fog05
