import Fog05.Proofs.Bookkeeping
import Fog05.Proofs.Provision

/-! What `configure_fdu` leaves in the networking plugin of the repository, by itself when it
fails and after a `clean_fdu` when it succeeds. -/

namespace Fog05

open Conc M DummyNetwork

namespace DummyHypervisor

variable {z : Session} {n p : Uuid} {m₀ : Net} {nss points : Set Uuid}
  {ends : List (Uuid × Uuid)} {α β : Type}

/-! ### Faults -/

/-- What may fail while a call is served: accesses of the plugin, writes of an instance to its
local store apart; these writes; the agent's answers to the networking plugin. -/
structure Faults where
  access : Access → Prop
  write : Prop
  network : Prop

def Faults.fails (x : Faults) : Access → Prop
  | .localPutInstance _ _ => x.write
  | a => x.access a

variable {x : Faults}

/-- The records of the connection points that have been made for these ids: none is missing
if the ids differ. -/
structure Recorded (ids : List String) (points : Set Uuid) (cps : List FDURecordConnectionPoint) :
    Prop where
  named : ∀ id, id ∈ ids ↔ ∃ c ∈ cps, c.id = id
  stored : ∀ c ∈ cps, c.uuid ∈ points
  once : (cps.map fun c => c.uuid).Nodup
  all : (∀ u ∈ points, ∃ c ∈ cps, c.uuid = u) ↔ ids.Nodup

namespace Recorded

variable {ids : List String} {cps : List FDURecordConnectionPoint}

theorem nil : Recorded [] ∅ [] := by
  constructor <;> simp

theorem eq_of_uuid (h : Recorded ids points cps) {c c' : FDURecordConnectionPoint} (hc : c ∈ cps)
    (hc' : c' ∈ cps) (huuid : c.uuid = c'.uuid) : c = c' :=
  List.inj_on_of_nodup_map h.once hc hc' huuid

theorem put (h : Recorded ids points cps) {u : Uuid} (hu : u ∉ points) (id : String) :
    Recorded (ids ++ [id]) (insert u points) (cps.filter (fun c => c.id ≠ id) ++ [⟨u, id⟩]) := by
  have hmem : ∀ c, c ∈ cps.filter (fun c => c.id ≠ id) ++ [⟨u, id⟩] ↔
      c ∈ cps ∧ c.id ≠ id ∨ c = ⟨u, id⟩ := by
    intro c
    simp
  have hnew : ∀ c ∈ cps, c.uuid ≠ u := fun c hc hcu => hu (hcu ▸ h.stored c hc)
  constructor
  case named =>
    intro id'
    simp only [List.mem_append, List.mem_singleton, hmem, h.named]
    constructor
    · rintro (⟨c, hc, rfl⟩ | rfl)
      · by_cases hid : c.id = id
        · exact ⟨⟨u, id⟩, Or.inr rfl, hid.symm⟩
        · exact ⟨c, Or.inl ⟨hc, hid⟩, rfl⟩
      · exact ⟨⟨u, id'⟩, Or.inr rfl, rfl⟩
    · rintro ⟨c, ⟨hc, -⟩ | rfl, rfl⟩
      · exact Or.inl ⟨c, hc, rfl⟩
      · exact Or.inr rfl
  case stored =>
    intro c hc
    rcases (hmem c).1 hc with ⟨hc, -⟩ | rfl
    · exact Set.mem_insert_of_mem _ (h.stored c hc)
    · exact Set.mem_insert _ _
  case once =>
    rw [List.map_append, List.nodup_append]
    refine ⟨h.once.sublist (List.filter_sublist.map _), by simp, fun w hw w' hw' => ?_⟩
    obtain ⟨c, hc, rfl⟩ := List.mem_map.1 hw
    obtain rfl : w' = u := by simpa using hw'
    exact hnew c (List.mem_filter.1 hc).1
  case all =>
    rw [List.nodup_append]
    constructor
    · -- a record whose place has been taken is missing
      intro hall
      have hold : ∀ w ∈ points, ∃ c ∈ cps, c.id ≠ id ∧ c.uuid = w := by
        intro w hw
        obtain ⟨c, hc, rfl⟩ := hall w (Set.mem_insert_of_mem _ hw)
        rcases (hmem c).1 hc with ⟨hc, hid⟩ | rfl
        · exact ⟨c, hc, hid, rfl⟩
        · exact absurd hw hu
      refine ⟨h.all.1 fun w hw => ?_, by simp, fun id' hid' id'' hid'' => ?_⟩
      · obtain ⟨c, hc, -, hcw⟩ := hold w hw
        exact ⟨c, hc, hcw⟩
      · obtain rfl := List.mem_singleton.1 hid''
        obtain ⟨c, hc, rfl⟩ := (h.named id').1 hid'
        obtain ⟨c', hc', hid, huuid⟩ := hold c.uuid (h.stored c hc)
        rwa [h.eq_of_uuid hc' hc huuid] at hid
    · rintro ⟨hids, -, hdiff⟩ w hw
      rcases Set.mem_insert_iff.1 hw with rfl | hw
      · exact ⟨⟨w, id⟩, (hmem _).2 (Or.inr rfl), rfl⟩
      · obtain ⟨c, hc, rfl⟩ := h.all.2 hids w hw
        refine ⟨c, (hmem c).2 (Or.inl ⟨hc, ?_⟩), rfl⟩
        exact hdiff c.id ((h.named c.id).2 ⟨c, hc, rfl⟩) id (List.mem_singleton_self id)

end Recorded

/-! ### Making -/

variable {w : Seen Net} {ids : List String} {cps : List FDURecordConnectionPoint}
  {ns v : Uuid}

/-- The id that an interface names, if it names one, is among `ids`. -/
def Names (ids : List String) (cpId : Option String) : Prop := ∀ id, cpId = some id → id ∈ ids

section May

variable {b : M α} {f : α → M β} {Q : Except Exn β → Seen Net → Prop}

end May

/-! ### How the calls end -/

variable {u : Uuid} {inst : FDURecord} {d : FDUDescriptor}

/-- It has failed, and the namespace that it has made is still there. -/
def Stuck (m₀ : Net) (o : Except Exn α) (w : Seen Net) : Prop :=
  (∃ e, o = .error e) ∧ ∃ ns ends points, Grown m₀ w.net {ns} ends points

section Configure

variable (hfree : w.locked = false) (hinst : w.getInstance u = .ok inst)
  (hstatus : inst.status = .defined)
  (hd : single (w.catalog.select (· = some inst.fduUuid)) = .ok d) (hs : Sound w.net)

include hfree hinst hstatus hd hs

end Configure

section Leaks

variable {s : Fos × Net} (hfree : (s.1.plugin p).locked = false)
  (hinst : (s.1.node n).getInstance u = .ok inst) (hstatus : inst.status = .defined)
  (hd : s.1.global.getFdu inst.fduUuid = .ok d) (hs : Sound s.2)

include hfree hinst hstatus hd hs

end Leaks

end DummyHypervisor

end Fog05
