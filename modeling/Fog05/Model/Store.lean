import Fog05.Conc.Table
import Fog05.Model.Im
import Mathlib.Logic.Function.Basic

/-! What a deployment stores: the global zenoh store, and for every node its
local store, the changes on their way to the agent's monitoring task and the
plugins registered with its agent. -/

namespace Fog05

open Conc

/-- What the get functions of both connectors do with the data a selector
returned: `match data.len()`. -/
def single {α : Type} : List α → Except FError α
  | [] => .error .notFound
  | [a] => .ok a
  | _ => .error .tooMuchError

@[simp] theorem single_eq_ok {α : Type} {l : List α} {a : α} : single l = .ok a ↔ l = [a] := by
  rcases l with _ | ⟨b, _ | ⟨c, l⟩⟩ <;> simp [single]

@[simp] theorem single_eq_notFound {α : Type} {l : List α} :
    single l = .error .notFound ↔ l = [] := by
  rcases l with _ | ⟨b, _ | ⟨c, l⟩⟩ <;> simp [single]

theorem exists_ok {ε α : Type} {e : Except ε α} {q : α → Bool} (h : e.toOption.any q = true) :
    ∃ x, e = .ok x ∧ q x = true := by
  cases e with
  | error e => cases h
  | ok x => exact ⟨x, rfl, h⟩

theorem single_select_key {α κ : Type} {key : α → κ} {q : κ → Prop} [DecidablePred q]
    {t : Table key} {x : α} (h : single (t.select q) = .ok x) : x ∈ t ∧ q (key x) :=
  Table.mem_select.1 (single_eq_ok.1 h ▸ List.mem_singleton_self x)

theorem eq_of_single {α κ : Type} {key : α → κ} {q : κ → Prop} [DecidablePred q]
    {t : Table key} {a b : α} (h : single (t.select q) = .ok a) (hb : b ∈ t) (hq : q (key b)) :
    b = a := by
  have hmem : b ∈ t.select q := Table.mem_select.2 ⟨hb, hq⟩
  rw [single_eq_ok.1 h] at hmem
  exact List.mem_singleton.1 hmem

theorem single_select_eq_ok {α κ : Type} {key : α → κ} {q : κ → Prop} [DecidablePred q]
    {t : Table key} {a : α} (hq : ∀ b ∈ t, q (key b) → b = a) :
    single (t.select q) = .ok a ↔ a ∈ t ∧ q (key a) := by
  refine ⟨single_select_key, fun ha => single_eq_ok.2 ?_⟩
  have hnd : (t.select q).Nodup := (Table.nodup_filter _).of_map key
  refine List.perm_singleton.1 ((List.perm_ext_iff_of_nodup hnd (List.nodup_singleton a)).2 ?_)
  intro b
  rw [Table.mem_select, List.mem_singleton]
  exact ⟨fun h => hq b h.1 h.2, fun h => h ▸ ha⟩

structure Global where
  fdus : Table FDUDescriptor.uuid
  entities : Table EntityDescriptor.uuid
  instances : Table FDURecord.path
  entityInstances : Table EntityRecord.path
  nodes : Table NodeInfo.uuid
  nodesStatus : Table NodeStatus.uuid

namespace Global

variable (g : Global)

def getFdu (fduUuid : Uuid) : Except FError FDUDescriptor :=
  single (g.fdus.select (· = some fduUuid))

def getEntity (entityUuid : Uuid) : Except FError EntityDescriptor :=
  single (g.entities.select (· = some entityUuid))

def getInstance (instanceUuid : Uuid) : Except FError FDURecord :=
  single (g.instances.select fun path => path.2 = instanceUuid)

def getAllFduInstances (fduUuid : Uuid) : List FDURecord :=
  g.instances.select fun path => path.1 = fduUuid

def getEntityInstance (instanceUuid : Uuid) : Except FError EntityRecord :=
  single (g.entityInstances.select fun path => path.2 = instanceUuid)

def getAllEntityInstances (entityUuid : Uuid) : List EntityRecord :=
  g.entityInstances.select fun path => path.1 = entityUuid

def getNodeInfo (nodeUuid : Uuid) : Except FError NodeInfo :=
  single (g.nodes.select (· = nodeUuid))

def getNodeStatus (nodeUuid : Uuid) : Except FError NodeStatus :=
  single (g.nodesStatus.select (· = nodeUuid))

end Global

/-- A node: its local store as far as instances go, the channel that
`subscribe_instances` fills, and the `hypervisors` of `AgentInner`. -/
structure Node where
  instances : Table FDURecord.path
  changes : List FDURecord
  hypervisors : String → Option Uuid

def Node.getInstance (m : Node) (instanceUuid : Uuid) : Except FError FDURecord :=
  single (m.instances.select fun path => path.2 = instanceUuid)

structure Store where
  global : Global
  node : Uuid → Node

namespace Store

variable (s : Store)

def setNode (n : Uuid) (m : Node) : Store := { s with node := Function.update s.node n m }

/-- The put of `Global::add_instance`. -/
def globalPut (inst : FDURecord) : Store :=
  { s with global := { s.global with instances := s.global.instances.put inst } }

/-- The delete of `Global::remove_instance`. -/
def globalDelete (fduUuid instanceUuid : Uuid) : Store :=
  { s with global := { s.global with
    instances := s.global.instances.erase (fduUuid, instanceUuid) } }

/-- The put of `Local::add_instance`, which the subscription forwards. -/
def localPut (n : Uuid) (inst : FDURecord) : Store :=
  s.setNode n { s.node n with
    instances := (s.node n).instances.put inst, changes := (s.node n).changes ++ [inst] }

/-- The delete of `Local::remove_instance`, which the subscription drops. -/
def localDelete (n fduUuid instanceUuid : Uuid) : Store :=
  s.setNode n { s.node n with instances := (s.node n).instances.erase (fduUuid, instanceUuid) }

/-- One round of the monitoring task of node `n`: `Global::add_instance` of the
change at the head of its channel. -/
def monitor (n : Uuid) : Option Store :=
  match (s.node n).changes with
  | [] => none
  | inst :: changes => some ((s.setNode n { s.node n with changes }).globalPut inst)

/-- A record put in the local store of node `n` and copied to the global one. -/
def publish (n : Uuid) (inst : FDURecord) : Store :=
  (s.setNode n { s.node n with instances := (s.node n).instances.put inst }).globalPut inst

/-- The inverse: a record gone from the local store of node `n` and from the global one. -/
def withdraw (n : Uuid) (inst : FDURecord) : Store :=
  (s.localDelete n inst.fduUuid inst.uuid).globalDelete inst.fduUuid inst.uuid

end Store

end Fog05
