import Fog05.Model.Subscription
import Fog05.Model.System

/-! The deployment on a zenoh store. The calls are those of the deployment whose stores are
tables; here every access goes through a connector, and a monitoring task gets the records
that the subscription of its node reads out of the changes that zenoh reports. -/

namespace Fog05

open Conc ZConnector

def Change.put {α : Type} [Serde α] (info : α) : Change :=
  ⟨.put, (serializeData info).toOption.map .raw⟩

def Change.delete : Change := ⟨.delete, none⟩

/-- The state of such a deployment: the store, for every node the changes that its
subscription has not read yet, and what `Fos` has besides its stores. -/
structure ZFos where
  zenoh : Zenoh
  subscription : Uuid → List Change
  hypervisors : Uuid → String → Option Uuid
  plugin : Uuid → DummyHVState
  issued : List Uuid
  tasks : List Task

variable [DisplayUuid] [Serde NodeInfo] [Serde NodeStatus] [Serde FDUDescriptor]
  [Serde FDURecord] [Serde EntityDescriptor] [Serde EntityRecord]

namespace ZFos

variable (s : ZFos)

def setPlugin (p : Uuid) (st : DummyHVState) : ZFos :=
  { s with plugin := Function.update s.plugin p st }

/-- Zenoh reports a change to the nodes whose subscription matches the path. -/
def report (path : Path) (change : Change) : ZFos :=
  { s with subscription := fun n =>
      if Matches "*" ((Local.mk n).path Local.nodeInstanceSelector3 []) path then
        s.subscription n ++ [change]
      else s.subscription n }

/-- A call of a connector that writes what is stored under the path. -/
def write (path : Path) (change : Change) (call : Zenoh → Except FError Unit × Zenoh) :
    Except FError Unit × ZFos :=
  match call s.zenoh with
  | (.ok (), zenoh) => (.ok (), { s with zenoh }.report path change)
  | (.error e, zenoh) => (.error e, { s with zenoh })

end ZFos

variable (c : ZConnector.Global)

/-- The access by the connectors `c` and, for node `n`, `Local.mk n`. -/
def Access.perform : (a : Access) → ZFos → Except FError a.Ret × ZFos
  | .getFdu f, s => (c.getFdu f s.zenoh, s)
  | .putFdu d, s => s.write (c.path Global.fduDescriptorPath d.uuid.toList) (.put d) (c.addFdu d)
  | .deleteFdu f, s => s.write (c.path Global.fduDescriptorPath [f]) .delete (c.removeFdu f)
  | .getEntity e, s => (c.getEntity e s.zenoh, s)
  | .putEntity d, s =>
      s.write (c.path Global.entityDescriptorPath d.uuid.toList) (.put d) (c.addEntity d)
  | .deleteEntity e, s => s.write (c.path Global.entityDescriptorPath [e]) .delete (c.removeEntity e)
  | .getInstance u, s => (c.getInstance u s.zenoh, s)
  | .getAllFduInstances f, s => (c.getAllFduInstances f s.zenoh, s)
  | .deleteInstance f u, s =>
      s.write (c.path Global.fduInstancePath [f, u]) .delete
        (Zenoh.remove (c.path Global.fduInstancePath [f, u]))
  | .getEntityInstance u, s => (c.getEntityInstance u s.zenoh, s)
  | .getAllEntityInstances e, s => (c.getAllEntityInstances e s.zenoh, s)
  | .putEntityInstance inst, s =>
      s.write (c.path Global.entityInstancePath [inst.id, inst.uuid]) (.put inst)
        (c.addEntityInstance inst)
  | .getNodeInfo n, s => (c.getNodeInfo n s.zenoh, s)
  | .getAllNodes, s => (c.getAllNodes s.zenoh, s)
  | .getNodeStatus n, s => (c.getNodeStatus n s.zenoh, s)
  | .localGetInstance n u, s => ((Local.mk n).getInstance u s.zenoh, s)
  | .localPutInstance n inst, s =>
      s.write ((Local.mk n).path Local.nodeInstancePath [inst.fduUuid, inst.uuid]) (.put inst)
        ((Local.mk n).addInstance inst)
  | .localDeleteInstance n f u, s =>
      s.write ((Local.mk n).path Local.nodeInstancePath [f, u]) .delete
        (Zenoh.remove ((Local.mk n).path Local.nodeInstancePath [f, u]))
  | .request _, s => (.ok (), s)
  | .reply _ o, s => (o, s)

def zexec : (c : Cmd) → Choice → ZFos → Option (c.Ans × ZFos)
  | .access a, .go, s => some (a.perform c s)
  | .access _, .fault e, s => some (.error e, s)
  | .net _ _, .net o, s => some (o, s)
  | .hypervisor n name, .go, s => some (s.hypervisors n name, s)
  | .lock p, .go, s =>
      if (s.plugin p).locked then none
      else some ((), s.setPlugin p { s.plugin p with locked := true })
  | .unlock p, .go, s => some ((), s.setPlugin p { s.plugin p with locked := false })
  | .insert p inst, .go, s =>
      some ((), s.setPlugin p { s.plugin p with fdus := (s.plugin p).fdus.put inst })
  | .remove p u, .go, s =>
      some ((), s.setPlugin p { s.plugin p with fdus := (s.plugin p).fdus.erase u })
  | .newUuid, .uuid u, s =>
      if u ∈ s.issued then none else some (u, { s with issued := u :: s.issued })
  | .choose [], .go, s => some (none, s)
  | .choose (u :: l), .pick i, s => (u :: l)[i]?.map fun v => (some v, s)
  | .pathExists _, .path b, s => some (b, s)
  | .spawn t, .go, s => some ((), { s with tasks := s.tasks ++ [t] })
  | _, _, _ => none

/-- What the loop of `subscribe_instances` sends next, and the changes it has not read by then. -/
def nextSent : List Change → Option (FDURecord × List Change)
  | [] => none
  | change :: changes =>
      match Local.sent deserializeData change with
      | some inst => some (inst, changes)
      | none => nextSent changes

/-- One round of the monitoring task of node `n`. -/
def ZFos.monitor (n : Uuid) (s : ZFos) : Option ZFos :=
  (nextSent (s.subscription n)).map fun x =>
    ({ s with subscription := Function.update s.subscription n x.2 }.write
      (c.path Global.fduInstancePath [x.1.fduUuid, x.1.uuid]) (.put x.1) (c.addInstance x.1)).2

def zlaunch (s : ZFos) : Option (Proc × ZFos) :=
  match s.tasks with
  | [] => none
  | t :: tasks => some (.task t, { s with tasks })

def zmachine (z : Session) : Machine Cmd.Ans Proc.Ret Exn Choice Uuid ZFos where
  exec := zexec c
  move := ZFos.monitor c
  body := body z
  launch := zlaunch

abbrev ZCalls := Pool Cmd.Ans Proc.Ret Exn ZFos

/-- The store that the agents and the clients have filled through the connector. -/
def zcatalog (sites : List Site) (fdus : List FDUDescriptor) (entities : List EntityDescriptor) :
    Zenoh :=
  let z := sites.foldl (fun z site => (c.addNodeInfo site.info z).2) Table.empty
  let z := sites.foldl (fun z site => (c.addNodeStatus site.status z).2) z
  let z := fdus.foldl (fun z d => (c.addFdu d z).2) z
  entities.foldl (fun z d => (c.addEntity d z).2) z

def zboot (sites : List Site) (fdus : List FDUDescriptor) (entities : List EntityDescriptor) :
    ZFos where
  zenoh := zcatalog c sites fdus entities
  subscription _ := []
  hypervisors := fun n name =>
    (sites.find? fun site => site.info.uuid = n).bind fun site => site.hypervisors name
  plugin _ := ⟨Table.empty, false⟩
  issued := []
  tasks := []

end Fog05
