import Fog05.Model.Store

/-! The plugins of a node: the clients that the agent keeps in `AgentInner`, and
the `PluginInfo` records in the node's local store. `register_plugin` and
`unregister_plugin` hold the write lock on `AgentInner` from their first line to
their last, so each is one step; a store access may fail in it. -/

namespace Fog05

open Conc

inductive PluginKind
  | networking
  | hypervisor (name : String)
  | io
  | accelerator
  | gps
  deriving DecidableEq

def PluginKind.display : PluginKind → String
  | networking => "NETWORKING"
  | hypervisor name => name
  | io => "IO"
  | accelerator => "ACCELERATOR"
  | gps => "GPS"

structure PluginInfo where
  uuid : Uuid
  kind : PluginKind
  name : String

/-- The clients in memory, each known by the uuid of the plugin it calls. -/
structure AgentInner where
  networking : Option Uuid
  hypervisors : String → Option Uuid

/-- `AgentInner { networking: None, hypervisors: HashMap::new(), .. }`. -/
def AgentInner.new : AgentInner := ⟨none, fun _ => none⟩

structure Registry where
  inner : AgentInner
  plugins : Table PluginInfo.uuid

/-- The failures, if any, of the store accesses that a call makes. -/
structure Faults where
  read : Option FError
  write : Option FError

def Faults.none : Faults := ⟨.none, .none⟩

namespace Registry

variable (r : Registry)

def getPlugin (f : Faults) (pluginUuid : Uuid) : Except FError PluginInfo :=
  f.read.elim (single (r.plugins.select (· = pluginUuid))) .error

def addPlugin (f : Faults) (info : PluginInfo) : Except FError Uuid × Registry :=
  f.write.elim (.ok info.uuid, { r with plugins := r.plugins.put info }) fun e => (.error e, r)

def removePlugin (f : Faults) (pluginUuid : Uuid) : Except FError Uuid × Registry :=
  f.write.elim (.ok pluginUuid, { r with plugins := r.plugins.erase pluginUuid })
    fun e => (.error e, r)

def setHypervisor (name : String) (client : Option Uuid) : Registry :=
  { r with inner := { r.inner with
    hypervisors := Function.update r.inner.hypervisors name client } }

def setNetworking (client : Option Uuid) : Registry :=
  { r with inner := { r.inner with networking := client } }

def registerPlugin (f : Faults) (pluginUuid : Uuid) (kind : PluginKind) :
    Except FError Uuid × Registry :=
  let info : PluginInfo := ⟨pluginUuid, kind, kind.display ++ "Plugin"⟩
  match kind with
  | .hypervisor hv =>
      match r.inner.hypervisors hv with
      | some _ => (.error .alreadyPresent, r)
      | none => (r.setHypervisor hv (some pluginUuid)).addPlugin f info
  | .networking =>
      match r.inner.networking with
      | some _ => (.error .alreadyPresent, r)
      | none => (r.setNetworking (some pluginUuid)).addPlugin f info
  | _ => (.error (.unknownError "Not yet..."), r)

def unregisterPlugin (f : Faults) (pluginUuid : Uuid) : Except FError Uuid × Registry :=
  match r.getPlugin f pluginUuid with
  | .error e => (.error e, r)
  | .ok info =>
      match info.kind with
      | .hypervisor hv => (r.setHypervisor hv none).removePlugin f pluginUuid
      | .networking => (r.setNetworking none).removePlugin f pluginUuid
      | _ => (.error .unimplemented, r)

/-- A new agent process on the same store. -/
def restart : Registry := { r with inner := AgentInner.new }

/-- A new agent on a node that has never had a plugin. -/
def new : Registry := ⟨AgentInner.new, Table.empty⟩

end Registry

inductive RegistryCall
  | register (pluginUuid : Uuid) (kind : PluginKind)
  | unregister (pluginUuid : Uuid)

def RegistryCall.serve (f : Faults) (r : Registry) : RegistryCall → Except FError Uuid × Registry
  | .register pluginUuid kind => r.registerPlugin f pluginUuid kind
  | .unregister pluginUuid => r.unregisterPlugin f pluginUuid

/-- What happens to an agent: a call, with the failures it meets, or a restart. -/
inductive RegistryEvent
  | call (c : RegistryCall) (f : Faults)
  | restart

def RegistryEvent.next (r : Registry) : RegistryEvent → Registry
  | .call c f => (c.serve f r).2
  | .restart => r.restart

end Fog05
