import Fog05.Model.Connector

/-! The calls of the two connectors: whose objects a call is about, which of them
it looks up and which of them it writes. -/

namespace Fog05.ZConnector

open Conc

inductive Global.Family
  | systemInfo
  | systemConfig
  | nodeInfo
  | nodeStatus
  | plugin
  | virtualNetwork
  | connectionPoint
  | interface
  | fdu
  | fduInstance
  | entity
  | entityInstance
  deriving DecidableEq

inductive Local.Family
  | nodeInfo
  | nodeStatus
  | plugin
  | virtualNetwork
  | connectionPoint
  | interface
  | networkNamespace
  | fduInstance
  deriving DecidableEq

def Global.Family.template : Global.Family → Template String
  | systemInfo => sysInfoPath
  | systemConfig => sysConfPath
  | nodeInfo => nodeInfoPath
  | nodeStatus => nodeStatusPath
  | plugin => nodePluginPath
  | virtualNetwork => vnetPath
  | connectionPoint => cpPath
  | interface => vifacePath
  | fdu => fduDescriptorPath
  | fduInstance => fduInstancePath
  | entity => entityDescriptorPath
  | entityInstance => entityInstancePath

def Local.Family.template : Local.Family → Template String
  | nodeInfo => nodeInfoPath
  | nodeStatus => nodeStatusPath
  | plugin => nodePluginPath
  | virtualNetwork => nodeVnetPath
  | connectionPoint => nodeCpPath
  | interface => nodeVifacePath
  | networkNamespace => nodeNetnsPath
  | fduInstance => nodeInstancePath

inductive Space
  | inGlobal (c : Global) (family : Global.Family)
  | inLocal (c : Local) (family : Local.Family)

namespace Space

variable [DisplayUuid]

def template : Space → Template String
  | inGlobal _ f => f.template
  | inLocal _ f => f.template

/-- What the paths of the scope begin with. -/
def base : Space → List String
  | inGlobal c .systemInfo | inGlobal c .systemConfig => [display c.systemId]
  | inGlobal c _ => [display c.systemId, display c.tenantId]
  | inLocal c _ => [display c.nodeUuid]

/-- Where the object known by `ids` is stored. -/
def path (s : Space) (ids : List Uuid) : Path := s.template.format (s.base ++ ids.map display)

/-- A selector for the objects whose ids are as given, where they are given. -/
def selector (s : Space) (query : List (Option Uuid)) : Path :=
  s.template.format (s.base ++ query.map fun id => id.elim "*" display)

end Space

inductive Global.Call : Type → Type
  | getSystemInfo : Global.Call Types.SystemInfo
  | getSystemConfig : Global.Call Types.SystemConfig
  | getAllNodes : Global.Call (List NodeInfo)
  | getNodeInfo (nodeUuid : Uuid) : Global.Call NodeInfo
  | removeNodeInfo (nodeUuid : Uuid) : Global.Call Unit
  | addNodeInfo (nodeInfo : NodeInfo) : Global.Call Unit
  | getNodeStatus (nodeUuid : Uuid) : Global.Call NodeStatus
  | addNodeStatus (nodeStatus : NodeStatus) : Global.Call Unit
  | removeNodeStatus (nodeUuid : Uuid) : Global.Call Unit
  | getPlugin (nodeid pluginUuid : Uuid) : Global.Call PluginInfo
  | getVirtualNetwork (netUuid : Uuid) : Global.Call Types.VirtualNetwork
  | addVirutalNetwork (vnetInfo : Types.VirtualNetwork) : Global.Call Unit
  | removeVirtualNetwork (netUuid : Uuid) : Global.Call Unit
  | getConnectionPoint (cpUuid : Uuid) : Global.Call Types.ConnectionPoint
  | addConnectionPoint (cpInfo : Types.ConnectionPoint) : Global.Call Unit
  | removeConnectionPoint (cpUuid : Uuid) : Global.Call Unit
  | getInterface (ifaceUuid : Uuid) : Global.Call Types.VirtualInterface
  | addInterface (ifaceInfo : Types.VirtualInterface) : Global.Call Unit
  | removeInterface (ifaceUuid : Uuid) : Global.Call Unit
  | getFdu (fduUuid : Uuid) : Global.Call FDUDescriptor
  | getAllFdu : Global.Call (List FDUDescriptor)
  | addFdu (fduInfo : FDUDescriptor) : Global.Call Unit
  | removeFdu (fduUuid : Uuid) : Global.Call Unit
  | getInstance (instanceUuid : Uuid) : Global.Call FDURecord
  | getAllInstances : Global.Call (List FDURecord)
  | getAllFduInstances (fduUuid : Uuid) : Global.Call (List FDURecord)
  | addInstance (instanceInfo : FDURecord) : Global.Call Unit
  | removeInstance (instanceUuid : Uuid) : Global.Call Unit
  | getEntity (entityUuid : Uuid) : Global.Call EntityDescriptor
  | getAllEntity : Global.Call (List EntityDescriptor)
  | addEntity (entityInfo : EntityDescriptor) : Global.Call Unit
  | removeEntity (entityUuid : Uuid) : Global.Call Unit
  | getEntityInstance (instanceUuid : Uuid) : Global.Call EntityRecord
  | getAllEntitiesInstances : Global.Call (List EntityRecord)
  | getAllEntityInstances (entityUuid : Uuid) : Global.Call (List EntityRecord)
  | addEntityInstance (instanceInfo : EntityRecord) : Global.Call Unit
  | removeEntityInstance (instanceUuid : Uuid) : Global.Call Unit

inductive Local.Call : Type → Type
  | getNodeInfo : Local.Call NodeInfo
  | removeNodeInfo : Local.Call Unit
  | addNodeInfo (nodeInfo : NodeInfo) : Local.Call Unit
  | getNodeStatus : Local.Call NodeStatus
  | addNodeStatus (nodeStatus : NodeStatus) : Local.Call Unit
  | removeNodeStatus : Local.Call Unit
  | getPlugin (pluginUuid : Uuid) : Local.Call PluginInfo
  | addPlugin (pluginInfo : PluginInfo) : Local.Call Unit
  | removePlugin (pluginUuid : Uuid) : Local.Call Unit
  | getVirtualNetwork (netUuid : Uuid) : Local.Call Types.VirtualNetwork
  | addVirutalNetwork (vnetInfo : Types.VirtualNetwork) : Local.Call Unit
  | removeVirtualNetwork (netUuid : Uuid) : Local.Call Unit
  | getConnectionPoint (cpUuid : Uuid) : Local.Call Types.ConnectionPoint
  | addConnectionPoint (cpInfo : Types.ConnectionPoint) : Local.Call Unit
  | removeConnectionPoint (cpUuid : Uuid) : Local.Call Unit
  | getInterface (ifaceUuid : Uuid) : Local.Call Types.VirtualInterface
  | getAllInterfaces : Local.Call (List Types.VirtualInterface)
  | addInterface (ifaceInfo : Types.VirtualInterface) : Local.Call Unit
  | removeInterface (ifaceUuid : Uuid) : Local.Call Unit
  | getInstance (instanceUuid : Uuid) : Local.Call FDURecord
  | getAllInstances : Local.Call (List FDURecord)
  | getAllFduInstances (fduUuid : Uuid) : Local.Call (List FDURecord)
  | addInstance (instanceInfo : FDURecord) : Local.Call Unit
  | removeInstance (instanceUuid : Uuid) : Local.Call Unit
  | getNetworkNamespace (nsUuid : Uuid) : Local.Call Types.NetworkNamespace
  | addNetworkNamespace (nsInfo : Types.NetworkNamespace) : Local.Call Unit
  | removeNetworkNamespace (nsUuid : Uuid) : Local.Call Unit

section Run

variable [DisplayUuid] [Serde Types.SystemInfo] [Serde Types.SystemConfig] [Serde NodeInfo]
  [Serde NodeStatus] [Serde PluginInfo] [Serde Types.VirtualNetwork]
  [Serde Types.ConnectionPoint] [Serde Types.VirtualInterface] [Serde Types.NetworkNamespace]
  [Serde FDUDescriptor] [Serde FDURecord] [Serde EntityDescriptor] [Serde EntityRecord]
  {α : Type}

/-- What the call answers, and the store it leaves. -/
def Global.Call.run (c : Global) : Global.Call α → Zenoh → Except FError α × Zenoh
  | getSystemInfo, z => (c.getSystemInfo z, z)
  | getSystemConfig, z => (c.getSystemConfig z, z)
  | getAllNodes, z => (c.getAllNodes z, z)
  | getNodeInfo nodeUuid, z => (c.getNodeInfo nodeUuid z, z)
  | removeNodeInfo nodeUuid, z => c.removeNodeInfo nodeUuid z
  | addNodeInfo nodeInfo, z => c.addNodeInfo nodeInfo z
  | getNodeStatus nodeUuid, z => (c.getNodeStatus nodeUuid z, z)
  | addNodeStatus nodeStatus, z => c.addNodeStatus nodeStatus z
  | removeNodeStatus nodeUuid, z => c.removeNodeStatus nodeUuid z
  | getPlugin nodeid pluginUuid, z => (c.getPlugin nodeid pluginUuid z, z)
  | getVirtualNetwork netUuid, z => (c.getVirtualNetwork netUuid z, z)
  | addVirutalNetwork vnetInfo, z => c.addVirutalNetwork vnetInfo z
  | removeVirtualNetwork netUuid, z => c.removeVirtualNetwork netUuid z
  | getConnectionPoint cpUuid, z => (c.getConnectionPoint cpUuid z, z)
  | addConnectionPoint cpInfo, z => c.addConnectionPoint cpInfo z
  | removeConnectionPoint cpUuid, z => c.removeConnectionPoint cpUuid z
  | getInterface ifaceUuid, z => (c.getInterface ifaceUuid z, z)
  | addInterface ifaceInfo, z => c.addInterface ifaceInfo z
  | removeInterface ifaceUuid, z => c.removeInterface ifaceUuid z
  | getFdu fduUuid, z => (c.getFdu fduUuid z, z)
  | getAllFdu, z => (c.getAllFdu z, z)
  | addFdu fduInfo, z => c.addFdu fduInfo z
  | removeFdu fduUuid, z => c.removeFdu fduUuid z
  | getInstance instanceUuid, z => (c.getInstance instanceUuid z, z)
  | getAllInstances, z => (c.getAllInstances z, z)
  | getAllFduInstances fduUuid, z => (c.getAllFduInstances fduUuid z, z)
  | addInstance instanceInfo, z => c.addInstance instanceInfo z
  | removeInstance instanceUuid, z => c.removeInstance instanceUuid z
  | getEntity entityUuid, z => (c.getEntity entityUuid z, z)
  | getAllEntity, z => (c.getAllEntity z, z)
  | addEntity entityInfo, z => c.addEntity entityInfo z
  | removeEntity entityUuid, z => c.removeEntity entityUuid z
  | getEntityInstance instanceUuid, z => (c.getEntityInstance instanceUuid z, z)
  | getAllEntitiesInstances, z => (c.getAllEntitiesInstances z, z)
  | getAllEntityInstances entityUuid, z => (c.getAllEntityInstances entityUuid z, z)
  | addEntityInstance instanceInfo, z => c.addEntityInstance instanceInfo z
  | removeEntityInstance instanceUuid, z => c.removeEntityInstance instanceUuid z

def Local.Call.run (c : Local) : Local.Call α → Zenoh → Except FError α × Zenoh
  | getNodeInfo, z => (c.getNodeInfo z, z)
  | removeNodeInfo, z => c.removeNodeInfo z
  | addNodeInfo nodeInfo, z => c.addNodeInfo nodeInfo z
  | getNodeStatus, z => (c.getNodeStatus z, z)
  | addNodeStatus nodeStatus, z => c.addNodeStatus nodeStatus z
  | removeNodeStatus, z => c.removeNodeStatus z
  | getPlugin pluginUuid, z => (c.getPlugin pluginUuid z, z)
  | addPlugin pluginInfo, z => c.addPlugin pluginInfo z
  | removePlugin pluginUuid, z => c.removePlugin pluginUuid z
  | getVirtualNetwork netUuid, z => (c.getVirtualNetwork netUuid z, z)
  | addVirutalNetwork vnetInfo, z => c.addVirutalNetwork vnetInfo z
  | removeVirtualNetwork netUuid, z => c.removeVirtualNetwork netUuid z
  | getConnectionPoint cpUuid, z => (c.getConnectionPoint cpUuid z, z)
  | addConnectionPoint cpInfo, z => c.addConnectionPoint cpInfo z
  | removeConnectionPoint cpUuid, z => c.removeConnectionPoint cpUuid z
  | getInterface ifaceUuid, z => (c.getInterface ifaceUuid z, z)
  | getAllInterfaces, z => (c.getAllInterfaces z, z)
  | addInterface ifaceInfo, z => c.addInterface ifaceInfo z
  | removeInterface ifaceUuid, z => c.removeInterface ifaceUuid z
  | getInstance instanceUuid, z => (c.getInstance instanceUuid z, z)
  | getAllInstances, z => (c.getAllInstances z, z)
  | getAllFduInstances fduUuid, z => (c.getAllFduInstances fduUuid z, z)
  | addInstance instanceInfo, z => c.addInstance instanceInfo z
  | removeInstance instanceUuid, z => c.removeInstance instanceUuid z
  | getNetworkNamespace nsUuid, z => (c.getNetworkNamespace nsUuid z, z)
  | addNetworkNamespace nsInfo, z => c.addNetworkNamespace nsInfo z
  | removeNetworkNamespace nsUuid, z => c.removeNetworkNamespace nsUuid z

end Run

def Global.Call.family {α : Type} : Global.Call α → Global.Family
  | getSystemInfo => .systemInfo
  | getSystemConfig => .systemConfig
  | getAllNodes | getNodeInfo _ | removeNodeInfo _ | addNodeInfo _ => .nodeInfo
  | getNodeStatus _ | addNodeStatus _ | removeNodeStatus _ => .nodeStatus
  | getPlugin _ _ => .plugin
  | getVirtualNetwork _ | addVirutalNetwork _ | removeVirtualNetwork _ => .virtualNetwork
  | getConnectionPoint _ | addConnectionPoint _ | removeConnectionPoint _ => .connectionPoint
  | getInterface _ | addInterface _ | removeInterface _ => .interface
  | getFdu _ | getAllFdu | addFdu _ | removeFdu _ => .fdu
  | getInstance _ | getAllInstances | getAllFduInstances _ => .fduInstance
  | addInstance _ | removeInstance _ => .fduInstance
  | getEntity _ | getAllEntity | addEntity _ | removeEntity _ => .entity
  | getEntityInstance _ | getAllEntitiesInstances | getAllEntityInstances _ => .entityInstance
  | addEntityInstance _ | removeEntityInstance _ => .entityInstance

def Local.Call.family {α : Type} : Local.Call α → Local.Family
  | getNodeInfo | removeNodeInfo | addNodeInfo _ => .nodeInfo
  | getNodeStatus | addNodeStatus _ | removeNodeStatus => .nodeStatus
  | getPlugin _ | addPlugin _ | removePlugin _ => .plugin
  | getVirtualNetwork _ | addVirutalNetwork _ | removeVirtualNetwork _ => .virtualNetwork
  | getConnectionPoint _ | addConnectionPoint _ | removeConnectionPoint _ => .connectionPoint
  | getInterface _ | getAllInterfaces | addInterface _ | removeInterface _ => .interface
  | getInstance _ | getAllInstances | getAllFduInstances _ => .fduInstance
  | addInstance _ | removeInstance _ => .fduInstance
  | getNetworkNamespace _ | addNetworkNamespace _ | removeNetworkNamespace _ => .networkNamespace

/-- The ids of the objects that a call looks up, as far as it fixes them. -/
def Global.Call.query {α : Type} : Global.Call α → Option (List (Option Uuid))
  | getSystemInfo | getSystemConfig => some []
  | getAllNodes | getAllFdu | getAllEntity => some [none]
  | getNodeInfo uuid | getNodeStatus uuid | getVirtualNetwork uuid => some [some uuid]
  | getConnectionPoint uuid | getInterface uuid => some [some uuid]
  | getFdu uuid | getEntity uuid => some [some uuid]
  | getPlugin nodeid pluginUuid => some [some nodeid, some pluginUuid]
  | getInstance uuid | removeInstance uuid => some [none, some uuid]
  | getEntityInstance uuid | removeEntityInstance uuid => some [none, some uuid]
  | getAllInstances | getAllEntitiesInstances => some [none, none]
  | getAllFduInstances uuid | getAllEntityInstances uuid => some [some uuid, none]
  | addNodeInfo _ | addNodeStatus _ | addVirutalNetwork _ | addConnectionPoint _ => none
  | addInterface _ | addFdu _ | addInstance _ | addEntity _ | addEntityInstance _ => none
  | removeNodeInfo _ | removeNodeStatus _ | removeVirtualNetwork _ => none
  | removeConnectionPoint _ | removeInterface _ | removeFdu _ | removeEntity _ => none

def Local.Call.query {α : Type} : Local.Call α → Option (List (Option Uuid))
  | getNodeInfo | getNodeStatus => some []
  | getPlugin uuid | getVirtualNetwork uuid | getConnectionPoint uuid => some [some uuid]
  | getInterface uuid | getNetworkNamespace uuid => some [some uuid]
  | getAllInterfaces => some [none]
  | getInstance uuid | removeInstance uuid => some [none, some uuid]
  | getAllInstances => some [none, none]
  | getAllFduInstances uuid => some [some uuid, none]
  | addNodeInfo _ | addNodeStatus _ | addPlugin _ | addVirutalNetwork _ => none
  | addConnectionPoint _ | addInterface _ | addInstance _ | addNetworkNamespace _ => none
  | removeNodeInfo | removeNodeStatus | removePlugin _ | removeVirtualNetwork _ => none
  | removeConnectionPoint _ | removeInterface _ | removeNetworkNamespace _ => none

/-- The ids of the object that a call adds or removes, as far as it fixes them: an instance to
be removed is looked for under every FDU. -/
def Global.Call.target {α : Type} : Global.Call α → Option (List (Option Uuid))
  | addNodeInfo nodeInfo => some [some nodeInfo.uuid]
  | addNodeStatus nodeStatus => some [some nodeStatus.uuid]
  | addVirutalNetwork vnetInfo => some [some vnetInfo.uuid]
  | addConnectionPoint cpInfo => some [some cpInfo.uuid]
  | addInterface ifaceInfo => some [some ifaceInfo.uuid]
  | addFdu fduInfo => fduInfo.uuid.map fun uuid => [some uuid]
  | addInstance instanceInfo => some [some instanceInfo.fduUuid, some instanceInfo.uuid]
  | addEntity entityInfo => entityInfo.uuid.map fun uuid => [some uuid]
  | addEntityInstance instanceInfo => some [some instanceInfo.id, some instanceInfo.uuid]
  | removeNodeInfo uuid | removeNodeStatus uuid | removeVirtualNetwork uuid => some [some uuid]
  | removeConnectionPoint uuid | removeInterface uuid => some [some uuid]
  | removeFdu uuid | removeEntity uuid => some [some uuid]
  | removeInstance uuid | removeEntityInstance uuid => some [none, some uuid]
  | getSystemInfo | getSystemConfig | getAllNodes | getNodeInfo _ | getNodeStatus _ => none
  | getPlugin _ _ | getVirtualNetwork _ | getConnectionPoint _ | getInterface _ => none
  | getFdu _ | getAllFdu | getInstance _ | getAllInstances | getAllFduInstances _ => none
  | getEntity _ | getAllEntity | getEntityInstance _ | getAllEntitiesInstances => none
  | getAllEntityInstances _ => none

def Local.Call.target {α : Type} : Local.Call α → Option (List (Option Uuid))
  | addNodeInfo _ | removeNodeInfo | addNodeStatus _ | removeNodeStatus => some []
  | addPlugin pluginInfo => some [some pluginInfo.uuid]
  | addVirutalNetwork vnetInfo => some [some vnetInfo.uuid]
  | addConnectionPoint cpInfo => some [some cpInfo.uuid]
  | addInterface ifaceInfo => some [some ifaceInfo.uuid]
  | addInstance instanceInfo => some [some instanceInfo.fduUuid, some instanceInfo.uuid]
  | addNetworkNamespace nsInfo => some [some nsInfo.uuid]
  | removePlugin uuid | removeVirtualNetwork uuid | removeConnectionPoint uuid => some [some uuid]
  | removeInterface uuid | removeNetworkNamespace uuid => some [some uuid]
  | removeInstance uuid => some [none, some uuid]
  | getNodeInfo | getNodeStatus | getPlugin _ | getVirtualNetwork _ => none
  | getConnectionPoint _ | getInterface _ | getAllInterfaces | getInstance _ => none
  | getAllInstances | getAllFduInstances _ | getNetworkNamespace _ => none

/-- The ids of an object agree with those that a call fixes. -/
def Fits (query : List (Option Uuid)) (ids : List Uuid) : Prop :=
  List.Forall₂ (fun q id => q = none ∨ q = some id) query ids

inductive Call (α : Type)
  | inGlobal (c : Global) (call : Global.Call α)
  | inLocal (c : Local) (call : Local.Call α)

namespace Call

variable {α : Type}

def space : Call α → Space
  | inGlobal c call => .inGlobal c call.family
  | inLocal c call => .inLocal c call.family

def query : Call α → Option (List (Option Uuid))
  | inGlobal _ call => call.query
  | inLocal _ call => call.query

def target : Call α → Option (List (Option Uuid))
  | inGlobal _ call => call.target
  | inLocal _ call => call.target

def Selects (call : Call α) (ids : List Uuid) : Prop := ∃ q, call.query = some q ∧ Fits q ids

/-- In the store `z` the call adds or removes the object known by `ids`; if it does not fix
them all, it is an object that is stored. -/
def Writes [DisplayUuid] (call : Call α) (z : Zenoh) (ids : List Uuid) : Prop :=
  ∃ q, call.target = some q ∧ Fits q ids ∧ (none ∈ q → ∃ v, (call.space.path ids, v) ∈ z)

variable [DisplayUuid] [Serde Types.SystemInfo] [Serde Types.SystemConfig] [Serde NodeInfo]
  [Serde NodeStatus] [Serde PluginInfo] [Serde Types.VirtualNetwork]
  [Serde Types.ConnectionPoint] [Serde Types.VirtualInterface] [Serde Types.NetworkNamespace]
  [Serde FDUDescriptor] [Serde FDURecord] [Serde EntityDescriptor] [Serde EntityRecord]

def run : Call α → Zenoh → Except FError α × Zenoh
  | inGlobal c call => call.run c
  | inLocal c call => call.run c

def runAll (calls : List (Call Unit)) : Zenoh :=
  calls.foldl (fun z call => (call.run z).2) Table.empty

end Call

end Fog05.ZConnector
