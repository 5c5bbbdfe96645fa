import Fog05.Model.Registry
import Fog05.Model.Zenoh

/-! The two connectors: the paths and selectors of `Global` and `Local`, as the
format strings of their macros, and the functions that read, add and remove
what is stored there. -/

namespace Fog05

open Conc Chunk

/-! ### Data the connectors carry, apart from what an agent handles -/

namespace Types

structure SystemInfo where
  name : String
  uuid : String

structure SystemConfig where
  config : String

structure VirtualNetwork where
  uuid : Uuid
  id : String
  connectionPoints : List Uuid
  interfaces : List Uuid

structure ConnectionPoint where
  uuid : Uuid
  netNs : Uuid
  bridge : Uuid
  internalVeth : Uuid
  externalVeth : Uuid

structure VirtualInterface where
  uuid : Uuid
  ifName : String
  netNs : Option Uuid
  parent : Option Uuid

structure NetworkNamespace where
  uuid : Uuid
  nsName : String
  interfaces : List Uuid

end Types

namespace ZConnector

/-- `GLOBAL_PREFIX` and the system id. -/
def globalPrefix : Template String := [text "fos", text "global", arg]

/-- `LOCAL_PREFIX` and the node id. -/
def localPrefix : Template String := [text "fos", text "local", arg]

/-- The connector to what all nodes of a tenant share. -/
@[ext]
structure Global where
  systemId : Uuid
  tenantId : Uuid

/-- The connector to what belongs to one node. -/
@[ext]
structure Local where
  nodeUuid : Uuid

variable [DisplayUuid]

namespace Global

def sysInfoPath : Template String := globalPrefix ++ [text "info"]

def sysConfPath : Template String := globalPrefix ++ [text "configuration"]

def tenant : Template String := globalPrefix ++ [text "tenants", arg]

def nodesSelector : Template String := tenant ++ [text "nodes", text "*", text "info"]

def nodeInfoPath : Template String := tenant ++ [text "nodes", arg, text "info"]

def nodeStatusPath : Template String := tenant ++ [text "nodes", arg, text "status"]

def nodePluginPath : Template String :=
  tenant ++ [text "nodes", arg, text "plugins", arg, text "info"]

def vnetPath : Template String := tenant ++ [text "network", arg, text "info"]

def cpPath : Template String := tenant ++ [text "connection_point", arg, text "info"]

def vifacePath : Template String := tenant ++ [text "viface", arg, text "info"]

def fduDescriptorPath : Template String :=
  tenant ++ [text "catalog", text "fdu", arg, text "info"]

def fduDescriptorSelector : Template String :=
  tenant ++ [text "catalog", text "fdu", text "*", text "info"]

def fduInstancePath : Template String :=
  tenant ++ [text "records", text "fdu", arg, text "instance", arg, text "info"]

def fduInstanceSelector : Template String :=
  tenant ++ [text "records", text "fdu", text "*", text "instance", arg, text "info"]

def fduInstancesSelector : Template String :=
  tenant ++ [text "records", text "fdu", arg, text "instance", text "*", text "info"]

def fduAllInstancesSelector : Template String :=
  tenant ++ [text "records", text "fdu", text "*", text "instance", text "*", text "info"]

def entityDescriptorPath : Template String :=
  tenant ++ [text "catalog", text "entity", arg, text "info"]

def entityDescriptorSelector : Template String :=
  tenant ++ [text "catalog", text "entity", text "*", text "info"]

def entityInstancePath : Template String :=
  tenant ++ [text "records", text "entity", arg, text "instance", arg, text "info"]

def entityInstanceSelector : Template String :=
  tenant ++ [text "records", text "entity", text "*", text "instance", arg, text "info"]

def entityInstancesSelector : Template String :=
  tenant ++ [text "records", text "entity", arg, text "instance", text "*", text "info"]

def entityAllInstancesSelector : Template String :=
  tenant ++ [text "records", text "entity", text "*", text "instance", text "*", text "info"]

variable (c : Global)

def sys (t : Template String) : Path := t.format [display c.systemId]

/-- A path under the tenant, filled with `ids`. -/
def path (t : Template String) (ids : List Uuid) : Path :=
  t.format (display c.systemId :: display c.tenantId :: ids.map display)

/-- Unlike the other get functions it answers `ZConnectorError` to an encoding that is not
`Raw`, and to data that is more than one row. -/
def getSystemInfo [Serde Types.SystemInfo] (z : Zenoh) : Except FError Types.SystemInfo :=
  match z.get (c.sys sysInfoPath) with
  | [] => .error .notFound
  | [(_, .raw buf)] => deserializeData buf
  | _ => .error .zConnectorError

def getSystemConfig [Serde Types.SystemConfig] : Zenoh → Except FError Types.SystemConfig :=
  Zenoh.getOne (c.sys sysConfPath)

section Nodes

variable [Serde NodeInfo] [Serde NodeStatus] [Serde PluginInfo]

def getAllNodes : Zenoh → Except FError (List NodeInfo) := Zenoh.getAll (c.path nodesSelector [])

def getNodeInfo (nodeUuid : Uuid) : Zenoh → Except FError NodeInfo :=
  Zenoh.getOne (c.path nodeInfoPath [nodeUuid])

def removeNodeInfo (nodeUuid : Uuid) : Zenoh → Except FError Unit × Zenoh :=
  Zenoh.remove (c.path nodeInfoPath [nodeUuid])

def addNodeInfo (nodeInfo : NodeInfo) : Zenoh → Except FError Unit × Zenoh :=
  Zenoh.add (c.path nodeInfoPath [nodeInfo.uuid]) nodeInfo

def getNodeStatus (nodeUuid : Uuid) : Zenoh → Except FError NodeStatus :=
  Zenoh.getOne (c.path nodeStatusPath [nodeUuid])

def addNodeStatus (nodeStatus : NodeStatus) : Zenoh → Except FError Unit × Zenoh :=
  Zenoh.add (c.path nodeStatusPath [nodeStatus.uuid]) nodeStatus

def removeNodeStatus (nodeUuid : Uuid) : Zenoh → Except FError Unit × Zenoh :=
  Zenoh.remove (c.path nodeStatusPath [nodeUuid])

def getPlugin (nodeid pluginUuid : Uuid) : Zenoh → Except FError PluginInfo :=
  Zenoh.getOne (c.path nodePluginPath [nodeid, pluginUuid])

end Nodes

section Networks

open Fog05.Types

variable [Serde VirtualNetwork] [Serde ConnectionPoint] [Serde Types.VirtualInterface]

def getVirtualNetwork (netUuid : Uuid) : Zenoh → Except FError VirtualNetwork :=
  Zenoh.getOne (c.path vnetPath [netUuid])

def addVirutalNetwork (vnetInfo : VirtualNetwork) : Zenoh → Except FError Unit × Zenoh :=
  Zenoh.add (c.path vnetPath [vnetInfo.uuid]) vnetInfo

def removeVirtualNetwork (netUuid : Uuid) : Zenoh → Except FError Unit × Zenoh :=
  Zenoh.remove (c.path vnetPath [netUuid])

def getConnectionPoint (cpUuid : Uuid) : Zenoh → Except FError ConnectionPoint :=
  Zenoh.getOne (c.path cpPath [cpUuid])

def addConnectionPoint (cpInfo : ConnectionPoint) : Zenoh → Except FError Unit × Zenoh :=
  Zenoh.add (c.path cpPath [cpInfo.uuid]) cpInfo

def removeConnectionPoint (cpUuid : Uuid) : Zenoh → Except FError Unit × Zenoh :=
  Zenoh.remove (c.path cpPath [cpUuid])

def getInterface (ifaceUuid : Uuid) : Zenoh → Except FError Types.VirtualInterface :=
  Zenoh.getOne (c.path vifacePath [ifaceUuid])

def addInterface (ifaceInfo : Types.VirtualInterface) : Zenoh → Except FError Unit × Zenoh :=
  Zenoh.add (c.path vifacePath [ifaceInfo.uuid]) ifaceInfo

def removeInterface (ifaceUuid : Uuid) : Zenoh → Except FError Unit × Zenoh :=
  Zenoh.remove (c.path vifacePath [ifaceUuid])

end Networks

section Fdus

variable [Serde FDUDescriptor] [Serde FDURecord]

def getFdu (fduUuid : Uuid) : Zenoh → Except FError FDUDescriptor :=
  Zenoh.getOne (c.path fduDescriptorPath [fduUuid])

def getAllFdu : Zenoh → Except FError (List FDUDescriptor) :=
  Zenoh.getAll (c.path fduDescriptorSelector [])

def addFdu (fduInfo : FDUDescriptor) (z : Zenoh) : Except FError Unit × Zenoh :=
  match fduInfo.uuid with
  | none => (.error .malformedDescriptor, z)
  | some fduUuid => z.add (c.path fduDescriptorPath [fduUuid]) fduInfo

def removeFdu (fduUuid : Uuid) : Zenoh → Except FError Unit × Zenoh :=
  Zenoh.remove (c.path fduDescriptorPath [fduUuid])

def getInstance (instanceUuid : Uuid) : Zenoh → Except FError FDURecord :=
  Zenoh.getOne (c.path fduInstanceSelector [instanceUuid])

def getAllInstances : Zenoh → Except FError (List FDURecord) :=
  Zenoh.getAll (c.path fduAllInstancesSelector [])

def getAllFduInstances (fduUuid : Uuid) : Zenoh → Except FError (List FDURecord) :=
  Zenoh.getAll (c.path fduInstancesSelector [fduUuid])

def addInstance (instanceInfo : FDURecord) : Zenoh → Except FError Unit × Zenoh :=
  Zenoh.add (c.path fduInstancePath [instanceInfo.fduUuid, instanceInfo.uuid]) instanceInfo

def removeInstance (instanceUuid : Uuid) (z : Zenoh) : Except FError Unit × Zenoh :=
  z.removeFound (c.getInstance instanceUuid z) fun instanceInfo =>
    c.path fduInstancePath [instanceInfo.fduUuid, instanceInfo.uuid]

end Fdus

section Entities

variable [Serde EntityDescriptor] [Serde EntityRecord]

def getEntity (entityUuid : Uuid) : Zenoh → Except FError EntityDescriptor :=
  Zenoh.getOne (c.path entityDescriptorPath [entityUuid])

def getAllEntity : Zenoh → Except FError (List EntityDescriptor) :=
  Zenoh.getAll (c.path entityDescriptorSelector [])

def addEntity (entityInfo : EntityDescriptor) (z : Zenoh) : Except FError Unit × Zenoh :=
  match entityInfo.uuid with
  | none => (.error .malformedDescriptor, z)
  | some entityUuid => z.add (c.path entityDescriptorPath [entityUuid]) entityInfo

def removeEntity (entityUuid : Uuid) : Zenoh → Except FError Unit × Zenoh :=
  Zenoh.remove (c.path entityDescriptorPath [entityUuid])

def getEntityInstance (instanceUuid : Uuid) : Zenoh → Except FError EntityRecord :=
  Zenoh.getOne (c.path entityInstanceSelector [instanceUuid])

def getAllEntitiesInstances : Zenoh → Except FError (List EntityRecord) :=
  Zenoh.getAll (c.path entityAllInstancesSelector [])

def getAllEntityInstances (entityUuid : Uuid) : Zenoh → Except FError (List EntityRecord) :=
  Zenoh.getAll (c.path entityInstancesSelector [entityUuid])

def addEntityInstance (instanceInfo : EntityRecord) : Zenoh → Except FError Unit × Zenoh :=
  Zenoh.add (c.path entityInstancePath [instanceInfo.id, instanceInfo.uuid]) instanceInfo

def removeEntityInstance (instanceUuid : Uuid) (z : Zenoh) : Except FError Unit × Zenoh :=
  z.removeFound (c.getEntityInstance instanceUuid z) fun instanceInfo =>
    c.path entityInstancePath [instanceInfo.id, instanceInfo.uuid]

end Entities

end Global

namespace Local

def nodeInfoPath : Template String := localPrefix ++ [text "info"]

def nodeStatusPath : Template String := localPrefix ++ [text "status"]

def nodePluginPath : Template String := localPrefix ++ [text "plugins", arg, text "info"]

def nodeInstancePath : Template String :=
  localPrefix ++ [text "fdu", arg, text "instances", arg, text "info"]

def nodeInstanceSelector : Template String :=
  localPrefix ++ [text "fdu", text "*", text "instances", arg, text "info"]

def nodeInstanceSelector2 : Template String :=
  localPrefix ++ [text "fdu", arg, text "instances", text "*", text "info"]

def nodeInstanceSelector3 : Template String :=
  localPrefix ++ [text "fdu", text "*", text "instances", text "*", text "info"]

def nodeVnetPath : Template String := localPrefix ++ [text "network", arg, text "info"]

def nodeCpPath : Template String := localPrefix ++ [text "connection_point", arg, text "info"]

def nodeVifacePath : Template String := localPrefix ++ [text "viface", arg, text "info"]

def nodeNetnsPath : Template String := localPrefix ++ [text "netns", arg, text "info"]

variable (c : Local)

/-- A path under the node, filled with `ids`. -/
def path (t : Template String) (ids : List Uuid) : Path :=
  t.format (display c.nodeUuid :: ids.map display)

section Nodes

variable [Serde NodeInfo] [Serde NodeStatus] [Serde PluginInfo]

def getNodeInfo : Zenoh → Except FError NodeInfo := Zenoh.getOne (c.path nodeInfoPath [])

def removeNodeInfo : Zenoh → Except FError Unit × Zenoh := Zenoh.remove (c.path nodeInfoPath [])

def addNodeInfo (nodeInfo : NodeInfo) : Zenoh → Except FError Unit × Zenoh :=
  Zenoh.add (c.path nodeInfoPath []) nodeInfo

def getNodeStatus : Zenoh → Except FError NodeStatus := Zenoh.getOne (c.path nodeStatusPath [])

def addNodeStatus (nodeStatus : NodeStatus) : Zenoh → Except FError Unit × Zenoh :=
  Zenoh.add (c.path nodeStatusPath []) nodeStatus

def removeNodeStatus : Zenoh → Except FError Unit × Zenoh :=
  Zenoh.remove (c.path nodeStatusPath [])

def getPlugin (pluginUuid : Uuid) : Zenoh → Except FError PluginInfo :=
  Zenoh.getOne (c.path nodePluginPath [pluginUuid])

def addPlugin (pluginInfo : PluginInfo) : Zenoh → Except FError Unit × Zenoh :=
  Zenoh.add (c.path nodePluginPath [pluginInfo.uuid]) pluginInfo

def removePlugin (pluginUuid : Uuid) : Zenoh → Except FError Unit × Zenoh :=
  Zenoh.remove (c.path nodePluginPath [pluginUuid])

end Nodes

section Networks

open Fog05.Types

variable [Serde VirtualNetwork] [Serde ConnectionPoint] [Serde Types.VirtualInterface]
  [Serde NetworkNamespace]

def getVirtualNetwork (netUuid : Uuid) : Zenoh → Except FError VirtualNetwork :=
  Zenoh.getOne (c.path nodeVnetPath [netUuid])

def addVirutalNetwork (vnetInfo : VirtualNetwork) : Zenoh → Except FError Unit × Zenoh :=
  Zenoh.add (c.path nodeVnetPath [vnetInfo.uuid]) vnetInfo

def removeVirtualNetwork (netUuid : Uuid) : Zenoh → Except FError Unit × Zenoh :=
  Zenoh.remove (c.path nodeVnetPath [netUuid])

def getConnectionPoint (cpUuid : Uuid) : Zenoh → Except FError ConnectionPoint :=
  Zenoh.getOne (c.path nodeCpPath [cpUuid])

def addConnectionPoint (cpInfo : ConnectionPoint) : Zenoh → Except FError Unit × Zenoh :=
  Zenoh.add (c.path nodeCpPath [cpInfo.uuid]) cpInfo

def removeConnectionPoint (cpUuid : Uuid) : Zenoh → Except FError Unit × Zenoh :=
  Zenoh.remove (c.path nodeCpPath [cpUuid])

def getInterface (ifaceUuid : Uuid) : Zenoh → Except FError Types.VirtualInterface :=
  Zenoh.getOne (c.path nodeVifacePath [ifaceUuid])

/-- The path of an interface, with `*` for its uuid. -/
def getAllInterfaces : Zenoh → Except FError (List Types.VirtualInterface) :=
  Zenoh.getAll (nodeVifacePath.format [display c.nodeUuid, "*"])

def addInterface (ifaceInfo : Types.VirtualInterface) : Zenoh → Except FError Unit × Zenoh :=
  Zenoh.add (c.path nodeVifacePath [ifaceInfo.uuid]) ifaceInfo

def removeInterface (ifaceUuid : Uuid) : Zenoh → Except FError Unit × Zenoh :=
  Zenoh.remove (c.path nodeVifacePath [ifaceUuid])

def getNetworkNamespace (nsUuid : Uuid) : Zenoh → Except FError NetworkNamespace :=
  Zenoh.getOne (c.path nodeNetnsPath [nsUuid])

def addNetworkNamespace (nsInfo : NetworkNamespace) : Zenoh → Except FError Unit × Zenoh :=
  Zenoh.add (c.path nodeNetnsPath [nsInfo.uuid]) nsInfo

def removeNetworkNamespace (nsUuid : Uuid) : Zenoh → Except FError Unit × Zenoh :=
  Zenoh.remove (c.path nodeNetnsPath [nsUuid])

end Networks

section Fdus

variable [Serde FDURecord]

def getInstance (instanceUuid : Uuid) : Zenoh → Except FError FDURecord :=
  Zenoh.getOne (c.path nodeInstanceSelector [instanceUuid])

def getAllInstances : Zenoh → Except FError (List FDURecord) :=
  Zenoh.getAll (c.path nodeInstanceSelector3 [])

def getAllFduInstances (fduUuid : Uuid) : Zenoh → Except FError (List FDURecord) :=
  Zenoh.getAll (c.path nodeInstanceSelector2 [fduUuid])

def addInstance (instanceInfo : FDURecord) : Zenoh → Except FError Unit × Zenoh :=
  Zenoh.add (c.path nodeInstancePath [instanceInfo.fduUuid, instanceInfo.uuid]) instanceInfo

def removeInstance (instanceUuid : Uuid) (z : Zenoh) : Except FError Unit × Zenoh :=
  z.removeFound (c.getInstance instanceUuid z) fun instanceInfo =>
    c.path nodeInstancePath [instanceInfo.fduUuid, instanceInfo.uuid]

end Fdus

end Local

end ZConnector

end Fog05
