import Fog05.Model.Types

/-! The networking plugin of the repository, `impl NetworkingPlugin for DummyNetwork`:
what it keeps in the local store of its node, and its operations, executed one at a time
and without failures of the store. -/

namespace Fog05

open Conc

namespace DummyNetwork

open Fog05.Types

/-- The network objects in the local store of a node, those that the plugin reads in the
global store, and the uuids given out so far. -/
structure Net where
  vnets : Table fun vnet : VirtualNetwork => vnet.uuid
  cps : Table ConnectionPoint.uuid
  ifaces : Table fun iface : VirtualInterface => iface.uuid
  netns : Table NetworkNamespace.uuid
  globalVnets : Table fun vnet : VirtualNetwork => vnet.uuid
  globalIfaces : Table fun iface : VirtualInterface => iface.uuid
  issued : List Uuid

/-! ### The connectors -/

namespace Net

variable (s : Net)

def getVirtualNetwork (netUuid : Uuid) : Except FError VirtualNetwork :=
  single (s.vnets.select (· = netUuid))

def addVirutalNetwork (vnetInfo : VirtualNetwork) : Net :=
  { s with vnets := s.vnets.put vnetInfo }

def removeVirtualNetwork (netUuid : Uuid) : Net := { s with vnets := s.vnets.erase netUuid }

def getConnectionPoint (cpUuid : Uuid) : Except FError ConnectionPoint :=
  single (s.cps.select (· = cpUuid))

def addConnectionPoint (cpInfo : ConnectionPoint) : Net := { s with cps := s.cps.put cpInfo }

def removeConnectionPoint (cpUuid : Uuid) : Net := { s with cps := s.cps.erase cpUuid }

def getInterface (ifaceUuid : Uuid) : Except FError VirtualInterface :=
  single (s.ifaces.select (· = ifaceUuid))

def addInterface (ifaceInfo : VirtualInterface) : Net :=
  { s with ifaces := s.ifaces.put ifaceInfo }

def removeInterface (ifaceUuid : Uuid) : Net := { s with ifaces := s.ifaces.erase ifaceUuid }

def getNetworkNamespace (nsUuid : Uuid) : Except FError NetworkNamespace :=
  single (s.netns.select (· = nsUuid))

def addNetworkNamespace (nsInfo : NetworkNamespace) : Net :=
  { s with netns := s.netns.put nsInfo }

def removeNetworkNamespace (nsUuid : Uuid) : Net := { s with netns := s.netns.erase nsUuid }

def globalGetVirtualNetwork (netUuid : Uuid) : Except FError VirtualNetwork :=
  single (s.globalVnets.select (· = netUuid))

def globalGetInterface (ifaceUuid : Uuid) : Except FError VirtualInterface :=
  single (s.globalIfaces.select (· = ifaceUuid))

end Net

/-! ### What an operation is made of -/

/-- What an operation meets: the agent's answer to `get_node_uuid`, what `new_v4` draws, a
uuid not given out before, and the characters of a random name. -/
structure Env where
  agent : Except FError Uuid
  draw : List Uuid → Uuid
  fresh : ∀ l, draw l ∉ l
  alphanumeric : String

/-- An operation that fails leaves what it has written. -/
abbrev NetM := EStateM FError Net

/-- Read the store; an error is the caller's, as with `?`. -/
def look {α : Type} (f : Net → Except FError α) : NetM α := fun s =>
  match f s with
  | .ok a => .ok a s
  | .error err => .error err s

/-- A read that fails with `NotFound`, whatever its error is. -/
def lookOrNotFound {α : Type} (f : Net → Except FError α) : NetM α :=
  look fun s => (f s).mapError fun _ => .notFound

def write (f : Net → Net) : NetM Unit := fun s => .ok () (f s)

def fail {α : Type} (err : FError) : NetM α := fun s => .error err s

variable (e : Env)

/-- `self.agent.as_ref().unwrap().get_node_uuid().await??`. -/
def getNodeUuid : NetM Uuid := look fun _ => e.agent

def newUuid : NetM Uuid := fun s =>
  .ok (e.draw s.issued) { s with issued := e.draw s.issued :: s.issued }

def getDummyFace : Types.Interface where
  ifName := "dummy"
  kind := .ethernet
  addresses := []
  phyAddress := none

def generateRandomInterfaceName : String := e.alphanumeric

def generateRandomNetnsName : String := "ns-" ++ e.alphanumeric

/-! ### Virtual networks -/

def dhcpConfiguration : IPConfiguration where
  subnet := some (.v4 10 240 0 0, 16)
  gateway := some (.v4 10 240 0 1)
  dhcpRange := some (.v4 10 240 0 2, .v4 10 240 255 254)
  dns := some [.v4 208 67 222 222, .v4 208 67 222 220]

/-- The record of the default network; its uuid is `Uuid::nil()`. -/
def defaultVnet (dhcp : Bool) : VirtualNetwork where
  uuid := 0
  id := "fos-default"
  name := some "Eclipse fog05 default virtual network"
  isMgmt := false
  linkKind := .l2 ⟨3845, .v4 239 15 5 0, 3845⟩
  ipVersion := .ipv4
  ipConfiguration := if dhcp then some dhcpConfiguration else none
  connectionPoints := []
  interfaces := []
  pluginInternals := none

def createDefaultVirtualNetwork (dhcp : Bool) : NetM VirtualNetwork := do
  let _ ← getNodeUuid e
  write (·.addVirutalNetwork (defaultVnet dhcp))
  pure (defaultVnet dhcp)

def createVirtualNetwork (vnetUuid : Uuid) : NetM VirtualNetwork := do
  let vnet ← look (·.globalGetVirtualNetwork vnetUuid)
  let _ ← getNodeUuid e
  write (·.addVirutalNetwork vnet)
  pure vnet

def getVirtualNetwork (vnetUuid : Uuid) : NetM VirtualNetwork := do
  let _ ← getNodeUuid e
  look (·.getVirtualNetwork vnetUuid)

def deleteVirtualNetwork (vnetUuid : Uuid) : NetM VirtualNetwork := do
  let _ ← getNodeUuid e
  let vnet ← lookOrNotFound (·.getVirtualNetwork vnetUuid)
  write (·.removeVirtualNetwork vnetUuid)
  pure vnet

/-! ### Connection points -/

def createConnectionPoint : NetM ConnectionPoint := do
  let _ ← getNodeUuid e
  let cpUuid ← newUuid e
  match ← look fun s => .ok (s.getConnectionPoint cpUuid) with
  | .error _ => do
      let netNs ← newUuid e
      let bridge ← newUuid e
      let internalVeth ← newUuid e
      let externalVeth ← newUuid e
      let cp : ConnectionPoint := ⟨cpUuid, netNs, bridge, internalVeth, externalVeth⟩
      write (·.addConnectionPoint cp)
      pure cp
  | .ok _ => fail .alreadyPresent

def getConnectionPoint (cpUuid : Uuid) : NetM ConnectionPoint := do
  let _ ← getNodeUuid e
  look (·.getConnectionPoint cpUuid)

def deleteConnectionPoint (cpUuid : Uuid) : NetM Uuid := do
  let _ ← getNodeUuid e
  let _ ← lookOrNotFound (·.getConnectionPoint cpUuid)
  write (·.removeConnectionPoint cpUuid)
  pure cpUuid

/-- The network's record changes; the connection point's does not. -/
def bindConnectionPointToVirtualNetwork (cpUuid vnetUuid : Uuid) : NetM ConnectionPoint := do
  let _ ← getNodeUuid e
  let cp ← look (·.getConnectionPoint cpUuid)
  let vnet ← look (·.getVirtualNetwork vnetUuid)
  write (·.addVirutalNetwork { vnet with connectionPoints := vnet.connectionPoints ++ [cp.uuid] })
  pure cp

def unbindConnectionPointFromVirtualNetwork (cpUuid vnetUuid : Uuid) : NetM ConnectionPoint := do
  let _ ← getNodeUuid e
  let cp ← look (·.getConnectionPoint cpUuid)
  let vnet ← look (·.getVirtualNetwork vnetUuid)
  if cp.uuid ∈ vnet.connectionPoints then do
    write (·.addVirutalNetwork
      { vnet with connectionPoints := vnet.connectionPoints.erase cp.uuid })
    pure cp
  else fail .notConnected

/-! ### Making and deleting interfaces -/

def newInterface (uuid : Uuid) (ifName : String) (netNs : Option Uuid)
    (kind : Types.VirtualInterfaceKind) : VirtualInterface where
  uuid
  ifName
  netNs
  parent := none
  kind
  addresses := []
  phyAddress := 0

/-- The kind of the interface that a configuration asks for; the ends of a `VETH` name each
other and are made in pairs. -/
def aloneKind : VirtualInterfaceConfigKind → Option Types.VirtualInterfaceKind
  | .veth => none
  | .vlan conf => some (.vlan ⟨conf, getDummyFace⟩)
  | .bridge => some (.bridge ⟨[]⟩)
  | .vxlan conf => some (.vxlan ⟨conf, getDummyFace⟩)
  | .gre conf => some (.gre conf)
  | .gretap conf => some (.gretap conf)
  | .ip6gre conf => some (.ip6gre conf)
  | .ip6gretap conf => some (.ip6gretap conf)
  | .macvlan => some (.macvlan ⟨getDummyFace⟩)

/-- The records of a new interface: the one that the caller gets, and for a `VETH` its
external end. -/
def newInterfaces (intf : VirtualInterfaceConfig) (netNs : Option Uuid) :
    NetM (VirtualInterface × List VirtualInterface) :=
  match aloneKind intf.kind with
  | some kind => do
      let uuid ← newUuid e
      pure (newInterface uuid intf.ifName netNs kind, [])
  | none => do
      let internalUuid ← newUuid e
      let externalUuid ← newUuid e
      pure (newInterface internalUuid intf.ifName netNs (.veth ⟨externalUuid, true⟩),
        [newInterface externalUuid (generateRandomInterfaceName e) netNs
          (.veth ⟨internalUuid, false⟩)])

def addInterfaces (ifaces : List VirtualInterface) : NetM Unit :=
  write fun s => ifaces.foldl Net.addInterface s

def createVirtualInterface (intf : VirtualInterfaceConfig) : NetM VirtualInterface := do
  let _ ← getNodeUuid e
  let made ← newInterfaces e intf none
  addInterfaces (made.1 :: made.2)
  pure made.1

/-- A lone interface in the default namespace. -/
def createAlone (ifName : String) (kind : Types.VirtualInterfaceKind) : NetM VirtualInterface := do
  let _ ← getNodeUuid e
  let uuid ← newUuid e
  let iface := newInterface uuid ifName none kind
  write (·.addInterface iface)
  pure iface

def createVirtualBridge (brName : String) : NetM VirtualInterface :=
  createAlone e brName (.bridge ⟨[]⟩)

def createMacvlanInterface (masterIntf : String) : NetM VirtualInterface :=
  createAlone e (generateRandomInterfaceName e) (.macvlan ⟨⟨masterIntf, .ethernet, [], none⟩⟩)

def createVirtualInterfaceInNamespace (intf : VirtualInterfaceConfig) (nsUuid : Uuid) :
    NetM VirtualInterface := do
  let _ ← getNodeUuid e
  let netns ← look (·.getNetworkNamespace nsUuid)
  let made ← newInterfaces e intf (some netns.uuid)
  write (·.addNetworkNamespace
    { netns with interfaces := netns.interfaces ++ (made.1 :: made.2).map fun iface => iface.uuid })
  addInterfaces (made.1 :: made.2)
  pure made.1

def getVirtualInterface (intfUuid : Uuid) : NetM VirtualInterface := do
  let _ ← getNodeUuid e
  look (·.getInterface intfUuid)

/-- The pair that the record of a `VETH` names. -/
def VirtualInterface.pair? (iface : VirtualInterface) : Option Uuid :=
  match iface.kind with
  | .veth info => some info.pair
  | _ => none

/-- `if let VirtualInterfaceKind::VETH(ref info) = intf.kind`: remove the pair. -/
def Net.removePair (s : Net) (iface : VirtualInterface) : Net :=
  match iface.pair? with
  | some pair => s.removeInterface pair
  | none => s

def deleteVirtualInterface (intfUuid : Uuid) : NetM VirtualInterface := do
  let _ ← getNodeUuid e
  let intf ← lookOrNotFound (·.getInterface intfUuid)
  write (·.removePair intf)
  write (·.removeInterface intfUuid)
  pure intf

def deleteVirtualInterfaceInNamespace (intfUuid nsUuid : Uuid) : NetM VirtualInterface := do
  let _ ← getNodeUuid e
  let netns ← look (·.getNetworkNamespace nsUuid)
  let iface ← look (·.getInterface intfUuid)
  if iface.netNs = some netns.uuid ∧ iface.uuid ∈ netns.interfaces then do
    write (·.removePair iface)
    write (·.addNetworkNamespace { netns with interfaces := netns.interfaces.erase iface.uuid })
    write (·.removeInterface intfUuid)
    pure iface
  else fail .notConnected

def getVirtualBridge (brUuid : Uuid) : NetM VirtualInterface := do
  let _ ← getNodeUuid e
  let i ← look (·.getInterface brUuid)
  match i.kind with
  | .bridge _ => pure i
  | _ => fail .wrongKind

/-- Unlike its siblings it looks the interface up in the global store. -/
def deleteVirtualBridge (brUuid : Uuid) : NetM VirtualInterface := do
  let _ ← getNodeUuid e
  let i ← look (·.globalGetInterface brUuid)
  match i.kind with
  | .bridge _ => do
      write (·.removeInterface brUuid)
      pure i
  | _ => fail .wrongKind

def deleteMacvanInterface (intfUuid : Uuid) : NetM VirtualInterface := do
  let _ ← getNodeUuid e
  let i ← look (·.getInterface intfUuid)
  match i.kind with
  | .macvlan _ => do
      write (·.removeInterface intfUuid)
      pure i
  | _ => fail .wrongKind

/-! ### Namespaces -/

def createNetworkNamespace : NetM NetworkNamespace := do
  let _ ← getNodeUuid e
  let uuid ← newUuid e
  let netns : NetworkNamespace := ⟨uuid, generateRandomNetnsName e, []⟩
  write (·.addNetworkNamespace netns)
  pure netns

def getNetworkNamespace (nsUuid : Uuid) : NetM NetworkNamespace := do
  let _ ← getNodeUuid e
  look (·.getNetworkNamespace nsUuid)

def deleteNetworkNamespace (nsUuid : Uuid) : NetM NetworkNamespace := do
  let _ ← getNodeUuid e
  let netns ← lookOrNotFound (·.getNetworkNamespace nsUuid)
  write (·.removeNetworkNamespace nsUuid)
  pure netns

def setDefaultRouteInNetworkNamespace (_nsUuid _intfUuid : Uuid) : NetM Unit :=
  fail .unimplemented

def moveInterfaceInfoNamespace (intfUuid nsUuid : Uuid) : NetM VirtualInterface := do
  let _ ← getNodeUuid e
  let iface ← look (·.getInterface intfUuid)
  let netns ← look (·.getNetworkNamespace nsUuid)
  write (·.addInterface { iface with netNs := some netns.uuid })
  write (·.addNetworkNamespace { netns with interfaces := netns.interfaces ++ [iface.uuid] })
  pure { iface with netNs := some netns.uuid }

/-- The interface is written before its namespace is looked up. -/
def moveInterfaceIntoDefaultNamespace (intfUuid : Uuid) : NetM VirtualInterface := do
  let _ ← getNodeUuid e
  let iface ← look (·.getInterface intfUuid)
  match iface.netNs with
  | none => pure iface
  | some netnsUuid => do
      write (·.addInterface { iface with netNs := none })
      let netns ← look (·.getNetworkNamespace netnsUuid)
      if iface.uuid ∈ netns.interfaces then do
        write (·.addNetworkNamespace
          { netns with interfaces := netns.interfaces.erase iface.uuid })
        pure { iface with netNs := none }
      else fail .notConnected

/-! ### Changing the record of an interface -/

def update (intfUuid : Uuid) (f : VirtualInterface → Except FError VirtualInterface) :
    NetM VirtualInterface := do
  let old ← look (·.getInterface intfUuid)
  let iface ← look fun _ => f old
  write (·.addInterface iface)
  pure iface

def bindInterfaceToConnectionPoint (intfUuid cpUuid : Uuid) : NetM VirtualInterface := do
  let _ ← getNodeUuid e
  let cp ← look (·.getConnectionPoint cpUuid)
  update intfUuid fun iface => .ok { iface with netNs := some cp.netNs }

def unbindInterfaceFromConnectionPoint (intfUuid cpUuid : Uuid) : NetM VirtualInterface := do
  let _ ← getNodeUuid e
  let cp ← look (·.getConnectionPoint cpUuid)
  update intfUuid fun iface =>
    if iface.netNs = some cp.netNs then .ok { iface with netNs := none }
    else .error .notConnected

def renameVirtualInterface (intfUuid : Uuid) (intfName : String) : NetM VirtualInterface := do
  let _ ← getNodeUuid e
  update intfUuid fun iface => .ok { iface with ifName := intfName }

def getInterfaceAddresses (intfUuid : Uuid) : NetM (List IPAddress) := do
  let _ ← getNodeUuid e
  let iface ← look (·.getInterface intfUuid)
  pure iface.addresses

def assingAddressToInterface (intfUuid : Uuid) : Option IpNetwork → NetM VirtualInterface
  | some address => do
      let _ ← getNodeUuid e
      update intfUuid fun iface => .ok { iface with addresses := iface.addresses ++ [address.ip] }
  | none => fail .unimplemented

def removeAddressFromInterface (intfUuid : Uuid) (address : IPAddress) :
    NetM VirtualInterface := do
  let _ ← getNodeUuid e
  update intfUuid fun iface =>
    if address ∈ iface.addresses then
      .ok { iface with addresses := iface.addresses.erase address }
    else .error .notConnected

def setMacaddresOfInterface (intfUuid : Uuid) (address : MACAddress) : NetM VirtualInterface := do
  let _ ← getNodeUuid e
  update intfUuid fun iface => .ok { iface with phyAddress := address }

def getOverlayIface : NetM String := pure getDummyFace.ifName

def getVlanFace : NetM String := pure getDummyFace.ifName

/-! ### Bridges -/

/-- The bridge is read once more before anything is written, and written last. -/
def attachInterfaceToBridge (intfUuid brUuid : Uuid) : NetM VirtualInterface := do
  let _ ← getNodeUuid e
  let iface ← look (·.getInterface intfUuid)
  let bridge ← look (·.getInterface brUuid)
  match bridge.kind with
  | .bridge info => do
      let newBridge ← look (·.getInterface brUuid)
      write (·.addInterface { iface with parent := some bridge.uuid })
      write (·.addInterface { newBridge with kind := .bridge ⟨info.childs ++ [iface.uuid]⟩ })
      pure { iface with parent := some bridge.uuid }
  | _ => fail .wrongKind

def detachInterfaceFromBridge (intfUuid : Uuid) : NetM VirtualInterface := do
  let _ ← getNodeUuid e
  let iface ← look (·.getInterface intfUuid)
  match iface.parent with
  | none => fail .notConnected
  | some brUuid => do
      let bridge ← look (·.getInterface brUuid)
      match bridge.kind with
      | .bridge info =>
          if iface.uuid ∈ info.childs then do
            let newBridge ← look (·.getInterface brUuid)
            write (·.addInterface { iface with parent := none })
            write (·.addInterface
              { newBridge with kind := .bridge ⟨info.childs.erase iface.uuid⟩ })
            pure { iface with parent := none }
          else fail .notConnected
      | _ => fail .wrongKind

/-! ### Operations and runs -/

/-- The calls of `NetworkingPlugin`. -/
inductive Op
  | createDefaultVirtualNetwork (dhcp : Bool)
  | createVirtualNetwork (vnetUuid : Uuid)
  | getVirtualNetwork (vnetUuid : Uuid)
  | deleteVirtualNetwork (vnetUuid : Uuid)
  | createConnectionPoint
  | getConnectionPoint (cpUuid : Uuid)
  | deleteConnectionPoint (cpUuid : Uuid)
  | createVirtualInterface (intf : VirtualInterfaceConfig)
  | getVirtualInterface (intfUuid : Uuid)
  | deleteVirtualInterface (intfUuid : Uuid)
  | createVirtualBridge (brName : String)
  | getVirtualBridge (brUuid : Uuid)
  | deleteVirtualBridge (brUuid : Uuid)
  | setDefaultRouteInNetworkNamespace (nsUuid intfUuid : Uuid)
  | createNetworkNamespace
  | getNetworkNamespace (nsUuid : Uuid)
  | deleteNetworkNamespace (nsUuid : Uuid)
  | bindInterfaceToConnectionPoint (intfUuid cpUuid : Uuid)
  | unbindInterfaceFromConnectionPoint (intfUuid cpUuid : Uuid)
  | bindConnectionPointToVirtualNetwork (cpUuid vnetUuid : Uuid)
  | unbindConnectionPointFromVirtualNetwork (cpUuid vnetUuid : Uuid)
  | getInterfaceAddresses (intfUuid : Uuid)
  | getOverlayIface
  | getVlanFace
  | createMacvlanInterface (masterIntf : String)
  | deleteMacvanInterface (intfUuid : Uuid)
  | moveInterfaceInfoNamespace (intfUuid nsUuid : Uuid)
  | moveInterfaceIntoDefaultNamespace (intfUuid : Uuid)
  | renameVirtualInterface (intfUuid : Uuid) (intfName : String)
  | attachInterfaceToBridge (intfUuid brUuid : Uuid)
  | detachInterfaceFromBridge (intfUuid : Uuid)
  | createVirtualInterfaceInNamespace (intf : VirtualInterfaceConfig) (nsUuid : Uuid)
  | deleteVirtualInterfaceInNamespace (intfUuid nsUuid : Uuid)
  | assingAddressToInterface (intfUuid : Uuid) (address : Option IpNetwork)
  | removeAddressFromInterface (intfUuid : Uuid) (address : IPAddress)
  | setMacaddresOfInterface (intfUuid : Uuid) (address : MACAddress)

abbrev Op.Ret : Op → Type
  | .createDefaultVirtualNetwork _ | .createVirtualNetwork _ | .getVirtualNetwork _
  | .deleteVirtualNetwork _ => VirtualNetwork
  | .createConnectionPoint | .getConnectionPoint _ | .bindConnectionPointToVirtualNetwork _ _
  | .unbindConnectionPointFromVirtualNetwork _ _ => ConnectionPoint
  | .deleteConnectionPoint _ => Uuid
  | .setDefaultRouteInNetworkNamespace _ _ => Unit
  | .createNetworkNamespace | .getNetworkNamespace _ | .deleteNetworkNamespace _ => NetworkNamespace
  | .getInterfaceAddresses _ => List IPAddress
  | .getOverlayIface | .getVlanFace => String
  | _ => VirtualInterface

def Op.perform : (op : Op) → NetM op.Ret
  | .createDefaultVirtualNetwork dhcp => DummyNetwork.createDefaultVirtualNetwork e dhcp
  | .createVirtualNetwork v => DummyNetwork.createVirtualNetwork e v
  | .getVirtualNetwork v => DummyNetwork.getVirtualNetwork e v
  | .deleteVirtualNetwork v => DummyNetwork.deleteVirtualNetwork e v
  | .createConnectionPoint => DummyNetwork.createConnectionPoint e
  | .getConnectionPoint cp => DummyNetwork.getConnectionPoint e cp
  | .deleteConnectionPoint cp => DummyNetwork.deleteConnectionPoint e cp
  | .createVirtualInterface intf => DummyNetwork.createVirtualInterface e intf
  | .getVirtualInterface i => DummyNetwork.getVirtualInterface e i
  | .deleteVirtualInterface i => DummyNetwork.deleteVirtualInterface e i
  | .createVirtualBridge name => DummyNetwork.createVirtualBridge e name
  | .getVirtualBridge b => DummyNetwork.getVirtualBridge e b
  | .deleteVirtualBridge b => DummyNetwork.deleteVirtualBridge e b
  | .setDefaultRouteInNetworkNamespace n i => DummyNetwork.setDefaultRouteInNetworkNamespace n i
  | .createNetworkNamespace => DummyNetwork.createNetworkNamespace e
  | .getNetworkNamespace n => DummyNetwork.getNetworkNamespace e n
  | .deleteNetworkNamespace n => DummyNetwork.deleteNetworkNamespace e n
  | .bindInterfaceToConnectionPoint i cp => DummyNetwork.bindInterfaceToConnectionPoint e i cp
  | .unbindInterfaceFromConnectionPoint i cp =>
      DummyNetwork.unbindInterfaceFromConnectionPoint e i cp
  | .bindConnectionPointToVirtualNetwork cp v =>
      DummyNetwork.bindConnectionPointToVirtualNetwork e cp v
  | .unbindConnectionPointFromVirtualNetwork cp v =>
      DummyNetwork.unbindConnectionPointFromVirtualNetwork e cp v
  | .getInterfaceAddresses i => DummyNetwork.getInterfaceAddresses e i
  | .getOverlayIface => DummyNetwork.getOverlayIface
  | .getVlanFace => DummyNetwork.getVlanFace
  | .createMacvlanInterface master => DummyNetwork.createMacvlanInterface e master
  | .deleteMacvanInterface i => DummyNetwork.deleteMacvanInterface e i
  | .moveInterfaceInfoNamespace i n => DummyNetwork.moveInterfaceInfoNamespace e i n
  | .moveInterfaceIntoDefaultNamespace i => DummyNetwork.moveInterfaceIntoDefaultNamespace e i
  | .renameVirtualInterface i name => DummyNetwork.renameVirtualInterface e i name
  | .attachInterfaceToBridge i b => DummyNetwork.attachInterfaceToBridge e i b
  | .detachInterfaceFromBridge i => DummyNetwork.detachInterfaceFromBridge e i
  | .createVirtualInterfaceInNamespace intf n =>
      DummyNetwork.createVirtualInterfaceInNamespace e intf n
  | .deleteVirtualInterfaceInNamespace i n => DummyNetwork.deleteVirtualInterfaceInNamespace e i n
  | .assingAddressToInterface i a => DummyNetwork.assingAddressToInterface e i a
  | .removeAddressFromInterface i a => DummyNetwork.removeAddressFromInterface e i a
  | .setMacaddresOfInterface i a => DummyNetwork.setMacaddresOfInterface e i a

def Op.after (op : Op) (s : Net) : Net :=
  match op.perform e s with
  | .ok _ s' | .error _ s' => s'

/-- The store after these operations, each with what it meets. -/
def Net.run (s : Net) (l : List (Env × Op)) : Net :=
  l.foldl (fun s step => step.2.after step.1 s) s

/-- The local store is empty, and what the global store has got its uuid before. -/
structure Net.Initial (s : Net) : Prop where
  vnets : s.vnets = Table.empty
  cps : s.cps = Table.empty
  ifaces : s.ifaces = Table.empty
  netns : s.netns = Table.empty
  issued : ∀ iface ∈ s.globalIfaces, iface.uuid ∈ s.issued

def Net.Reachable (s : Net) : Prop := ∃ s₀ l, Net.Initial s₀ ∧ s = s₀.run l

end DummyNetwork

end Fog05
