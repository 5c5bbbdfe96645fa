import Fog05.Conc.Pool
import Fog05.Model.Network

/-! The networking plugin as a server: its operations as programs that issue one access to the
store at a time, so that calls of several clients may be under way together, and any access
may fail. -/

namespace Fog05

open Conc

namespace DummyNetwork

open Fog05.Types

/-- The tables that the plugin's connectors read and write. -/
inductive NetKind
  | vnet
  | cp
  | iface
  | netns
  | globalVnet
  | globalIface
  deriving DecidableEq

namespace NetKind

abbrev Obj : NetKind → Type
  | vnet | globalVnet => VirtualNetwork
  | cp => ConnectionPoint
  | iface | globalIface => VirtualInterface
  | netns => NetworkNamespace

def uuid : (k : NetKind) → k.Obj → Uuid
  | vnet, a => a.uuid
  | globalVnet, a => a.uuid
  | cp, a => a.uuid
  | iface, a => a.uuid
  | globalIface, a => a.uuid
  | netns, a => a.uuid

def table : (k : NetKind) → Net → Table k.uuid
  | vnet, s => s.vnets
  | globalVnet, s => s.globalVnets
  | cp, s => s.cps
  | iface, s => s.ifaces
  | globalIface, s => s.globalIfaces
  | netns, s => s.netns

def set : (k : NetKind) → Table k.uuid → Net → Net
  | vnet, t, s => { s with vnets := t }
  | globalVnet, t, s => { s with globalVnets := t }
  | cp, t, s => { s with cps := t }
  | iface, t, s => { s with ifaces := t }
  | globalIface, t, s => { s with globalIfaces := t }
  | netns, t, s => { s with netns := t }

end NetKind

/-- An operation's access to the store, or its call of `new_v4`. -/
inductive NetCmd
  | newUuid
  | get (k : NetKind) (u : Uuid)
  | add (k : NetKind) (a : k.Obj)
  | remove (k : NetKind) (u : Uuid)

abbrev NetCmd.Reply : NetCmd → Type
  | newUuid => Uuid
  | get k _ => Except FError k.Obj
  | add _ _ | remove _ _ => Except FError Unit

/-- An access to the store is served or fails; `new_v4` draws a uuid. -/
inductive NetChoice
  | served
  | failed (err : FError)
  | uuid (u : Uuid)

def netExec : (c : NetCmd) → NetChoice → Net → Option (c.Reply × Net)
  | .newUuid, .uuid u, s =>
      if u ∈ s.issued then none else some (u, { s with issued := u :: s.issued })
  | .get k u, .served, s => some (single ((k.table s).select (· = u)), s)
  | .add k a, .served, s => some (.ok (), k.set ((k.table s).put a) s)
  | .remove k u, .served, s => some (.ok (), k.set ((k.table s).erase u) s)
  | .get _ _, .failed err, s => some (.error err, s)
  | .add _ _, .failed err, s => some (.error err, s)
  | .remove _ _, .failed err, s => some (.error err, s)
  | _, _, _ => none

/-- A call, with the agent's answer to its `get_node_uuid` and the characters of its random
name. -/
structure Request where
  op : Op
  agent : Except FError Uuid
  alphanumeric : String

abbrev Request.Ret (q : Request) : Type := q.op.Ret

abbrev NetProg := Prog (P := Request) NetCmd.Reply Request.Ret FError

namespace Server

variable {α : Type} (q : Request)

def getNodeUuid : NetProg Uuid := .final q.agent

def newUuid : NetProg Uuid := .act .newUuid .ret

def get (k : NetKind) (u : Uuid) : NetProg k.Obj := .act (.get k u) .final

/-- A read that fails with `NotFound`, whatever its error is. -/
def getOrNotFound (k : NetKind) (u : Uuid) : NetProg k.Obj :=
  .act (.get k u) fun r => .final (r.mapError fun _ => .notFound)

def add (k : NetKind) (a : k.Obj) : NetProg Unit := .act (.add k a) .final

def remove (k : NetKind) (u : Uuid) : NetProg Unit := .act (.remove k u) .final

def fail (err : FError) : NetProg α := .err err

/-! ### Virtual networks -/

def createDefaultVirtualNetwork (dhcp : Bool) : NetProg VirtualNetwork := do
  let _ ← getNodeUuid q
  add .vnet (defaultVnet dhcp)
  pure (defaultVnet dhcp)

def createVirtualNetwork (vnetUuid : Uuid) : NetProg VirtualNetwork := do
  let vnet ← get .globalVnet vnetUuid
  let _ ← getNodeUuid q
  add .vnet vnet
  pure vnet

def getVirtualNetwork (vnetUuid : Uuid) : NetProg VirtualNetwork := do
  let _ ← getNodeUuid q
  get .vnet vnetUuid

def deleteVirtualNetwork (vnetUuid : Uuid) : NetProg VirtualNetwork := do
  let _ ← getNodeUuid q
  let vnet ← getOrNotFound .vnet vnetUuid
  remove .vnet vnetUuid
  pure vnet

/-! ### Connection points -/

def createConnectionPoint : NetProg ConnectionPoint := do
  let _ ← getNodeUuid q
  let cpUuid ← newUuid
  match ← (get .cp cpUuid).attempt with
  | .error _ => do
      let netNs ← newUuid
      let bridge ← newUuid
      let internalVeth ← newUuid
      let externalVeth ← newUuid
      let cp : ConnectionPoint := ⟨cpUuid, netNs, bridge, internalVeth, externalVeth⟩
      add .cp cp
      pure cp
  | .ok _ => fail .alreadyPresent

def getConnectionPoint (cpUuid : Uuid) : NetProg ConnectionPoint := do
  let _ ← getNodeUuid q
  get .cp cpUuid

def deleteConnectionPoint (cpUuid : Uuid) : NetProg Uuid := do
  let _ ← getNodeUuid q
  let _ ← getOrNotFound .cp cpUuid
  remove .cp cpUuid
  pure cpUuid

def bindConnectionPointToVirtualNetwork (cpUuid vnetUuid : Uuid) : NetProg ConnectionPoint := do
  let _ ← getNodeUuid q
  let cp : ConnectionPoint ← get .cp cpUuid
  let vnet : VirtualNetwork ← get .vnet vnetUuid
  add .vnet { vnet with connectionPoints := vnet.connectionPoints ++ [cp.uuid] }
  pure cp

def unbindConnectionPointFromVirtualNetwork (cpUuid vnetUuid : Uuid) :
    NetProg ConnectionPoint := do
  let _ ← getNodeUuid q
  let cp : ConnectionPoint ← get .cp cpUuid
  let vnet : VirtualNetwork ← get .vnet vnetUuid
  if cp.uuid ∈ vnet.connectionPoints then do
    add .vnet { vnet with connectionPoints := vnet.connectionPoints.erase cp.uuid }
    pure cp
  else fail .notConnected

/-! ### Making and deleting interfaces -/

/-- The records of a new interface, as in `DummyNetwork.newInterfaces`. -/
def newInterfaces (intf : VirtualInterfaceConfig) (netNs : Option Uuid) :
    NetProg (VirtualInterface × List VirtualInterface) :=
  match aloneKind intf.kind with
  | some kind => do
      let uuid ← newUuid
      pure (newInterface uuid intf.ifName netNs kind, [])
  | none => do
      let internalUuid ← newUuid
      let externalUuid ← newUuid
      pure (newInterface internalUuid intf.ifName netNs (.veth ⟨externalUuid, true⟩),
        [newInterface externalUuid q.alphanumeric netNs (.veth ⟨internalUuid, false⟩)])

def addInterfaces : List VirtualInterface → NetProg Unit
  | [] => pure ()
  | iface :: ifaces => do
      add .iface iface
      addInterfaces ifaces

def createVirtualInterface (intf : VirtualInterfaceConfig) : NetProg VirtualInterface := do
  let _ ← getNodeUuid q
  let made ← newInterfaces q intf none
  addInterfaces (made.1 :: made.2)
  pure made.1

def createVirtualBridge (brName : String) : NetProg VirtualInterface := do
  let _ ← getNodeUuid q
  let uuid ← newUuid
  let iface := newInterface uuid brName none (.bridge ⟨[]⟩)
  add .iface iface
  pure iface

def createMacvlanInterface (masterIntf : String) : NetProg VirtualInterface := do
  let _ ← getNodeUuid q
  let uuid ← newUuid
  let iface := newInterface uuid q.alphanumeric none (.macvlan ⟨⟨masterIntf, .ethernet, [], none⟩⟩)
  add .iface iface
  pure iface

def createVirtualInterfaceInNamespace (intf : VirtualInterfaceConfig) (nsUuid : Uuid) :
    NetProg VirtualInterface := do
  let _ ← getNodeUuid q
  let netns : NetworkNamespace ← get .netns nsUuid
  let made ← newInterfaces q intf (some netns.uuid)
  add .netns
    { netns with interfaces := netns.interfaces ++ (made.1 :: made.2).map fun iface => iface.uuid }
  addInterfaces (made.1 :: made.2)
  pure made.1

def getVirtualInterface (intfUuid : Uuid) : NetProg VirtualInterface := do
  let _ ← getNodeUuid q
  get .iface intfUuid

/-- `if let VirtualInterfaceKind::VETH(ref info) = intf.kind`: remove the pair. -/
def removePair (iface : VirtualInterface) : NetProg Unit :=
  match iface.pair? with
  | some pair => remove .iface pair
  | none => pure ()

def deleteVirtualInterface (intfUuid : Uuid) : NetProg VirtualInterface := do
  let _ ← getNodeUuid q
  let intf : VirtualInterface ← getOrNotFound .iface intfUuid
  removePair intf
  remove .iface intfUuid
  pure intf

def deleteVirtualInterfaceInNamespace (intfUuid nsUuid : Uuid) : NetProg VirtualInterface := do
  let _ ← getNodeUuid q
  let netns : NetworkNamespace ← get .netns nsUuid
  let iface : VirtualInterface ← get .iface intfUuid
  if iface.netNs = some netns.uuid ∧ iface.uuid ∈ netns.interfaces then do
    removePair iface
    add .netns { netns with interfaces := netns.interfaces.erase iface.uuid }
    remove .iface intfUuid
    pure iface
  else fail .notConnected

def getVirtualBridge (brUuid : Uuid) : NetProg VirtualInterface := do
  let _ ← getNodeUuid q
  let i : VirtualInterface ← get .iface brUuid
  match i.kind with
  | .bridge _ => pure i
  | _ => fail .wrongKind

def deleteVirtualBridge (brUuid : Uuid) : NetProg VirtualInterface := do
  let _ ← getNodeUuid q
  let i : VirtualInterface ← get .globalIface brUuid
  match i.kind with
  | .bridge _ => do
      remove .iface brUuid
      pure i
  | _ => fail .wrongKind

def deleteMacvanInterface (intfUuid : Uuid) : NetProg VirtualInterface := do
  let _ ← getNodeUuid q
  let i : VirtualInterface ← get .iface intfUuid
  match i.kind with
  | .macvlan _ => do
      remove .iface intfUuid
      pure i
  | _ => fail .wrongKind

/-! ### Namespaces -/

def createNetworkNamespace : NetProg NetworkNamespace := do
  let _ ← getNodeUuid q
  let uuid ← newUuid
  let netns : NetworkNamespace := ⟨uuid, "ns-" ++ q.alphanumeric, []⟩
  add .netns netns
  pure netns

def getNetworkNamespace (nsUuid : Uuid) : NetProg NetworkNamespace := do
  let _ ← getNodeUuid q
  get .netns nsUuid

def deleteNetworkNamespace (nsUuid : Uuid) : NetProg NetworkNamespace := do
  let _ ← getNodeUuid q
  let netns ← getOrNotFound .netns nsUuid
  remove .netns nsUuid
  pure netns

def moveInterfaceInfoNamespace (intfUuid nsUuid : Uuid) : NetProg VirtualInterface := do
  let _ ← getNodeUuid q
  let iface : VirtualInterface ← get .iface intfUuid
  let netns : NetworkNamespace ← get .netns nsUuid
  add .iface { iface with netNs := some netns.uuid }
  add .netns { netns with interfaces := netns.interfaces ++ [iface.uuid] }
  pure { iface with netNs := some netns.uuid }

def moveInterfaceIntoDefaultNamespace (intfUuid : Uuid) : NetProg VirtualInterface := do
  let _ ← getNodeUuid q
  let iface : VirtualInterface ← get .iface intfUuid
  match iface.netNs with
  | none => pure iface
  | some netnsUuid => do
      add .iface { iface with netNs := none }
      let netns : NetworkNamespace ← get .netns netnsUuid
      if iface.uuid ∈ netns.interfaces then do
        add .netns { netns with interfaces := netns.interfaces.erase iface.uuid }
        pure { iface with netNs := none }
      else fail .notConnected

/-! ### Changing the record of an interface -/

def update (intfUuid : Uuid) (f : VirtualInterface → Except FError VirtualInterface) :
    NetProg VirtualInterface := do
  let old ← get .iface intfUuid
  let iface ← Prog.final (f old)
  add .iface iface
  pure iface

def bindInterfaceToConnectionPoint (intfUuid cpUuid : Uuid) : NetProg VirtualInterface := do
  let _ ← getNodeUuid q
  let cp : ConnectionPoint ← get .cp cpUuid
  update intfUuid fun iface => .ok { iface with netNs := some cp.netNs }

def unbindInterfaceFromConnectionPoint (intfUuid cpUuid : Uuid) : NetProg VirtualInterface := do
  let _ ← getNodeUuid q
  let cp : ConnectionPoint ← get .cp cpUuid
  update intfUuid fun iface =>
    if iface.netNs = some cp.netNs then .ok { iface with netNs := none }
    else .error .notConnected

def renameVirtualInterface (intfUuid : Uuid) (intfName : String) : NetProg VirtualInterface := do
  let _ ← getNodeUuid q
  update intfUuid fun iface => .ok { iface with ifName := intfName }

def getInterfaceAddresses (intfUuid : Uuid) : NetProg (List IPAddress) := do
  let _ ← getNodeUuid q
  let iface : VirtualInterface ← get .iface intfUuid
  pure iface.addresses

def assingAddressToInterface (intfUuid : Uuid) : Option IpNetwork → NetProg VirtualInterface
  | some address => do
      let _ ← getNodeUuid q
      update intfUuid fun iface => .ok { iface with addresses := iface.addresses ++ [address.ip] }
  | none => fail .unimplemented

def removeAddressFromInterface (intfUuid : Uuid) (address : IPAddress) :
    NetProg VirtualInterface := do
  let _ ← getNodeUuid q
  update intfUuid fun iface =>
    if address ∈ iface.addresses then
      .ok { iface with addresses := iface.addresses.erase address }
    else .error .notConnected

def setMacaddresOfInterface (intfUuid : Uuid) (address : MACAddress) :
    NetProg VirtualInterface := do
  let _ ← getNodeUuid q
  update intfUuid fun iface => .ok { iface with phyAddress := address }

/-! ### Bridges -/

def attachInterfaceToBridge (intfUuid brUuid : Uuid) : NetProg VirtualInterface := do
  let _ ← getNodeUuid q
  let iface : VirtualInterface ← get .iface intfUuid
  let bridge : VirtualInterface ← get .iface brUuid
  match bridge.kind with
  | .bridge info => do
      let newBridge : VirtualInterface ← get .iface brUuid
      add .iface { iface with parent := some bridge.uuid }
      add .iface { newBridge with kind := .bridge ⟨info.childs ++ [iface.uuid]⟩ }
      pure { iface with parent := some bridge.uuid }
  | _ => fail .wrongKind

def detachInterfaceFromBridge (intfUuid : Uuid) : NetProg VirtualInterface := do
  let _ ← getNodeUuid q
  let iface : VirtualInterface ← get .iface intfUuid
  match iface.parent with
  | none => fail .notConnected
  | some brUuid => do
      let bridge : VirtualInterface ← get .iface brUuid
      match bridge.kind with
      | .bridge info =>
          if iface.uuid ∈ info.childs then do
            let newBridge : VirtualInterface ← get .iface brUuid
            add .iface { iface with parent := none }
            add .iface { newBridge with kind := .bridge ⟨info.childs.erase iface.uuid⟩ }
            pure { iface with parent := none }
          else fail .notConnected
      | _ => fail .wrongKind

end Server

def Op.program (q : Request) : (op : Op) → NetProg op.Ret
  | .createDefaultVirtualNetwork dhcp => Server.createDefaultVirtualNetwork q dhcp
  | .createVirtualNetwork v => Server.createVirtualNetwork q v
  | .getVirtualNetwork v => Server.getVirtualNetwork q v
  | .deleteVirtualNetwork v => Server.deleteVirtualNetwork q v
  | .createConnectionPoint => Server.createConnectionPoint q
  | .getConnectionPoint cp => Server.getConnectionPoint q cp
  | .deleteConnectionPoint cp => Server.deleteConnectionPoint q cp
  | .createVirtualInterface intf => Server.createVirtualInterface q intf
  | .getVirtualInterface i => Server.getVirtualInterface q i
  | .deleteVirtualInterface i => Server.deleteVirtualInterface q i
  | .createVirtualBridge name => Server.createVirtualBridge q name
  | .getVirtualBridge b => Server.getVirtualBridge q b
  | .deleteVirtualBridge b => Server.deleteVirtualBridge q b
  | .setDefaultRouteInNetworkNamespace _ _ => Server.fail .unimplemented
  | .createNetworkNamespace => Server.createNetworkNamespace q
  | .getNetworkNamespace n => Server.getNetworkNamespace q n
  | .deleteNetworkNamespace n => Server.deleteNetworkNamespace q n
  | .bindInterfaceToConnectionPoint i cp => Server.bindInterfaceToConnectionPoint q i cp
  | .unbindInterfaceFromConnectionPoint i cp => Server.unbindInterfaceFromConnectionPoint q i cp
  | .bindConnectionPointToVirtualNetwork cp v => Server.bindConnectionPointToVirtualNetwork q cp v
  | .unbindConnectionPointFromVirtualNetwork cp v =>
      Server.unbindConnectionPointFromVirtualNetwork q cp v
  | .getInterfaceAddresses i => Server.getInterfaceAddresses q i
  | .getOverlayIface | .getVlanFace => pure getDummyFace.ifName
  | .createMacvlanInterface master => Server.createMacvlanInterface q master
  | .deleteMacvanInterface i => Server.deleteMacvanInterface q i
  | .moveInterfaceInfoNamespace i n => Server.moveInterfaceInfoNamespace q i n
  | .moveInterfaceIntoDefaultNamespace i => Server.moveInterfaceIntoDefaultNamespace q i
  | .renameVirtualInterface i name => Server.renameVirtualInterface q i name
  | .attachInterfaceToBridge i b => Server.attachInterfaceToBridge q i b
  | .detachInterfaceFromBridge i => Server.detachInterfaceFromBridge q i
  | .createVirtualInterfaceInNamespace intf n => Server.createVirtualInterfaceInNamespace q intf n
  | .deleteVirtualInterfaceInNamespace i n => Server.deleteVirtualInterfaceInNamespace q i n
  | .assingAddressToInterface i a => Server.assingAddressToInterface q i a
  | .removeAddressFromInterface i a => Server.removeAddressFromInterface q i a
  | .setMacaddresOfInterface i a => Server.setMacaddresOfInterface q i a

/-- The plugin serving calls, any number of them at a time. -/
def server : Machine NetCmd.Reply Request.Ret FError NetChoice Empty Net where
  exec := netExec
  move e _ := e.elim
  body q := q.op.program q
  launch _ := none

end DummyNetwork

end Fog05
