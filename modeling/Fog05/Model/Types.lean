import Fog05.Model.Connector

/-! The records of network objects, whole: the links between them are those that the
connectors' records have, the rest describes each object. -/

namespace Fog05

namespace Types

inductive IPAddress
  | v4 (a b c d : UInt8)
  | v6 (address : BitVec 128)
  deriving DecidableEq

structure IpNetwork where
  ip : IPAddress
  maskLength : UInt8

/-- The kinds of interfaces that fog05 does not manage. -/
inductive InterfaceKind
  | ethernet
  | wlan
  | can
  | bridge
  | tunnel
  | ptp
  | bluetooth

structure Interface where
  ifName : String
  kind : InterfaceKind
  addresses : List IPAddress
  phyAddress : Option MACAddress

structure VETHKind where
  pair : Uuid
  internal : Bool

structure VLANConfKind where
  tag : UInt16

structure VLANKind extends VLANConfKind where
  dev : Interface

structure VXLANConfKind where
  vni : UInt32
  mcastAddr : IPAddress
  port : UInt16

structure VXLANKind extends VXLANConfKind where
  dev : Interface

structure BridgeKind where
  childs : List Uuid

structure GREKind where
  localAddr : IPAddress
  remoteAddr : IPAddress
  ttl : UInt8

structure MACVLANKind where
  dev : Interface

inductive VirtualInterfaceKind
  | veth (info : VETHKind)
  | vlan (info : VLANKind)
  | bridge (info : BridgeKind)
  | vxlan (info : VXLANKind)
  | gre (info : GREKind)
  | gretap (info : GREKind)
  | ip6gre (info : GREKind)
  | ip6gretap (info : GREKind)
  | macvlan (info : MACVLANKind)

inductive VirtualInterfaceConfigKind
  | veth
  | vlan (conf : VLANConfKind)
  | bridge
  | vxlan (conf : VXLANConfKind)
  | gre (conf : GREKind)
  | gretap (conf : GREKind)
  | ip6gre (conf : GREKind)
  | ip6gretap (conf : GREKind)
  | macvlan

structure VirtualInterfaceConfig where
  ifName : String
  kind : VirtualInterfaceConfigKind

structure MCastVXLANInfo where
  vni : UInt32
  mcastAddr : IPAddress
  port : UInt16

structure TreeGREInfo where
  localAddr : IPAddress
  remoteAddr : IPAddress
  ttl : UInt8

structure P2PInfo where
  vni : UInt32
  remoteAddr : IPAddress
  port : UInt16

inductive LinkKind
  | l2 (info : MCastVXLANInfo)
  | l3 (info : TreeGREInfo)
  | eline (info : P2PInfo)
  | elan (info : P2PInfo)

inductive IPVersion
  | ipv4
  | ipv6

structure IPConfiguration where
  subnet : Option (IPAddress × UInt8)
  gateway : Option IPAddress
  dhcpRange : Option (IPAddress × IPAddress)
  dns : Option (List IPAddress)

end Types

namespace DummyNetwork

open Fog05.Types

structure VirtualInterface extends Types.VirtualInterface where
  kind : Types.VirtualInterfaceKind
  addresses : List IPAddress
  phyAddress : MACAddress

structure VirtualNetwork extends Types.VirtualNetwork where
  name : Option String
  isMgmt : Bool
  linkKind : LinkKind
  ipVersion : IPVersion
  ipConfiguration : Option IPConfiguration
  pluginInternals : Option (List UInt8)

end DummyNetwork

end Fog05
