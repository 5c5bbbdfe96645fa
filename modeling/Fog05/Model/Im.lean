import Mathlib.Data.Nat.Notation
import Mathlib.Data.Rat.Defs

/-! The information model: descriptors, records and errors, with the fields
that the agent, the connectors and the hypervisor plugin read or write. -/

namespace Fog05

abbrev Uuid := ℕ

inductive FError
  | zConnectorError
  | encodingError
  | tooMuchError
  | transitionNotAllowed
  | notFound
  | wrongKind
  | notConnected
  | alreadyPresent
  | unimplemented
  | malformedDescriptor
  | hasInstances
  | conversionError (err : String)
  | ioError (err : String)
  | serializationDeserializationError (err : String)
  | zError (err : String)
  | unknownError (err : String)
  | networkingError (err : String)
  | hypervisorError (err : String)
  | uuidError (err : String)
  deriving DecidableEq

/-- `impl Display for FError`. -/
def FError.display : FError → String
  | zConnectorError => "Connection Error"
  | encodingError => "Data has wrong encoding!"
  | tooMuchError => "Expected less data!"
  | transitionNotAllowed => "Transition Not allowed"
  | notFound => "Not Found"
  | wrongKind => "Wrong kind!"
  | notConnected => "NotConnected"
  | alreadyPresent => "Already Present"
  | unimplemented => "Function is not implemented!!"
  | malformedDescriptor => "Malformed descriptor!"
  | hasInstances => "Has instances!"
  | conversionError err | ioError err | zError err | serializationDeserializationError err => err
  | unknownError err => "Error " ++ err
  | networkingError err => "NetworkingError " ++ err
  | hypervisorError err => "HypervisorError " ++ err
  | uuidError err => "UUIDError " ++ err

inductive InterfaceKind
  | virtual
  | wlan
  | bluetooth

inductive VirtualInterfaceKind
  | paravirt
  | pciPassthrough
  | srIov
  | virtio
  | e1000
  | rtl8139
  | pcnet
  | bridged
  | physical

structure Image where
  uri : String

structure ComputationalRequirements where
  cpuArch : String
  cpuMinFreq : ℕ
  cpuMinCount : ℕ
  ramSizeMb : ℕ
  storageSizeMb : ℕ

structure VirtualInterface where
  vifKind : VirtualInterfaceKind
  parent : Option String

structure ConnectionPointDescriptor where
  id : String

abbrev MACAddress := BitVec 48

structure Interface where
  name : String
  kind : InterfaceKind
  macAddress : Option MACAddress
  virtualInterface : VirtualInterface
  cpId : Option String

/-- The fields of a descriptor that no call reads: the path of each in the descriptor, and
the field as `serde_json` writes it. -/
abbrev OtherFields := List (String × String)

structure FDUDescriptor where
  uuid : Option Uuid
  hypervisor : String
  image : Option Image
  computationRequirements : ComputationalRequirements
  interfaces : List Interface
  connectionPoints : List ConnectionPointDescriptor
  others : OtherFields

inductive FDUState
  | defined
  | configured
  | running
  | error (err : String)
  deriving DecidableEq

structure FDURecordVirtualInterface where
  vifKind : VirtualInterfaceKind
  bandwidht : Option ℕ

structure FDURecordInterface where
  name : String
  kind : InterfaceKind
  macAddress : Option MACAddress
  virtualInterface : FDURecordVirtualInterface
  cpUuid : Option Uuid
  intfUuid : Uuid

structure FDURecordConnectionPoint where
  uuid : Uuid
  id : String

/-- The bytes of `hypervisor_specific`: those that decode to a
`DummyHVSpecificInfo`, and any others. -/
inductive HypervisorSpecific
  | dummy (netns : Uuid)
  | other (bytes : List UInt8)

structure FDURecord where
  uuid : Uuid
  fduUuid : Uuid
  node : Uuid
  interfaces : List FDURecordInterface
  connectionPoints : List FDURecordConnectionPoint
  status : FDUState
  error : Option FError
  hypervisorSpecific : Option HypervisorSpecific
  restarts : ℕ

structure EntityDescriptor where
  uuid : Option Uuid
  fdus : List FDUDescriptor
  others : OtherFields

inductive EntityStatus
  | onboarding
  | onboarded
  | starting
  | running
  | stopping
  | stopped
  | offloading
  | offloaded
  | invalid
  | error (err : String)
  | recovering
  deriving DecidableEq

structure EntityRecord where
  uuid : Uuid
  id : Uuid
  status : EntityStatus
  fdus : List Uuid
  virtualLinks : List Uuid
  fimId : Option Uuid
  cloudId : Option Uuid

structure CPUSpec where
  frequency : ℕ
  arch : String

structure NodeInfo where
  uuid : Uuid
  cpu : List CPUSpec
  agentServiceUuid : Uuid

structure RAMStatus where
  free : ℚ

structure DiskStatus where
  mountPoint : String
  free : ℚ

structure NetworkInterfaceStatus where
  name : String

structure NodeStatus where
  uuid : Uuid
  ram : RAMStatus
  disk : List DiskStatus
  interfaces : List NetworkInterfaceStatus

/-- The path of an instance in a store: `fdu/{fdu_uuid}/instance/{uuid}`. -/
def FDURecord.path (r : FDURecord) : Uuid × Uuid := (r.fduUuid, r.uuid)

/-- The path of an entity instance: `entity/{id}/instance/{uuid}`. -/
def EntityRecord.path (r : EntityRecord) : Uuid × Uuid := (r.id, r.uuid)

/-- How a call fails: with an error, or by a panic of the task it runs in. -/
inductive Exn
  | err (e : FError)
  | panic
  deriving DecidableEq

end Fog05
