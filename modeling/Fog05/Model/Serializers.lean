import Fog05.Conc.Codec
import Fog05.Model.Connector
import Mathlib.Data.Rat.Lemmas

/-! Encodings of what the connectors carry, in the manner of the `data_bincode` feature: the
fields of a structure one after the other, an enumeration by the number of its variant. -/

namespace Fog05

open Conc

namespace Codec

open Conc.Codec

def uuid : Codec Uuid := nat

def rat : Codec ℚ :=
  (int.prod nat).along (fun q => (q.num, q.den)) (fun x => mkRat x.1 x.2) Rat.mkRat_self

/-- The number of the variant, and the text that it holds. -/
def fError : Codec FError :=
  (nat.prod string).along
    (fun e => match e with
      | .zConnectorError => (0, "")
      | .encodingError => (1, "")
      | .tooMuchError => (2, "")
      | .transitionNotAllowed => (3, "")
      | .notFound => (4, "")
      | .wrongKind => (5, "")
      | .notConnected => (6, "")
      | .alreadyPresent => (7, "")
      | .unimplemented => (8, "")
      | .malformedDescriptor => (9, "")
      | .hasInstances => (10, "")
      | .conversionError err => (11, err)
      | .ioError err => (12, err)
      | .serializationDeserializationError err => (13, err)
      | .zError err => (14, err)
      | .unknownError err => (15, err)
      | .networkingError err => (16, err)
      | .hypervisorError err => (17, err)
      | .uuidError err => (18, err))
    (fun x => match x with
      | (0, _) => .zConnectorError
      | (1, _) => .encodingError
      | (2, _) => .tooMuchError
      | (3, _) => .transitionNotAllowed
      | (4, _) => .notFound
      | (5, _) => .wrongKind
      | (6, _) => .notConnected
      | (7, _) => .alreadyPresent
      | (8, _) => .unimplemented
      | (9, _) => .malformedDescriptor
      | (10, _) => .hasInstances
      | (11, err) => .conversionError err
      | (12, err) => .ioError err
      | (13, err) => .serializationDeserializationError err
      | (14, err) => .zError err
      | (15, err) => .unknownError err
      | (16, err) => .networkingError err
      | (17, err) => .hypervisorError err
      | (_, err) => .uuidError err)
    fun e => by cases e <;> rfl

def interfaceKind : Codec InterfaceKind :=
  nat.along
    (fun kind => match kind with
      | .virtual => 0
      | .wlan => 1
      | .bluetooth => 2)
    (fun n => match n with
      | 0 => .virtual
      | 1 => .wlan
      | _ => .bluetooth)
    fun kind => by cases kind <;> rfl

def virtualInterfaceKind : Codec VirtualInterfaceKind :=
  nat.along
    (fun kind => match kind with
      | .paravirt => 0
      | .pciPassthrough => 1
      | .srIov => 2
      | .virtio => 3
      | .e1000 => 4
      | .rtl8139 => 5
      | .pcnet => 6
      | .bridged => 7
      | .physical => 8)
    (fun n => match n with
      | 0 => .paravirt
      | 1 => .pciPassthrough
      | 2 => .srIov
      | 3 => .virtio
      | 4 => .e1000
      | 5 => .rtl8139
      | 6 => .pcnet
      | 7 => .bridged
      | _ => .physical)
    fun kind => by cases kind <;> rfl

def image : Codec Image := string.along Image.uri Image.mk fun _ => rfl

def computationalRequirements : Codec ComputationalRequirements :=
  (string.prod (nat.prod (nat.prod (nat.prod nat)))).along
    (fun r => (r.cpuArch, r.cpuMinFreq, r.cpuMinCount, r.ramSizeMb, r.storageSizeMb))
    (fun x => ⟨x.1, x.2.1, x.2.2.1, x.2.2.2.1, x.2.2.2.2⟩) fun _ => rfl

def virtualInterface : Codec VirtualInterface :=
  (virtualInterfaceKind.prod string.option).along (fun v => (v.vifKind, v.parent))
    (fun x => ⟨x.1, x.2⟩) fun _ => rfl

def connectionPointDescriptor : Codec ConnectionPointDescriptor :=
  string.along ConnectionPointDescriptor.id ConnectionPointDescriptor.mk fun _ => rfl

def macAddress : Codec MACAddress :=
  nat.along BitVec.toNat (BitVec.ofNat 48) fun _ => by simp

def interface : Codec Interface :=
  (string.prod (interfaceKind.prod (macAddress.option.prod (virtualInterface.prod
    string.option)))).along
    (fun i => (i.name, i.kind, i.macAddress, i.virtualInterface, i.cpId))
    (fun x => ⟨x.1, x.2.1, x.2.2.1, x.2.2.2.1, x.2.2.2.2⟩) fun _ => rfl

def otherFields : Codec OtherFields := (string.prod string).list

def fduDescriptor : Codec FDUDescriptor :=
  (uuid.option.prod (string.prod (image.option.prod (computationalRequirements.prod
    (interface.list.prod (connectionPointDescriptor.list.prod otherFields)))))).along
    (fun d => (d.uuid, d.hypervisor, d.image, d.computationRequirements, d.interfaces,
      d.connectionPoints, d.others))
    (fun x => ⟨x.1, x.2.1, x.2.2.1, x.2.2.2.1, x.2.2.2.2.1, x.2.2.2.2.2.1, x.2.2.2.2.2.2⟩)
    fun _ => rfl

def fduState : Codec FDUState :=
  (nat.prod string).along
    (fun status => match status with
      | .defined => (0, "")
      | .configured => (1, "")
      | .running => (2, "")
      | .error err => (3, err))
    (fun x => match x with
      | (0, _) => .defined
      | (1, _) => .configured
      | (2, _) => .running
      | (_, err) => .error err)
    fun status => by cases status <;> rfl

def fduRecordVirtualInterface : Codec FDURecordVirtualInterface :=
  (virtualInterfaceKind.prod nat.option).along (fun v => (v.vifKind, v.bandwidht))
    (fun x => ⟨x.1, x.2⟩) fun _ => rfl

def fduRecordInterface : Codec FDURecordInterface :=
  (string.prod (interfaceKind.prod (macAddress.option.prod (fduRecordVirtualInterface.prod
    (uuid.option.prod uuid))))).along
    (fun i => (i.name, i.kind, i.macAddress, i.virtualInterface, i.cpUuid, i.intfUuid))
    (fun x => ⟨x.1, x.2.1, x.2.2.1, x.2.2.2.1, x.2.2.2.2.1, x.2.2.2.2.2⟩) fun _ => rfl

def fduRecordConnectionPoint : Codec FDURecordConnectionPoint :=
  (uuid.prod string).along (fun cp => (cp.uuid, cp.id)) (fun x => ⟨x.1, x.2⟩) fun _ => rfl

def hypervisorSpecific : Codec HypervisorSpecific :=
  (uuid.option.prod byte.list).along
    (fun h => match h with
      | .dummy netns => (some netns, [])
      | .other bytes => (none, bytes))
    (fun x => match x with
      | (some netns, _) => .dummy netns
      | (none, bytes) => .other bytes)
    fun h => by cases h <;> rfl

def fduRecord : Codec FDURecord :=
  (uuid.prod (uuid.prod (uuid.prod (fduRecordInterface.list.prod (fduRecordConnectionPoint.list.prod
    (fduState.prod (fError.option.prod (hypervisorSpecific.option.prod nat)))))))).along
    (fun r => (r.uuid, r.fduUuid, r.node, r.interfaces, r.connectionPoints, r.status, r.error,
      r.hypervisorSpecific, r.restarts))
    (fun x => ⟨x.1, x.2.1, x.2.2.1, x.2.2.2.1, x.2.2.2.2.1, x.2.2.2.2.2.1, x.2.2.2.2.2.2.1,
      x.2.2.2.2.2.2.2.1, x.2.2.2.2.2.2.2.2⟩)
    fun _ => rfl

def entityDescriptor : Codec EntityDescriptor :=
  (uuid.option.prod (fduDescriptor.list.prod otherFields)).along
    (fun d => (d.uuid, d.fdus, d.others)) (fun x => ⟨x.1, x.2.1, x.2.2⟩) fun _ => rfl

def entityStatus : Codec EntityStatus :=
  (nat.prod string).along
    (fun status => match status with
      | .onboarding => (0, "")
      | .onboarded => (1, "")
      | .starting => (2, "")
      | .running => (3, "")
      | .stopping => (4, "")
      | .stopped => (5, "")
      | .offloading => (6, "")
      | .offloaded => (7, "")
      | .invalid => (8, "")
      | .error err => (9, err)
      | .recovering => (10, ""))
    (fun x => match x with
      | (0, _) => .onboarding
      | (1, _) => .onboarded
      | (2, _) => .starting
      | (3, _) => .running
      | (4, _) => .stopping
      | (5, _) => .stopped
      | (6, _) => .offloading
      | (7, _) => .offloaded
      | (8, _) => .invalid
      | (9, err) => .error err
      | _ => .recovering)
    fun status => by cases status <;> rfl

def entityRecord : Codec EntityRecord :=
  (uuid.prod (uuid.prod (entityStatus.prod (uuid.list.prod (uuid.list.prod
    (uuid.option.prod uuid.option)))))).along
    (fun r => (r.uuid, r.id, r.status, r.fdus, r.virtualLinks, r.fimId, r.cloudId))
    (fun x => ⟨x.1, x.2.1, x.2.2.1, x.2.2.2.1, x.2.2.2.2.1, x.2.2.2.2.2.1, x.2.2.2.2.2.2⟩)
    fun _ => rfl

def cpuSpec : Codec CPUSpec :=
  (nat.prod string).along (fun c => (c.frequency, c.arch)) (fun x => ⟨x.1, x.2⟩) fun _ => rfl

def nodeInfo : Codec NodeInfo :=
  (uuid.prod (cpuSpec.list.prod uuid)).along (fun i => (i.uuid, i.cpu, i.agentServiceUuid))
    (fun x => ⟨x.1, x.2.1, x.2.2⟩) fun _ => rfl

def diskStatus : Codec DiskStatus :=
  (string.prod rat).along (fun d => (d.mountPoint, d.free)) (fun x => ⟨x.1, x.2⟩) fun _ => rfl

def nodeStatus : Codec NodeStatus :=
  (uuid.prod (rat.prod (diskStatus.list.prod string.list))).along
    (fun s => (s.uuid, s.ram.free, s.disk, s.interfaces.map NetworkInterfaceStatus.name))
    (fun x => ⟨x.1, ⟨x.2.1⟩, x.2.2.1, x.2.2.2.map NetworkInterfaceStatus.mk⟩)
    fun s => by simp [Function.comp_def]

def pluginKind : Codec PluginKind :=
  (nat.prod string).along
    (fun kind => match kind with
      | .networking => (0, "")
      | .hypervisor name => (1, name)
      | .io => (2, "")
      | .accelerator => (3, "")
      | .gps => (4, ""))
    (fun x => match x with
      | (0, _) => .networking
      | (1, name) => .hypervisor name
      | (2, _) => .io
      | (3, _) => .accelerator
      | _ => .gps)
    fun kind => by cases kind <;> rfl

def pluginInfo : Codec PluginInfo :=
  (uuid.prod (pluginKind.prod string)).along (fun i => (i.uuid, i.kind, i.name))
    (fun x => ⟨x.1, x.2.1, x.2.2⟩) fun _ => rfl

def systemInfo : Codec Types.SystemInfo :=
  (string.prod string).along (fun i => (i.name, i.uuid)) (fun x => ⟨x.1, x.2⟩) fun _ => rfl

def systemConfig : Codec Types.SystemConfig :=
  string.along Types.SystemConfig.config Types.SystemConfig.mk fun _ => rfl

def virtualNetwork : Codec Types.VirtualNetwork :=
  (uuid.prod (string.prod (uuid.list.prod uuid.list))).along
    (fun n => (n.uuid, n.id, n.connectionPoints, n.interfaces))
    (fun x => ⟨x.1, x.2.1, x.2.2.1, x.2.2.2⟩) fun _ => rfl

def connectionPoint : Codec Types.ConnectionPoint :=
  (uuid.prod (uuid.prod (uuid.prod (uuid.prod uuid)))).along
    (fun cp => (cp.uuid, cp.netNs, cp.bridge, cp.internalVeth, cp.externalVeth))
    (fun x => ⟨x.1, x.2.1, x.2.2.1, x.2.2.2.1, x.2.2.2.2⟩) fun _ => rfl

def networkInterface : Codec Types.VirtualInterface :=
  (uuid.prod (string.prod (uuid.option.prod uuid.option))).along
    (fun i => (i.uuid, i.ifName, i.netNs, i.parent))
    (fun x => ⟨x.1, x.2.1, x.2.2.1, x.2.2.2⟩) fun _ => rfl

def networkNamespace : Codec Types.NetworkNamespace :=
  (uuid.prod (string.prod uuid.list)).along (fun ns => (ns.uuid, ns.nsName, ns.interfaces))
    (fun x => ⟨x.1, x.2.1, x.2.2⟩) fun _ => rfl

variable {α : Type}

@[reducible]
def serde (c : Conc.Codec α) : Serde α where
  serializeData a := .ok (c.encode a)
  deserializeData buf :=
    match c.decodeAll buf with
    | some a => .ok a
    | none => .error (.serializationDeserializationError "invalid data")
  round_trip a := by
    show (match c.decodeAll (c.encode a) with | some a => _ | none => _) = _
    rw [c.decodeAll_encode]

end Codec

section Instances

instance : Serde FDUDescriptor := Codec.serde Codec.fduDescriptor

instance : Serde FDURecord := Codec.serde Codec.fduRecord

instance : Serde EntityDescriptor := Codec.serde Codec.entityDescriptor

instance : Serde EntityRecord := Codec.serde Codec.entityRecord

instance : Serde NodeInfo := Codec.serde Codec.nodeInfo

instance : Serde NodeStatus := Codec.serde Codec.nodeStatus

instance : Serde PluginInfo := Codec.serde Codec.pluginInfo

instance : Serde Types.SystemInfo := Codec.serde Codec.systemInfo

instance : Serde Types.SystemConfig := Codec.serde Codec.systemConfig

instance : Serde Types.VirtualNetwork := Codec.serde Codec.virtualNetwork

instance : Serde Types.ConnectionPoint := Codec.serde Codec.connectionPoint

instance : Serde Types.VirtualInterface := Codec.serde Codec.networkInterface

instance : Serde Types.NetworkNamespace := Codec.serde Codec.networkNamespace

end Instances

/-- A uuid in hexadecimal digits. -/
def hexadecimal (u : Uuid) : String := String.ofList ((Nat.digits 16 u).reverse.map Nat.digitChar)

def hexValue (ch : Char) : ℕ := (List.range 16).findIdx fun d => Nat.digitChar d = ch

theorem hexValue_digitChar : ∀ d < 16, hexValue (Nat.digitChar d) = d := by decide

theorem hexValue_hexadecimal (u : Uuid) :
    (hexadecimal u).toList.reverse.map hexValue = Nat.digits 16 u := by
  rw [hexadecimal, String.toList_ofList, ← List.map_reverse, List.reverse_reverse, List.map_map]
  exact (List.map_congr_left fun d hd =>
    hexValue_digitChar d (Nat.digits_lt_base (by decide) hd)).trans (List.map_id _)

theorem hexadecimal_injective : Function.Injective hexadecimal := fun u v h =>
  Nat.digits.injective 16 <| by rw [← hexValue_hexadecimal u, h, hexValue_hexadecimal]

theorem mem_hexadecimal {u : Uuid} {ch : Char} (h : ch ∈ (hexadecimal u).toList) :
    ∃ d < 16, ch = Nat.digitChar d := by
  obtain ⟨d, hd, rfl⟩ := List.mem_map.1 (String.toList_ofList ▸ h)
  exact ⟨d, Nat.digits_lt_base (by decide) (List.mem_reverse.1 hd), rfl⟩

instance : DisplayUuid where
  display := hexadecimal
  injective := hexadecimal_injective
  no_slash u h := by
    obtain ⟨d, hd, hch⟩ := mem_hexadecimal h
    revert d
    decide
  no_star u h := by
    obtain ⟨d, hd, hch⟩ := mem_hexadecimal h
    revert d
    decide

end Fog05
