import Fog05.Model.Command

/-! The hypervisor plugin of the repository, `impl HypervisorPlugin for
DummyHypervisor`. `n` is the node it runs on, `p` its own uuid. -/

namespace Fog05

open Conc M

namespace DummyHypervisor

variable (z : Session) (n p : Uuid)

def getNodeUuid : M Uuid := remote z (.agentPlugin n .getNodeUuid) (pure n)

def fduInfo (fduUuid : Uuid) : M FDUDescriptor :=
  remote z (.agentPlugin n (.fduInfo fduUuid)) (ask (.getFdu fduUuid))

/-- `self.fdus.write()`: the guard is dropped however the block ends. -/
def withLock {α : Type} (b : M α) : M α := do
  issue (.lock p)
  let o ← b.attempt
  issue (.unlock p)
  .final o

/-- Write a record to the local store, then to the plugin's own map. -/
def store (inst : FDURecord) : M Unit := do
  ask (.localPutInstance n inst)
  issue (.insert p inst)

/-- The frame of every call on an instance: read its record, check its status,
and do the work under the lock. The check comes before the lock. -/
def transition (before : FDUState) (instanceUuid : Uuid) (work : FDURecord → M Unit) : M Uuid := do
  let _ ← getNodeUuid z n
  let inst ← ask (.localGetInstance n instanceUuid)
  if inst.status = before then
    withLock p do
      work inst
      pure instanceUuid
  else fail .transitionNotAllowed

def newInstance (uuid fduUuid node : Uuid) : FDURecord where
  uuid := uuid
  fduUuid := fduUuid
  node := node
  interfaces := []
  connectionPoints := []
  status := .defined
  error := none
  hypervisorSpecific := none
  restarts := 0

def defineFdu (fdu : FDUDescriptor) : M FDURecord := do
  let nodeUuid ← getNodeUuid z n
  withLock p do
    let instanceUuid ← issue .newUuid
    let fduUuid ← unwrap fdu.uuid
    store n p (newInstance instanceUuid fduUuid nodeUuid)
    pure (newInstance instanceUuid fduUuid nodeUuid)

def removeInstance (instanceUuid : Uuid) : M Unit := do
  let info ← ask (.localGetInstance n instanceUuid)
  ask (.localDeleteInstance n info.fduUuid info.uuid)

def undefineFdu (instanceUuid : Uuid) : M Uuid :=
  transition z n p .defined instanceUuid fun _ => do
    issue (.remove p instanceUuid)
    removeInstance n instanceUuid

/-- The loop over the descriptor's connection points; `cps` is the map by id. -/
def createConnectionPoints :
    List ConnectionPointDescriptor → List FDURecordConnectionPoint →
      M (List FDURecordConnectionPoint)
  | [], cps => pure cps
  | cp :: rest, cps => do
      let vcp ← callNet n .createConnectionPoint
      createConnectionPoints rest (cps.filter (fun c => c.id ≠ cp.id) ++ [⟨vcp.uuid, cp.id⟩])

/-- Connect the outer end of a new interface: to the connection point it names,
or to the default namespace. -/
def connect (cps : List FDURecordConnectionPoint) (pair : Uuid) : Option String → M (Option Uuid)
  | some cpId => do
      let cp ← okOr .notFound (cps.find? fun c => c.id = cpId)
      let _ ← callNet n (.bindInterfaceToConnectionPoint pair cp.uuid)
      pure (some cp.uuid)
  | none => do
      let _ ← callNet n (.moveInterfaceIntoDefaultNamespace pair)
      pure none

def createInterfaces (fduNs : Uuid) (cps : List FDURecordConnectionPoint) :
    List Interface → List FDURecordInterface → M (List FDURecordInterface)
  | [], interfaces => pure interfaces
  | intf :: rest, interfaces => do
      let viface ← callNet n (.createVirtualInterfaceInNamespace intf.name fduNs)
      let pair ← okOr .malformedDescriptor viface.pair
      let cpUuid ← connect n cps pair intf.cpId
      let fduIntf : FDURecordInterface := {
        name := intf.name
        kind := intf.kind
        macAddress := intf.macAddress
        cpUuid
        intfUuid := viface.uuid
        virtualInterface := ⟨.e1000, none⟩ }
      createInterfaces fduNs cps rest (interfaces ++ [fduIntf])

def configureFdu (instanceUuid : Uuid) : M Uuid :=
  transition z n p .defined instanceUuid fun inst => do
    let descriptor ← fduInfo z n inst.fduUuid
    let fduNs ← callNet n .createNetworkNamespace
    let cps ← createConnectionPoints n descriptor.connectionPoints []
    let interfaces ← createInterfaces n fduNs.uuid cps descriptor.interfaces []
    store n p { inst with
      hypervisorSpecific := some (.dummy fduNs.uuid)
      interfaces
      connectionPoints := cps
      status := .configured }

/-- Decode `hypervisor_specific`; both unwraps panic on what the plugin did not write. -/
def decodeSpecific : Option HypervisorSpecific → M Uuid
  | some (.dummy netns) => pure netns
  | _ => .err .panic

/-- A loop of networking calls whose answers are not used. -/
def callAll : List NetRequest → M Unit
  | [] => pure ()
  | q :: rest => do
      let _ ← callNet n q
      callAll rest

def cleanFdu (instanceUuid : Uuid) : M Uuid :=
  transition z n p .configured instanceUuid fun inst => do
    let netns ← decodeSpecific inst.hypervisorSpecific
    callAll n ([.deleteNetworkNamespace netns] ++
      inst.interfaces.map (fun iface => .deleteVirtualInterface iface.intfUuid) ++
      inst.connectionPoints.map fun cp => .deleteConnectionPoint cp.uuid)
    store n p { inst with interfaces := [], connectionPoints := [], status := .defined }

def startFdu (instanceUuid : Uuid) : M Uuid :=
  transition z n p .configured instanceUuid fun inst => store n p { inst with status := .running }

def stopFdu (instanceUuid : Uuid) : M Uuid :=
  transition z n p .running instanceUuid fun inst => store n p { inst with status := .configured }

def getFduStatus (instanceUuid : Uuid) : M FDURecord := do
  let _ ← getNodeUuid z n
  ask (.localGetInstance n instanceUuid)

/-- `HypervisorPluginClient`: a call to the plugin with uuid `p`. -/
def call (q : PluginRequest) : M q.Ret :=
  remote z (.plugin p q) <|
    match q with
    | .defineFdu fdu => defineFdu z n p fdu
    | .undefineFdu u => undefineFdu z n p u
    | .configureFdu u => configureFdu z n p u
    | .cleanFdu u => cleanFdu z n p u
    | .startFdu u => startFdu z n p u
    | .stopFdu u => stopFdu z n p u
    | .getFduStatus u => getFduStatus z n u

end DummyHypervisor

end Fog05
