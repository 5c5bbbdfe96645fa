import Fog05.Model.Hypervisor

/-! The agent: `impl AgentOrchestratorInterface for Agent` and the two entity
tasks. An agent is the node it runs on and the uuid of its service. -/

namespace Fog05

open Conc M

structure Agent where
  nodeUuid : Uuid
  instanceUuid : Uuid

/-- `AgentOrchestratorInterfaceClient`: a call to the agent serving `service`. -/
def rpc (z : Session) (service : Uuid) (q : Request) : M q.Ret :=
  remote z (.agent service q) (Prog.invoke (Proc.agent service q))

def addFdu (fdu : FDUDescriptor) : M Unit := do
  let _ ← okOr .malformedDescriptor fdu.uuid
  ask (.putFdu fdu)

def addEntity (entity : EntityDescriptor) : M Unit := do
  let _ ← okOr .malformedDescriptor entity.uuid
  ask (.putEntity entity)

def removeInstance (instanceUuid : Uuid) : M Unit := do
  let info ← ask (.getInstance instanceUuid)
  ask (.deleteInstance info.fduUuid info.uuid)

/-- One look of the polling loops at what `get_instance` answered: `none` is
another round after the sleep. -/
def settle (awaited : FDUState) : Except FError FDURecord → Option (Except Exn FDURecord)
  | .ok inst =>
      if inst.status = awaited then some (.ok inst)
      else
        match inst.status with
        | .error e => some (.error (.err (.hypervisorError e)))
        | _ => none
  | .error .notFound => none
  | .error e => some (.error (.err e))

section Settle

variable {awaited : FDUState}

theorem settle_error {e : FError} {o : Except Exn FDURecord}
    (h : settle awaited (.error e) = some o) : ∃ e', o = .error e' := by
  cases e <;> cases h <;> exact ⟨_, rfl⟩

theorem settle_ok {r : Except FError FDURecord} {i : FDURecord}
    (h : settle awaited r = some (.ok i)) : r = .ok i := by
  cases r with
  | error e => obtain ⟨e', he⟩ := settle_error h; cases he
  | ok j =>
    simp only [settle] at h
    split at h
    · cases h; rfl
    · split at h <;> cases h

theorem settle_of_ne {inst : FDURecord} (h : inst.status ≠ awaited)
    (he : ∀ e, inst.status ≠ .error e) : settle awaited (.ok inst) = none := by
  cases hst : inst.status with
  | error e => exact absurd hst (he e)
  | _ => simp_all [settle]

end Settle

namespace Agent

variable (z : Session) (a : Agent)

/-- Does every interface that needs a node interface find one? The fold keeps
the answer for the last interface only, as in the source. -/
def faces (interfaces : List Interface) (nodeInterfaces : List NetworkInterfaceStatus) : Bool :=
  let fduInterfaces := interfaces.filter fun x =>
    match x.virtualInterface.vifKind with
    | .bridged | .physical => true
    | _ => false
  let names := nodeInterfaces.map (·.name)
  match fduInterfaces with
  | [] => true
  | _ => fduInterfaces.foldl
      (fun _ x => names.any fun y => y = x.virtualInterface.parent.getD y) true

/-- Is the image where its uri says, as far as a `file://` uri can tell? -/
def imageExists : Option Image → M Bool
  | none => pure true
  | some img =>
      if "file://".toList.isPrefixOf img.uri.toList then
        issue (.pathExists (String.ofList (img.uri.toList.drop 7)))
      else pure true

def checkFduCompatibility (fduUuid : Uuid) : M Bool := do
  let descriptor ← ask (.getFdu fduUuid)
  let nodeInfo ← ask (.getNodeInfo a.nodeUuid)
  let nodeStatus ← ask (.getNodeStatus a.nodeUuid)
  let plugin ← issue (.hypervisor a.nodeUuid descriptor.hypervisor)
  let cpu ← unwrap nodeInfo.cpu.head?
  let requirements := descriptor.computationRequirements
  let cpuArch := decide (cpu.arch = requirements.cpuArch)
  let cpuNumber := decide (requirements.cpuMinCount ≤ nodeInfo.cpu.length % 256)
  let cpuFreq := decide (requirements.cpuMinFreq ≤ cpu.frequency)
  let ramSize := decide ((requirements.ramSizeMb : ℚ) ≤ nodeStatus.ram.free)
  let disk ← unwrap (nodeStatus.disk.find? fun x => x.mountPoint = "/")
  let diskSize := decide ((requirements.storageSizeMb : ℚ) ≤ disk.free * 1024)
  let image ← imageExists descriptor.image
  pure (plugin.isSome && cpuArch && cpuNumber && cpuFreq && ramSize && diskSize && image &&
    faces descriptor.interfaces nodeStatus.interfaces)

/-- Ask the remote agents, in the order of the node list; each answer is kept
with the service uuid it came from. -/
def checkAll (fduUuid : Uuid) : List Uuid → M (List (Except Exn Bool × Uuid))
  | [] => pure []
  | service :: rest => do
      let checkRes ← (rpc z service (.checkFduCompatibility fduUuid)).attempt
      let results ← checkAll fduUuid rest
      pure ((checkRes, service) :: results)

/-- A call of the agent on itself: an error is a value, a panic is a panic. -/
def selfCheck (fduUuid : Uuid) : M (Except Exn Bool) :=
  (checkFduCompatibility a fduUuid).bindE fun
    | .error .panic => .err .panic
    | o => .ret o

def getCompatibleNodes (fduUuid : Uuid) : M (List Uuid) := do
  let nodes ← ask .getAllNodes
  let services := nodes.filterMap fun node =>
    if node.agentServiceUuid ≠ a.instanceUuid then some node.agentServiceUuid else none
  let results ← checkAll z fduUuid services
  let check ← selfCheck a fduUuid
  pure ((results ++ [(check, a.nodeUuid)]).filterMap fun r =>
    match r.1 with
    | .ok true => some r.2
    | _ => none)

/-- The frame of every call on an instance: at its owner, find the plugin and
go on with `work`; elsewhere call the agent that its node advertises. -/
def dispatch (instanceUuid : Uuid) (work : FDURecord → Uuid → M FDURecord)
    (forward : Uuid → M FDURecord) : M FDURecord := do
  let inst ← ask (.getInstance instanceUuid)
  if inst.node = a.nodeUuid then
    let descriptor ← ask (.getFdu inst.fduUuid)
    let hypervisor ← issue (.hypervisor a.nodeUuid descriptor.hypervisor)
    let plugin ← okOr .notFound hypervisor
    work inst plugin
  else
    let nodeInfo ← ask (.getNodeInfo inst.node)
    forward nodeInfo.agentServiceUuid

def move (q : PluginRequest) (awaited : FDUState) (instanceUuid plugin : Uuid) : M FDURecord := do
  let _ ← DummyHypervisor.call z a.nodeUuid plugin q
  Prog.invoke (Proc.poll instanceUuid awaited)

def defineFdu (fduUuid : Uuid) : M FDURecord := do
  let descriptor ← ask (.getFdu fduUuid)
  let hypervisor ← issue (.hypervisor a.nodeUuid descriptor.hypervisor)
  let plugin ← okOr .notFound hypervisor
  let inst ← DummyHypervisor.call z a.nodeUuid plugin (.defineFdu descriptor)
  Prog.invoke (Proc.poll inst.uuid .defined)

def configureFdu (u : Uuid) : M FDURecord :=
  dispatch a u (fun _ => move z a (.configureFdu u) .configured u) fun client => rpc z client (.configureFdu u)

def startFdu (u : Uuid) : M FDURecord :=
  dispatch a u (fun _ => move z a (.startFdu u) .running u) fun client => rpc z client (.startFdu u)

def stopFdu (u : Uuid) : M FDURecord :=
  dispatch a u (fun _ => move z a (.stopFdu u) .configured u) fun client => rpc z client (.stopFdu u)

def cleanFdu (u : Uuid) : M FDURecord :=
  dispatch a u (fun _ => move z a (.cleanFdu u) .defined u) fun client => rpc z client (.cleanFdu u)

/-- No polling loop, and the forwarding branch calls `clean_fdu`. -/
def undefineFdu (u : Uuid) : M FDURecord :=
  dispatch a u
    (fun inst plugin => do
      let _ ← DummyHypervisor.call z a.nodeUuid plugin (.undefineFdu u)
      removeInstance u
      pure inst)
    fun client => rpc z client (.cleanFdu u)

def fduStatus (instanceUuid : Uuid) : M FDURecord := do
  let inst ← ask (.getInstance instanceUuid)
  let descriptor ← ask (.getFdu inst.fduUuid)
  let hypervisor ← issue (.hypervisor a.nodeUuid descriptor.hypervisor)
  let plugin ← okOr .notFound hypervisor
  DummyHypervisor.call z a.nodeUuid plugin (.getFduStatus instanceUuid)

def scheduleFdu (fduUuid : Uuid) : M FDURecord := do
  let compatibles ← getCompatibleNodes z a fduUuid
  let selected ← issue (.choose compatibles)
  match selected with
  | some selected =>
      if selected = a.nodeUuid then defineFdu z a fduUuid
      else rpc z selected (.defineFdu fduUuid)
  | none => fail .notFound

def onboardFdu (fdu : FDUDescriptor) : M Uuid :=
  match fdu.uuid with
  | none => do
      let fduUuid ← issue .newUuid
      addFdu { fdu with uuid := some fduUuid }
      pure fduUuid
  | some fduUuid => do
      addFdu fdu
      pure fduUuid

/-- The FDUs of an entity with the missing uuids filled in. -/
def completeFdus : List FDUDescriptor → M (List FDUDescriptor)
  | [] => pure []
  | fdu :: rest => do
      let ifdu ← match fdu.uuid with
        | none => do
            let fduUuid ← issue .newUuid
            pure { fdu with uuid := some fduUuid }
        | some _ => pure fdu
      let fdus ← completeFdus rest
      pure (ifdu :: fdus)

def onboardEntity (entity : EntityDescriptor) : M Uuid := do
  let fdus ← completeFdus entity.fdus
  match entity.uuid with
  | none => do
      let entityUuid ← issue .newUuid
      addEntity { entity with uuid := some entityUuid, fdus }
      pure entityUuid
  | some entityUuid => do
      addEntity { entity with fdus }
      pure entityUuid

def offloadFdu (fduUuid : Uuid) : M Uuid := do
  let _ ← ask (.getFdu fduUuid)
  let instances ← ask (.getAllFduInstances fduUuid)
  if instances.isEmpty then
    ask (.deleteFdu fduUuid)
    pure fduUuid
  else fail .hasInstances

def offloadEntity (entityUuid : Uuid) : M Uuid := do
  let _ ← ask (.getEntity entityUuid)
  let instances ← ask (.getAllEntityInstances entityUuid)
  if instances.isEmpty then
    ask (.deleteEntity entityUuid)
    pure entityUuid
  else fail .hasInstances

/-- The client an entity task uses for an instance on node `owner`. -/
def client (owner : Uuid) : M Uuid :=
  if owner = a.nodeUuid then pure a.instanceUuid
  else do
    let nodeInfo ← ask (.getNodeInfo owner)
    pure nodeInfo.agentServiceUuid

/-- Set the status of the task's copy of the record and write that copy. -/
def writeStatus (inst : EntityRecord) (status : EntityStatus) : M EntityRecord := do
  ask (.putEntityInstance { inst with status })
  pure { inst with status }

def onboardFdus : List FDUDescriptor → M Unit
  | [] => pure ()
  | fdu :: fdus => do
      let _ ← rpc z a.instanceUuid (.onboardFdu fdu)
      onboardFdus fdus

def bringUp (service fduInstance : Uuid) : M Unit := do
  let _ ← rpc z service (.configureFdu fduInstance)
  let _ ← rpc z service (.startFdu fduInstance)

def takeDown (service fduInstance : Uuid) : M Unit := do
  let _ ← rpc z service (.stopFdu fduInstance)
  let _ ← rpc z service (.cleanFdu fduInstance)
  let _ ← rpc z service (.undefineFdu fduInstance)

def scheduleFdus : List FDUDescriptor → EntityRecord → M EntityRecord
  | [], inst => pure inst
  | fdu :: fdus, inst => do
      let fduUuid ← okOr .malformedDescriptor fdu.uuid
      let fduInstance ← rpc z a.instanceUuid (.scheduleFdu fduUuid)
      let service ← client a fduInstance.node
      bringUp z service fduInstance.uuid
      scheduleFdus fdus { inst with fdus := inst.fdus ++ [fduInstance.uuid] }

def entityScheduling (inst : EntityRecord) (descriptor : EntityDescriptor) : M Unit := do
  onboardFdus z a descriptor.fdus
  let inst ← writeStatus inst .onboarded
  let inst ← writeStatus inst .starting
  let inst ← scheduleFdus z a descriptor.fdus inst
  let _ ← writeStatus inst .running

def unscheduleFdus : List Uuid → M Unit
  | [] => pure ()
  | fduInstId :: rest => do
      let inst ← ask (.getInstance fduInstId)
      let service ← client a inst.node
      takeDown z service fduInstId
      unscheduleFdus rest

def offloadFdus : List FDUDescriptor → M Unit
  | [] => pure ()
  | fdu :: fdus => do
      let fduUuid ← okOr .malformedDescriptor fdu.uuid
      let _ ← rpc z a.instanceUuid (.offloadFdu fduUuid)
      offloadFdus fdus

def entityUnscheduling (inst : EntityRecord) : M Unit := do
  let descriptor ← ask (.getEntity inst.id)
  let inst ← writeStatus inst .stopping
  unscheduleFdus z a inst.fdus
  let inst ← writeStatus inst .stopped
  let inst ← writeStatus inst .offloading
  offloadFdus z a descriptor.fdus
  let _ ← writeStatus inst .offloaded

/-- What a spawned task does with the result of its entity: an error is written
to the copy of the record that the task was given. -/
def report (inst : EntityRecord) (b : M Unit) : M Unit :=
  b.bindE fun
    | .ok _ => .ret ()
    | .error (.err e) =>
        (ask (.putEntityInstance { inst with status := .error e.display })).bindE fun _ => .ret ()
    | .error .panic => .err .panic

def scheduleEntity (entity : Uuid) : M Uuid := do
  let descriptor ← ask (.getEntity entity)
  let instanceUuid ← issue .newUuid
  let id ← okOr .malformedDescriptor descriptor.uuid
  let inst : EntityRecord := {
    uuid := instanceUuid
    id
    status := .onboarding
    virtualLinks := []
    fdus := []
    fimId := none
    cloudId := none }
  ask (.putEntityInstance inst)
  issue (.spawn (.schedule a.nodeUuid a.instanceUuid inst descriptor))
  pure instanceUuid

def descheduleEntity (entity : Uuid) : M Uuid := do
  let inst ← ask (.getEntityInstance entity)
  issue (.spawn (.deschedule a.nodeUuid a.instanceUuid inst))
  pure entity

def handle : (q : Request) → M q.Ret
  | .checkFduCompatibility f => checkFduCompatibility a f
  | .scheduleEntity e => scheduleEntity a e
  | .descheduleEntity e => descheduleEntity a e
  | .scheduleFdu f => scheduleFdu z a f
  | .onboardFdu fdu => onboardFdu fdu
  | .onboardEntity entity => onboardEntity entity
  | .defineFdu f => defineFdu z a f
  | .configureFdu u => configureFdu z a u
  | .startFdu u => startFdu z a u
  | .stopFdu u => stopFdu z a u
  | .cleanFdu u => cleanFdu z a u
  | .undefineFdu u => undefineFdu z a u
  | .offloadFdu f => offloadFdu f
  | .offloadEntity e => offloadEntity e
  | .fduStatus u => fduStatus z a u

end Agent

end Fog05
