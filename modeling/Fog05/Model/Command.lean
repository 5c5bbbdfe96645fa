import Fog05.Conc.Pool
import Fog05.Model.Store

/-! The commands a call is made of: single accesses to a store, the two halves
of a remote call, and what a process does by itself. Everything that can
interleave with other calls is one command. -/

namespace Fog05

open Conc

inductive Request
  | checkFduCompatibility (fduUuid : Uuid)
  | scheduleEntity (entity : Uuid)
  | descheduleEntity (entity : Uuid)
  | scheduleFdu (fduUuid : Uuid)
  | onboardFdu (fdu : FDUDescriptor)
  | onboardEntity (entity : EntityDescriptor)
  | defineFdu (fduUuid : Uuid)
  | configureFdu (instanceUuid : Uuid)
  | startFdu (instanceUuid : Uuid)
  | stopFdu (instanceUuid : Uuid)
  | cleanFdu (instanceUuid : Uuid)
  | undefineFdu (instanceUuid : Uuid)
  | offloadFdu (fduUuid : Uuid)
  | offloadEntity (entityUuid : Uuid)
  | fduStatus (instanceUuid : Uuid)

abbrev Request.Ret : Request → Type
  | .checkFduCompatibility _ => Bool
  | .scheduleFdu _ | .defineFdu _ | .configureFdu _ | .startFdu _ | .stopFdu _ | .cleanFdu _
  | .undefineFdu _ | .fduStatus _ => FDURecord
  | .scheduleEntity _ | .descheduleEntity _ | .onboardFdu _ | .onboardEntity _ | .offloadFdu _
  | .offloadEntity _ => Uuid

inductive PluginRequest
  | defineFdu (fdu : FDUDescriptor)
  | undefineFdu (instanceUuid : Uuid)
  | configureFdu (instanceUuid : Uuid)
  | cleanFdu (instanceUuid : Uuid)
  | startFdu (instanceUuid : Uuid)
  | stopFdu (instanceUuid : Uuid)
  | getFduStatus (instanceUuid : Uuid)

abbrev PluginRequest.Ret : PluginRequest → Type
  | .defineFdu _ | .getFduStatus _ => FDURecord
  | .undefineFdu _ | .configureFdu _ | .cleanFdu _ | .startFdu _ | .stopFdu _ => Uuid

/-- The calls of `AgentPluginInterface` that the hypervisor plugin makes. -/
inductive AgentPluginRequest
  | getNodeUuid
  | fduInfo (fduUuid : Uuid)

abbrev AgentPluginRequest.Ret : AgentPluginRequest → Type
  | .getNodeUuid => Uuid
  | .fduInfo _ => FDUDescriptor

/-- A remote call and the server it is addressed to: an agent's service uuid, a
plugin's uuid, or the agent of a node. -/
inductive Rpc
  | agent (service : Uuid) (q : Request)
  | plugin (uuid : Uuid) (q : PluginRequest)
  | agentPlugin (node : Uuid) (q : AgentPluginRequest)

abbrev Rpc.Ret : Rpc → Type
  | .agent _ q => q.Ret
  | .plugin _ q => q.Ret
  | .agentPlugin _ q => q.Ret

/-- The calls to the networking plugin that the hypervisor plugin makes. -/
inductive NetRequest
  | createNetworkNamespace
  | createConnectionPoint
  | createVirtualInterfaceInNamespace (ifName : String) (netns : Uuid)
  | bindInterfaceToConnectionPoint (intf cp : Uuid)
  | moveInterfaceIntoDefaultNamespace (intf : Uuid)
  | deleteNetworkNamespace (netns : Uuid)
  | deleteVirtualInterface (intf : Uuid)
  | deleteConnectionPoint (cp : Uuid)

/-- The object a networking call returns: its uuid and, for a virtual interface
of kind `VETH`, the uuid of its pair. -/
structure NetObject where
  uuid : Uuid
  pair : Option Uuid

/-- The tasks that `schedule_entity` and `deschedule_entity` spawn, with what
they capture. -/
inductive Task
  | schedule (nodeUuid instanceUuid : Uuid) (inst : EntityRecord) (descriptor : EntityDescriptor)
  | deschedule (nodeUuid instanceUuid : Uuid) (inst : EntityRecord)

/-- Accesses that can fail: to the global store, to the local store of a node,
and the request and the reply of a remote call. -/
inductive Access
  | getFdu (fduUuid : Uuid)
  | putFdu (fdu : FDUDescriptor)
  | deleteFdu (fduUuid : Uuid)
  | getEntity (entityUuid : Uuid)
  | putEntity (entity : EntityDescriptor)
  | deleteEntity (entityUuid : Uuid)
  | getInstance (instanceUuid : Uuid)
  | getAllFduInstances (fduUuid : Uuid)
  | deleteInstance (fduUuid instanceUuid : Uuid)
  | getEntityInstance (instanceUuid : Uuid)
  | getAllEntityInstances (entityUuid : Uuid)
  | putEntityInstance (inst : EntityRecord)
  | getNodeInfo (nodeUuid : Uuid)
  | getAllNodes
  | getNodeStatus (nodeUuid : Uuid)
  | localGetInstance (node instanceUuid : Uuid)
  | localPutInstance (node : Uuid) (inst : FDURecord)
  | localDeleteInstance (node fduUuid instanceUuid : Uuid)
  | request (q : Rpc)
  | reply (q : Rpc) (o : Except FError q.Ret)

abbrev Access.Ret : Access → Type
  | .getFdu _ => FDUDescriptor
  | .getEntity _ => EntityDescriptor
  | .getInstance _ | .localGetInstance _ _ => FDURecord
  | .getAllFduInstances _ => List FDURecord
  | .getEntityInstance _ => EntityRecord
  | .getAllEntityInstances _ => List EntityRecord
  | .getNodeInfo _ => NodeInfo
  | .getAllNodes => List NodeInfo
  | .getNodeStatus _ => NodeStatus
  | .reply q _ => q.Ret
  | .putFdu _ | .deleteFdu _ | .putEntity _ | .deleteEntity _ | .deleteInstance _ _
  | .putEntityInstance _ | .localPutInstance _ _ | .localDeleteInstance _ _ _ | .request _ => Unit

inductive Cmd
  | access (a : Access)
  | net (node : Uuid) (q : NetRequest)
  | hypervisor (node : Uuid) (name : String)
  | lock (plugin : Uuid)
  | unlock (plugin : Uuid)
  | insert (plugin : Uuid) (inst : FDURecord)
  | remove (plugin instanceUuid : Uuid)
  | newUuid
  | choose (l : List Uuid)
  | pathExists (path : String)
  | spawn (t : Task)

abbrev Cmd.Ans : Cmd → Type
  | .access a => Except FError a.Ret
  | .net _ _ => Except FError NetObject
  | .hypervisor _ _ => Option Uuid
  | .newUuid => Uuid
  | .choose _ => Option Uuid
  | .pathExists _ => Bool
  | .lock _ | .unlock _ | .insert _ _ | .remove _ _ | .spawn _ => Unit

/-- Procedures: a request served by the agent with this service uuid, the loop
that polls the global store for an awaited status, and a spawned task. -/
inductive Proc
  | agent (service : Uuid) (q : Request)
  | poll (instanceUuid : Uuid) (awaited : FDUState)
  | task (t : Task)

abbrev Proc.Ret : Proc → Type
  | .agent _ q => q.Ret
  | .poll _ _ => FDURecord
  | .task _ => Unit

abbrev M := Prog Cmd.Ans Proc.Ret Exn

/-- The state of a hypervisor plugin, and whether its lock is taken. -/
structure DummyHVState where
  fdus : Table FDURecord.uuid
  locked : Bool

/-- The state of a deployment. `issued` are the uuids given out by `new_v4`,
`tasks` those spawned and not yet started; `writes` (the entity records written
to the global store) and `replies` (the replies delivered) are its history. -/
structure Fos extends Store where
  plugin : Uuid → DummyHVState
  issued : List Uuid
  tasks : List Task
  writes : List EntityRecord
  replies : List ((q : Rpc) × Except FError q.Ret)

namespace Fos

variable (s : Fos) (p : Uuid)

def setLock (b : Bool) : Fos :=
  { s with plugin := Function.update s.plugin p { s.plugin p with locked := b } }

def setFdus (fdus : Table FDURecord.uuid) : Fos :=
  { s with plugin := Function.update s.plugin p { s.plugin p with fdus } }

@[simp] theorem setLock_locked (b : Bool) (p' : Uuid) :
    ((s.setLock p b).plugin p').locked = if p' = p then b else (s.plugin p').locked := by
  simp only [setLock, Function.update_apply]
  split <;> rfl

@[simp] theorem setLock_fdus (b : Bool) (p' : Uuid) :
    ((s.setLock p b).plugin p').fdus = (s.plugin p').fdus := by
  simp only [setLock, Function.update_apply]
  split
  · next h => rw [h]
  · rfl

@[simp] theorem setFdus_fdus (fdus : Table FDURecord.uuid) (p' : Uuid) :
    ((s.setFdus p fdus).plugin p').fdus = if p' = p then fdus else (s.plugin p').fdus := by
  simp only [setFdus, Function.update_apply]
  split <;> rfl

@[simp] theorem setFdus_locked (fdus : Table FDURecord.uuid) (p' : Uuid) :
    ((s.setFdus p fdus).plugin p').locked = (s.plugin p').locked := by
  simp only [setFdus, Function.update_apply]
  split
  · next h => rw [h]
  · rfl

variable {s p}

theorem setLock_held {held : Option Uuid} (hlocks : ∀ p, (s.plugin p).locked = decide (held = some p))
    (hfree : held = none) : ∀ p', ((s.setLock p true).plugin p').locked = decide (some p = some p') := by
  intro p'
  rw [setLock_locked, hlocks, hfree]
  split
  · next hp => simp [hp]
  · next hp => simp [Ne.symm hp]

theorem setLock_free {held : Option Uuid} (hlocks : ∀ p, (s.plugin p).locked = decide (held = some p))
    (hheld : held = some p) :
    ∀ p', ((s.setLock p false).plugin p').locked = decide ((none : Option Uuid) = some p') := by
  intro p'
  rw [setLock_locked, hlocks, hheld]
  split
  · rfl
  · next hp => simp [Ne.symm hp]

end Fos

def Access.run : (a : Access) → Fos → Except FError a.Ret × Fos
  | .getFdu f, s => (s.global.getFdu f, s)
  | .putFdu d, s => (.ok (), { s with global := { s.global with fdus := s.global.fdus.put d } })
  | .deleteFdu f, s =>
      (.ok (), { s with global := { s.global with fdus := s.global.fdus.erase (some f) } })
  | .getEntity e, s => (s.global.getEntity e, s)
  | .putEntity d, s =>
      (.ok (), { s with global := { s.global with entities := s.global.entities.put d } })
  | .deleteEntity e, s =>
      (.ok (), { s with global := { s.global with entities := s.global.entities.erase (some e) } })
  | .getInstance u, s => (s.global.getInstance u, s)
  | .getAllFduInstances f, s => (.ok (s.global.getAllFduInstances f), s)
  | .deleteInstance f u, s => (.ok (), { s with toStore := s.toStore.globalDelete f u })
  | .getEntityInstance u, s => (s.global.getEntityInstance u, s)
  | .getAllEntityInstances e, s => (.ok (s.global.getAllEntityInstances e), s)
  | .putEntityInstance inst, s =>
      (.ok (), { s with
        global := { s.global with entityInstances := s.global.entityInstances.put inst }
        writes := s.writes ++ [inst] })
  | .getNodeInfo n, s => (s.global.getNodeInfo n, s)
  | .getAllNodes, s => (.ok s.global.nodes.rows, s)
  | .getNodeStatus n, s => (s.global.getNodeStatus n, s)
  | .localGetInstance n u, s => ((s.node n).getInstance u, s)
  | .localPutInstance n inst, s => (.ok (), { s with toStore := s.toStore.localPut n inst })
  | .localDeleteInstance n f u, s => (.ok (), { s with toStore := s.toStore.localDelete n f u })
  | .request _, s => (.ok (), s)
  | .reply q o, s => (o, { s with replies := s.replies ++ [⟨q, o⟩] })

/-- What resolves a command: nothing, a failure of the store or of the RPC, a
fresh uuid, the networking plugin's answer, a random pick, the file system. -/
inductive Choice
  | go
  | fault (e : FError)
  | uuid (u : Uuid)
  | net (o : Except FError NetObject)
  | pick (i : ℕ)
  | path (b : Bool)

def exec : (c : Cmd) → Choice → Fos → Option (c.Ans × Fos)
  | .access a, .go, s => some (a.run s)
  | .access _, .fault e, s => some (.error e, s)
  | .net _ _, .net o, s => some (o, s)
  | .hypervisor n name, .go, s => some ((s.node n).hypervisors name, s)
  | .lock p, .go, s =>
      if (s.plugin p).locked then none
      else some ((), s.setLock p true)
  | .unlock p, .go, s => some ((), s.setLock p false)
  | .insert p inst, .go, s =>
      some ((), s.setFdus p ((s.plugin p).fdus.put inst))
  | .remove p u, .go, s =>
      some ((), s.setFdus p ((s.plugin p).fdus.erase u))
  | .newUuid, .uuid u, s =>
      if u ∈ s.issued then none else some (u, { s with issued := u :: s.issued })
  | .choose [], .go, s => some (none, s)
  | .choose (u :: l), .pick i, s => (u :: l)[i]?.map fun v => (some v, s)
  | .pathExists _, .path b, s => some (b, s)
  | .spawn t, .go, s => some ((), { s with tasks := s.tasks ++ [t] })
  | _, _, _ => none

section Exec

variable {ch : Choice} {s s' : Fos}

theorem exec_access {a : Access} {r : Except FError a.Ret}
    (h : exec (.access a) ch s = some (r, s')) :
    (ch = .go ∧ a.run s = (r, s')) ∨ ∃ e, ch = .fault e ∧ r = .error e ∧ s' = s := by
  cases ch with
  | go => exact Or.inl ⟨rfl, Option.some.inj h⟩
  | fault e => cases h; exact Or.inr ⟨e, rfl, rfl, rfl⟩
  | _ => cases h

theorem exec_net {n : Uuid} {q : NetRequest} {r : Except FError NetObject}
    (h : exec (.net n q) ch s = some (r, s')) : ch = .net r ∧ s' = s := by
  cases ch with
  | net o => cases h; exact ⟨rfl, rfl⟩
  | _ => cases h

theorem exec_hypervisor {n : Uuid} {name : String} {r : Option Uuid}
    (h : exec (.hypervisor n name) ch s = some (r, s')) :
    r = (s.node n).hypervisors name ∧ s' = s := by
  cases ch with
  | go => cases h; exact ⟨rfl, rfl⟩
  | _ => cases h

theorem exec_lock {p : Uuid} {r : Unit} (h : exec (.lock p) ch s = some (r, s')) :
    (s.plugin p).locked = false ∧ s' = s.setLock p true := by
  cases ch with
  | go =>
    simp only [exec] at h
    split at h
    · cases h
    · rename_i hl
      cases h
      exact ⟨by simpa using hl, rfl⟩
  | _ => cases h

theorem exec_unlock {p : Uuid} {r : Unit} (h : exec (.unlock p) ch s = some (r, s')) :
    s' = s.setLock p false := by
  cases ch with
  | go => cases h; rfl
  | _ => cases h

theorem exec_insert {p : Uuid} {inst : FDURecord} {r : Unit}
    (h : exec (.insert p inst) ch s = some (r, s')) :
    s' = s.setFdus p ((s.plugin p).fdus.put inst) := by
  cases ch with
  | go => cases h; rfl
  | _ => cases h

theorem exec_remove {p u : Uuid} {r : Unit} (h : exec (.remove p u) ch s = some (r, s')) :
    s' = s.setFdus p ((s.plugin p).fdus.erase u) := by
  cases ch with
  | go => cases h; rfl
  | _ => cases h

theorem exec_newUuid {u : Uuid} (h : exec .newUuid ch s = some (u, s')) :
    u ∉ s.issued ∧ s' = { s with issued := u :: s.issued } := by
  cases ch with
  | uuid v =>
    simp only [exec] at h
    split at h
    · cases h
    · cases h; exact ⟨‹_›, rfl⟩
  | _ => cases h

theorem exec_choose {l : List Uuid} {r : Option Uuid} (h : exec (.choose l) ch s = some (r, s')) :
    s' = s ∧ (l = [] ∧ r = none ∨ ∃ u ∈ l, r = some u) := by
  cases l with
  | nil =>
    cases ch with
    | go => cases h; exact ⟨rfl, Or.inl ⟨rfl, rfl⟩⟩
    | _ => cases h
  | cons u l =>
    cases ch with
    | pick i =>
      obtain ⟨v, hv, hr⟩ := Option.map_eq_some_iff.1 h
      cases hr
      exact ⟨rfl, Or.inr ⟨v, List.mem_of_getElem? hv, rfl⟩⟩
    | _ => cases h

theorem exec_pathExists {path : String} {r : Bool} (h : exec (.pathExists path) ch s = some (r, s')) :
    ch = .path r ∧ s' = s := by
  cases ch with
  | path b => cases h; exact ⟨rfl, rfl⟩
  | _ => cases h

theorem exec_spawn {t : Task} {r : Unit} (h : exec (.spawn t) ch s = some (r, s')) :
    s' = { s with tasks := s.tasks ++ [t] } := by
  cases ch with
  | go => cases h; rfl
  | _ => cases h

end Exec

/-- No access and no remote call fails; the networking plugin answers as it likes. -/
def Reliable : Choice → Prop
  | .fault _ => False
  | _ => True

/-- Any access and any remote call may fail. -/
def Unreliable : Choice → Prop := fun _ => True

/-- Neither accesses nor networking calls fail. -/
def Healthy : Choice → Prop
  | .fault _ | .net (.error _) => False
  | _ => True

/-- Which remote services there are: the node whose agent serves a service
uuid, and the errors of a call that no server answers. -/
structure Session where
  server : Uuid → Option Uuid
  noServer : String
  noReply : String

namespace M

variable {α β : Type}

/-- Perform an access; its error is the caller's, as with `?`. -/
def ask (a : Access) : M a.Ret := .act (.access a) fun o => .final (o.mapError .err)

def issue (c : Cmd) : M c.Ans := Prog.issue c

def fail (e : FError) : M α := .err (.err e)

/-- `Option::ok_or(e)?`. -/
def okOr (e : FError) : Option α → M α
  | none => fail e
  | some a => pure a

def unwrap : Option α → M α
  | none => .err .panic
  | some a => pure a

@[simp] theorem okOr_some_bind (e : FError) (a : α) (f : α → M β) :
    (okOr e (some a) >>= f) = f a := rfl

@[simp] theorem okOr_none_bind (e : FError) (f : α → M β) : (okOr e none >>= f) = fail e := rfl

@[simp] theorem unwrap_some_bind (a : α) (f : α → M β) : (unwrap (some a) >>= f) = f a := rfl

@[simp] theorem unwrap_none_bind (f : α → M β) : (unwrap none >>= f) = .err .panic := rfl

/-- What the caller of a remote call gets to see of its outcome: a server that
panics does not reply. -/
def received (z : Session) : Except Exn α → Except FError α
  | .ok a => .ok a
  | .error (.err e) => .error e
  | .error .panic => .error (.zError z.noReply)

/-- A remote call, `??` applied: the request, the call at the server, the reply. -/
def remote (z : Session) (q : Rpc) (b : M q.Ret) : M q.Ret := do
  ask (.request q)
  let o ← b.attempt
  ask (.reply q (received z o))

def callNet (n : Uuid) (q : NetRequest) : M NetObject :=
  .act (.net n q) fun o => .final (o.mapError .err)

end M

end Fog05
