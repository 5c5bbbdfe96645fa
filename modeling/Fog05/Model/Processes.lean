import Fog05.Conc.Pool
import Fog05.Conc.RwLock
import Fog05.Model.Main
import Fog05.Model.Registry

/-! The processes of a node: its agent and the plugins, each with a lock on its state, and the
remote calls between them. A guard lives as long as the block, or the statement, that takes it,
so it is out while a remote call is waited for, until the reply comes or the wait times out; the
other side serves the call in any case. Of the calls on an instance only the locks are modelled
here; what they read and write elsewhere answers as it likes. -/

namespace Fog05.Processes

open Conc

/-- The lock on `AgentInner`, and that on the state of a plugin, which is known by the uuid of
its server. -/
inductive Lock
  | agent
  | plugin (p : Uuid)
  deriving DecidableEq

deriving instance DecidableEq for RegistryCall

/-- The remote calls within a node that take a lock: those of a plugin on the registry, and
those of the agent on an instance. -/
inductive Call
  | registry (q : RegistryCall)
  | transition (p : Uuid)
  deriving DecidableEq

inductive NodeStatusEnum
  | notReady
  | ready
  deriving DecidableEq

/-- What a `NodeStatus` says of the plugins. -/
structure NodeStatus where
  status : NodeStatusEnum
  supportedHypervisors : List String
  deriving DecidableEq

/-- What a round of the monitoring loop reports, from the clients that it finds. -/
def NodeStatus.report (networking : Option Uuid) (hvs : List String) : NodeStatus where
  status :=
    match networking with
    | some _ =>
        match hvs.length with
        | 0 => .notReady
        | _ => .ready
    | none => .notReady
  supportedHypervisors := hvs

inductive Op
  | lock (l : Lock) (m : Mode)
  | unlock (l : Lock) (m : Mode)
  | request (c : Call)
  | reply (n : ℕ)
  | respond (n : ℕ) (o : Except FError Unit)
  | access
  | owned
  | polled
  | connect (p : Uuid)
  | server (call : Main.ServerCall)
  | setUuid (p : Uuid)
  | uuid (p : Uuid)
  | recv (p : Uuid)
  | hypervisor (name : String)
  | insertHypervisor (name : String) (p : Uuid)
  | removeHypervisor (name : String)
  | hypervisors
  | networking
  | setNetworking (client : Option Uuid)
  | getPlugin (p : Uuid)
  | addPlugin (info : PluginInfo)
  | removePlugin (p : Uuid)
  | spawn (p : Uuid)
  | verifyServer (p : Uuid)
  | createDefault (p : Uuid)
  | addNodeStatus (status : NodeStatus)
  | localAddNodeStatus (status : NodeStatus)
  | answered (q : RegistryCall) (o : Except FError Uuid)

/-- A `request` is answered with its number, by which the `reply` comes. `access` is whatever a
call on an instance reads or writes, on another node also, and `owned` whether the instance is of
this one. A look of a polling loop finds nothing yet or the outcome. -/
abbrev Op.Ans : Op → Type
  | request _ => Except FError ℕ
  | reply _ | access | connect _ | server _ | addPlugin _ | removePlugin _ | createDefault _
  | addNodeStatus _ | localAddNodeStatus _ => Except FError Unit
  | polled => Option (Except FError Unit)
  | owned => Bool
  | uuid _ | hypervisor _ | networking => Option Uuid
  | hypervisors => List String
  | getPlugin _ => Except FError PluginInfo
  | verifyServer _ => Except FError Bool
  | lock _ _ | unlock _ _ | respond _ _ | setUuid _ | recv _ | insertHypervisor _ _ | removeHypervisor _
  | setNetworking _ | spawn _ | answered _ _ => Unit

/-- The calls of the agent that take its lock, for a hypervisor of this name, the monitoring
loop, a plugin process, the task that `register_plugin` spawns, and the service of a request. -/
inductive Proc
  | define (name : String)
  | move (name : String)
  | undefine (name : String)
  | status (name : String)
  | poll
  | getLocalMgmtInterface
  | monitoring
  | plugin (kind : PluginKind) (p : Uuid)
  | defaultNetwork (p : Uuid)
  | serve (n : ℕ) (c : Call)

abbrev Proc.Ret : Proc → Type := fun _ => Unit

abbrev Act (α : Type) := Prog Op.Ans Proc.Ret Exn α

/-- The clients in `AgentInner`, each known by the uuid of the plugin it calls. -/
structure Inner where
  networking : Option Uuid
  hypervisors : Table (Prod.fst : String × Uuid → String)

def Inner.client (a : Inner) (name : String) : Option Uuid :=
  (a.hypervisors.select (· = name)).head?.map Prod.snd

/-- The node, with the requests that have been sent and the calls on the registry that have been
answered as its history. `stopping` are the plugins that Ctrl-C has been sent to. -/
structure Node where
  locks : Lock → RwLock
  inner : Inner
  uuids : Uuid → Option Uuid
  plugins : Table PluginInfo.uuid
  globalStatus : Option NodeStatus
  localStatus : Option NodeStatus
  stopping : Uuid → Bool
  issued : List Uuid
  sent : List Call
  tasks : List Proc
  replies : List (ℕ × Except FError Unit)
  served : List (RegistryCall × Except FError Uuid)

namespace Node

def setLock (s : Node) (l : Lock) (x : RwLock) : Node :=
  { s with locks := Function.update s.locks l x }

def registry (s : Node) : Registry := ⟨⟨s.inner.networking, s.inner.client⟩, s.plugins⟩

/-- A node whose agent has just started, with no plugin process. -/
def new : Node where
  locks _ := .free
  inner := ⟨none, Table.empty⟩
  uuids _ := none
  plugins := Table.empty
  globalStatus := none
  localStatus := none
  stopping _ := false
  issued := []
  sent := []
  tasks := []
  replies := []
  served := []

end Node

/-- What resolves an operation: nothing, a failure or a timeout, the order of the keys of a `HashMap`, an
answer that tells nothing of the node, or a look that settles a polling loop. -/
inductive Chance
  | go
  | fault (e : FError)
  | keys (l : List String)
  | answer (b : Bool)
  | settled (o : Except FError Unit)

/-- A lock that is taken, a reply that has not come yet and the wait for the stop message hold a
process up; no two servers have the same uuid. -/
def exec : (c : Op) → Chance → Node → Option (c.Ans × Node)
  | .lock l m, .go, s => ((s.locks l).acquire m).map fun x => ((), s.setLock l x)
  | .unlock l m, .go, s => some ((), s.setLock l ((s.locks l).release m))
  | .request c, .go, s =>
      some (.ok s.sent.length, { s with
        sent := s.sent ++ [c]
        tasks := s.tasks ++ [.serve s.sent.length c] })
  | .reply n, .go, s => (s.replies.find? fun a => a.1 = n).map fun a => (a.2, s)
  | .respond n o, .go, s => some ((), { s with replies := s.replies ++ [(n, o)] })
  | .access, .go, s | .server _, .go, s | .createDefault _, .go, s =>
      some (.ok (), s)
  | .owned, .answer b, s => some (b, s)
  | .polled, .go, s => some (none, s)
  | .polled, .settled o, s => some (some o, s)
  | .connect p, .go, s =>
      if p ∈ s.issued then none else some (.ok (), { s with issued := p :: s.issued })
  | .setUuid p, .go, s => some ((), { s with uuids := Function.update s.uuids p (some p) })
  | .uuid p, .go, s => some (s.uuids p, s)
  | .recv p, .go, s => if s.stopping p then some ((), s) else none
  | .hypervisor name, .go, s => some (s.inner.client name, s)
  | .insertHypervisor name p, .go, s =>
      some ((), { s with inner := { s.inner with
        hypervisors := s.inner.hypervisors.put (name, p) } })
  | .removeHypervisor name, .go, s =>
      some ((), { s with inner := { s.inner with
        hypervisors := s.inner.hypervisors.erase name } })
  | .hypervisors, .keys l, s =>
      if l.Perm (s.inner.hypervisors.rows.map Prod.fst) then some (l, s) else none
  | .networking, .go, s => some (s.inner.networking, s)
  | .setNetworking c, .go, s => some ((), { s with inner := { s.inner with networking := c } })
  | .getPlugin p, .go, s => some (single (s.plugins.select (· = p)), s)
  | .addPlugin info, .go, s => some (.ok (), { s with plugins := s.plugins.put info })
  | .removePlugin p, .go, s => some (.ok (), { s with plugins := s.plugins.erase p })
  | .spawn p, .go, s => some ((), { s with tasks := s.tasks ++ [.defaultNetwork p] })
  | .verifyServer _, .answer b, s => some (.ok b, s)
  | .addNodeStatus st, .go, s => some (.ok (), { s with globalStatus := some st })
  | .localAddNodeStatus st, .go, s => some (.ok (), { s with localStatus := some st })
  | .answered q o, .go, s => some ((), { s with served := s.served ++ [(q, o)] })
  | .reply _, .fault e, s | .access, .fault e, s | .connect _, .fault e, s
  | .server _, .fault e, s | .createDefault _, .fault e, s | .addPlugin _, .fault e, s
  | .removePlugin _, .fault e, s | .addNodeStatus _, .fault e, s
  | .localAddNodeStatus _, .fault e, s => some (.error e, s)
  | .request _, .fault e, s => some (.error e, s)
  | .getPlugin _, .fault e, s => some (.error e, s)
  | .verifyServer _, .fault e, s => some (.error e, s)
  | _, _, _ => none

variable {α : Type}

def issue (c : Op) : Act c.Ans := Prog.issue c

def fail (e : FError) : Act α := .err (.err e)

/-- The operator `?`. -/
def tried (o : Except FError α) : Act α := .final (o.mapError .err)

def unwrapped (o : Except FError α) : Act α := .final (o.mapError fun _ => .panic)

def unwrap : Option α → Act α
  | some a => pure a
  | none => .err .panic

/-- `Option::ok_or(e)?`. -/
def okOr (e : FError) : Option α → Act α
  | some a => pure a
  | none => fail e

/-- The guard is dropped however the block ends. -/
def guarded (l : Lock) (m : Mode) (b : Act α) : Act α := do
  issue (.lock l m)
  let o ← b.attempt
  issue (.unlock l m)
  .final o

/-- A remote call: the request, then the wait for the reply. -/
def remote (c : Call) : Act Unit := do
  let n ← tried (← issue (.request c))
  tried (← issue (.reply n))

/-- What a server does for a request; one that panics does not answer. -/
def responding (n : ℕ) (b : Act α) : Act Unit := do
  let o ← b.attempt
  match o with
  | .ok _ => issue (.respond n (.ok ()))
  | .error (.err e) => issue (.respond n (.error e))
  | .error .panic => .err .panic

/-! ### The agent -/

def serving (q : RegistryCall) (b : Act Uuid) : Act Uuid :=
  guarded .agent .write do
    let o ← b.attempt
    match o with
    | .ok u => issue (.answered q (.ok u))
    | .error (.err e) => issue (.answered q (.error e))
    | .error .panic => pure ()
    .final o

def registerPlugin (pluginUuid : Uuid) (kind : PluginKind) : Act Uuid :=
  serving (.register pluginUuid kind) <|
    match kind with
    | .hypervisor hv => do
        match ← issue (.hypervisor hv) with
        | some _ => fail .alreadyPresent
        | none => do
            issue (.insertHypervisor hv pluginUuid)
            tried (← issue (.addPlugin ⟨pluginUuid, kind, kind.display ++ "Plugin"⟩))
            pure pluginUuid
    | .networking => do
        match ← issue .networking with
        | some _ => fail .alreadyPresent
        | none => do
            issue (.spawn pluginUuid)
            issue (.setNetworking (some pluginUuid))
            tried (← issue (.addPlugin ⟨pluginUuid, kind, kind.display ++ "Plugin"⟩))
            pure pluginUuid
    | _ => fail (.unknownError "Not yet...")

def unregisterPlugin (pluginUuid : Uuid) : Act Uuid :=
  serving (.unregister pluginUuid) do
    let plInfo ← tried (← issue (.getPlugin pluginUuid))
    match plInfo.kind with
    | .hypervisor hv => do
        issue (.removeHypervisor hv)
        tried (← issue (.removePlugin pluginUuid))
        pure pluginUuid
    | .networking => do
        issue (.setNetworking none)
        tried (← issue (.removePlugin pluginUuid))
        pure pluginUuid
    | _ => fail .unimplemented

/-- The task that `register_plugin` spawns for a networking plugin. -/
def defaultNetwork (p : Uuid) : Act Unit := do
  if ← unwrapped (← issue (.verifyServer p)) then
    unwrapped (← issue (.createDefault p))
  else Prog.invoke (.defaultNetwork p)

/-- The loop of `monitoring_hw`. Where the stop channel wins the race in the middle of a round,
the guard is dropped, as when a put fails. -/
def monitoring : Act Unit := do
  guarded .agent .read do
    let hvs ← issue .hypervisors
    let nodeStatus := NodeStatus.report (← issue .networking) hvs
    unwrapped (← issue (.addNodeStatus nodeStatus))
    unwrapped (← issue (.localAddNodeStatus nodeStatus))
  Prog.invoke .monitoring

def getLocalMgmtInterface : Act Unit := guarded .agent .read (pure ())

def poll : Act Unit := do
  match ← issue .polled with
  | some o => tried o
  | none => Prog.invoke .poll

def plugin (name : String) : Act Uuid := do
  okOr .notFound (← issue (.hypervisor name))

/-- A call on an instance goes to the plugin, or to the agent of the node that owns it. -/
def dispatch (name : String) (work : Uuid → Act Unit) : Act Unit :=
  guarded .agent .read do
    tried (← issue .access)
    if ← issue .owned then
      tried (← issue .access)
      work (← plugin name)
    else tried (← issue .access)

def define (name : String) : Act Unit :=
  guarded .agent .read do
    tried (← issue .access)
    let p ← plugin name
    remote (.transition p)
    Prog.invoke .poll

/-- `configure_fdu`, `start_fdu`, `stop_fdu` and `clean_fdu`. -/
def move (name : String) : Act Unit :=
  dispatch name fun p => do
    remote (.transition p)
    Prog.invoke .poll

def undefine (name : String) : Act Unit :=
  dispatch name fun p => do
    remote (.transition p)
    tried (← issue .access)

/-- The plugin takes no lock to tell the status. -/
def status (name : String) : Act Unit :=
  guarded .agent .read do
    tried (← issue .access)
    let _ ← plugin name
    tried (← issue .access)

/-! ### The plugins -/

/-- What the plugin does for a call: checks before its lock, and the work under it. -/
def transition (p : Uuid) : Act Unit := do
  tried (← issue .access)
  guarded (.plugin p) .write do
    tried (← issue .access)

/-- A call to the agent whose argument is read under the plugin's own lock: the guard is a
temporary of the statement, and is dropped at its end. -/
def report (p : Uuid) (call : Uuid → RegistryCall) : Act Unit :=
  guarded (.plugin p) .read do
    let uuid ← unwrap (← issue (.uuid p))
    let o ← (remote (.registry (call uuid))).attempt
    match o with
    | .ok _ => pure ()
    | .error _ => .err .panic

/-- `run` of a plugin process, until Ctrl-C. -/
def run (kind : PluginKind) (p : Uuid) : Act Unit := do
  unwrapped (← issue (.connect p))
  unwrapped (← issue (.server .init))
  guarded (.plugin p) .write (issue (.setUuid p))
  report p fun uuid => .register uuid kind
  unwrapped (← issue (.server .register))
  unwrapped (← issue (.server .start))
  issue (.recv p)
  report p .unregister
  unwrapped (← issue (.server .stop))
  unwrapped (← issue (.server .unregister))
  unwrapped (← issue (.server .disconnect))

def serve (n : ℕ) : Call → Act Unit
  | .registry (.register p kind) => responding n (registerPlugin p kind)
  | .registry (.unregister p) => responding n (unregisterPlugin p)
  | .transition p => responding n (transition p)

def body : (p : Proc) → Act p.Ret
  | .define name => define name
  | .move name => move name
  | .undefine name => undefine name
  | .status name => status name
  | .poll => poll
  | .getLocalMgmtInterface => getLocalMgmtInterface
  | .monitoring => monitoring
  | .plugin kind p => run kind p
  | .defaultNetwork p => defaultNetwork p
  | .serve n c => serve n c

/-- Start the task that was spawned, or the service that was asked for, first. -/
def launch (s : Node) : Option (Proc × Node) :=
  match s.tasks with
  | [] => none
  | p :: tasks => some (p, { s with tasks })

/-- The moves of the environment are Ctrl-C to a plugin process. -/
def machine : Machine Op.Ans Proc.Ret Exn Chance Uuid Node where
  exec := exec
  move p s := some { s with stopping := Function.update s.stopping p true }
  body := body
  launch := launch

abbrev Threads := Pool Op.Ans Proc.Ret Exn Node

end Fog05.Processes
