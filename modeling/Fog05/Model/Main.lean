import Fog05.Conc.Pool
import Fog05.Model.Node
import Fog05.Model.Store

/-! The life of an agent: `run`, which `start` spawns, and `stop`. In `run` the monitoring
loop races with the stop channel; the channel is looked at only when the loop has to wait. -/

namespace Fog05.Main

open Conc

inductive Interface
  | agentPlugin
  | os
  | agentOrchestrator

inductive ServerCall
  | connect
  | init
  | register
  | start
  | stop
  | unregister
  | disconnect

inductive Op
  | newServer (i : Interface)
  | server (i : Interface) (call : ServerCall)
  | setInstanceUuid (instanceUuid : Uuid)
  | instanceUuid
  | sysinfo
  | addNodeInfo (nodeInfo : NodeInfo)
  | addNodeStatus (nodeStatus : NodeStatus)
  | localAddNodeInfo (nodeInfo : NodeInfo)
  | localAddNodeStatus (nodeStatus : NodeStatus)
  | removeNodeInfo (nodeUuid : Uuid)
  | removeNodeStatus (nodeUuid : Uuid)
  | monitoringFdus
  | await
  | sleep
  | send
  | dropReceiver

/-- `await` and `sleep` tell whether the race is over, `send` whether there is a receiver,
and `sysinfo` fails on a name that is not UTF-8. -/
def Op.Ans : Op → Type
  | newServer _ => Uuid
  | instanceUuid => Option Uuid
  | sysinfo => Option Sysinfo
  | server _ _ | addNodeInfo _ | addNodeStatus _ | localAddNodeInfo _ | localAddNodeStatus _
  | removeNodeInfo _ | removeNodeStatus _ => Except FError Unit
  | await | sleep => Bool
  | send => Option Unit
  | setInstanceUuid _ | monitoringFdus | dropReceiver => Unit

inductive Proc
  | run
  | stop
  | monitoring
  deriving DecidableEq

def Proc.Ret : Proc → Type := fun _ => Unit

/-- The stores, what `AgentInner` knows of the agent itself, whether the task that copies
the instances has been spawned, and the stop channel. -/
structure Life extends Store where
  localNodes : Table NodeInfo.uuid
  localNodesStatus : Table NodeStatus.uuid
  instanceUuid : Option Uuid
  copying : Bool
  sent : Bool
  closed : Bool

/-- What resolves an operation: nothing, a failure, what the system reports, or a future
that is still pending when it is polled. -/
inductive Chance
  | go
  | fault (e : FError)
  | uuid (u : Uuid)
  | reading (system : Option Sysinfo)
  | pending

/-- The channel holds one message. A future that is pending leaves the race to the
channel, and is polled again until one of the two is ready. -/
def exec : (c : Op) → Chance → Life → Option (c.Ans × Life)
  | .newServer _, .uuid u, s => some (u, s)
  | .server _ _, .go, s => some (.ok (), s)
  | .setInstanceUuid u, .go, s => some ((), { s with instanceUuid := some u })
  | .instanceUuid, .go, s => some (s.instanceUuid, s)
  | .sysinfo, .reading system, s => some (system, s)
  | .addNodeInfo i, .go, s =>
      some (.ok (), { s with global := { s.global with nodes := s.global.nodes.put i } })
  | .addNodeStatus i, .go, s =>
      some (.ok (), { s with global := { s.global with nodesStatus := s.global.nodesStatus.put i } })
  | .localAddNodeInfo i, .go, s => some (.ok (), { s with localNodes := s.localNodes.put i })
  | .localAddNodeStatus i, .go, s =>
      some (.ok (), { s with localNodesStatus := s.localNodesStatus.put i })
  | .removeNodeInfo n, .go, s =>
      some (.ok (), { s with global := { s.global with nodes := s.global.nodes.erase n } })
  | .removeNodeStatus n, .go, s =>
      some (.ok (), { s with global := { s.global with nodesStatus := s.global.nodesStatus.erase n } })
  | .server _ _, .fault e, s | .addNodeInfo _, .fault e, s | .addNodeStatus _, .fault e, s
  | .localAddNodeInfo _, .fault e, s | .localAddNodeStatus _, .fault e, s
  | .removeNodeInfo _, .fault e, s | .removeNodeStatus _, .fault e, s => some (.error e, s)
  | .monitoringFdus, .go, s => some ((), { s with copying := true })
  | .await, .go, s => some (false, s)
  | .await, .pending, s => if s.sent then some (true, { s with sent := false }) else none
  | .sleep, .go, s => some (s.sent, { s with sent := false })
  | .send, .go, s =>
      if s.closed then some (none, s)
      else if s.sent then none
      else some (some (), { s with sent := true })
  | .dropReceiver, .go, s => some ((), { s with closed := true })
  | _, _, _ => none

abbrev Act (α : Type) := Prog Op.Ans Proc.Ret Exn α

def issue (c : Op) : Act c.Ans := Prog.issue c

/-- The operator `?`. -/
def tried : Except FError Unit → Act Unit
  | .ok () => pure ()
  | .error e => .err (.err e)

def unwrapped : Except FError Unit → Act Unit
  | .ok () => pure ()
  | .error _ => .err .panic

def unwrap {α : Type} : Option α → Act α
  | some a => pure a
  | none => .err .panic

section Agent

variable (nodeUuid : Uuid) (arch : String)

/-- `get_.._server`, and the calls up to `register`; the uuid of the server. -/
def register (i : Interface) : Act Uuid := do
  let u ← issue (.newServer i)
  tried (← issue (.server i .connect))
  tried (← issue (.server i .init))
  tried (← issue (.server i .register))
  pure u

def takeDown (i : Interface) : Act Unit := do
  tried (← issue (.server i .stop))
  tried (← issue (.server i .unregister))
  tried (← issue (.server i .disconnect))

def advertise : Act Unit := do
  let system ← unwrap (← issue .sysinfo)
  let instanceUuid ← unwrap (← issue .instanceUuid)
  let ni := system.nodeInfo nodeUuid arch instanceUuid
  unwrapped (← issue (.addNodeInfo ni))
  unwrapped (← issue (.localAddNodeInfo ni))

/-- Wait, and go on unless the stop channel has won the race meanwhile. -/
def racing (wait : Act Bool) (rest : Act Unit) : Act Unit := do
  let ended ← wait
  if ended then pure () else rest

/-- `.await.unwrap()` on a put: it may wait before the put, and after it. -/
def putting (put : Act (Except FError Unit)) (rest : Act Unit) : Act Unit :=
  racing (issue .await) do
    unwrapped (← put)
    racing (issue .await) rest

def monitoring : Act Unit :=
  racing (issue .await) do
    let system ← unwrap (← issue .sysinfo)
    let nodeStatus := system.nodeStatus nodeUuid
    putting (issue (.addNodeStatus nodeStatus)) <|
      putting (issue (.localAddNodeStatus nodeStatus)) <|
        racing (issue .sleep) <| racing (issue .await) <| Prog.invoke Proc.monitoring

def mainLoop : Act Unit := do
  let _ ← register .agentPlugin
  let _ ← register .os
  let instanceUuid ← register .agentOrchestrator
  issue (.setInstanceUuid instanceUuid)
  tried (← issue (.server .agentPlugin .start))
  tried (← issue (.server .os .start))
  tried (← issue (.server .agentOrchestrator .start))
  advertise nodeUuid arch
  issue .monitoringFdus
  racing (issue .await) (Prog.invoke Proc.monitoring)
  takeDown .agentPlugin
  takeDown .os
  takeDown .agentOrchestrator

/-- The receiver of the stop channel is dropped however `run` ends. -/
def run : Act Unit := do
  let o ← (mainLoop nodeUuid arch).attempt
  issue .dropReceiver
  Prog.final o

def stop : Act Unit := do
  unwrap (← issue .send)
  unwrapped (← issue (.removeNodeStatus nodeUuid))
  unwrapped (← issue (.removeNodeInfo nodeUuid))

def body : (p : Proc) → Act p.Ret
  | .run => run nodeUuid arch
  | .stop => stop nodeUuid
  | .monitoring => monitoring nodeUuid

/-- Meanwhile the task that `run` has spawned copies instances to the global store. -/
def machine : Machine Op.Ans Proc.Ret Exn Chance Unit Life where
  exec := exec
  move _ s :=
    if s.copying then (s.toStore.monitor nodeUuid).map fun st => { s with toStore := st } else none
  body := body nodeUuid arch
  launch _ := none

abbrev Threads := Pool Op.Ans Proc.Ret Exn Life

/-- `start` has spawned `run`, and `stop` is called. -/
def started (s : Life) : Threads :=
  ⟨s, [⟨.run, run nodeUuid arch⟩, ⟨.stop, stop nodeUuid⟩], []⟩

/-- `stop` returns nothing, and `run` a `Result`; a call that panics does not return. -/
def Proc.Returns (p : Proc) (o : Except Exn p.Ret) : Prop :=
  ∀ e, o = .error e → p = .run ∧ e ≠ .panic

structure Returned (w : Threads) : Prop where
  ended : w.threads = []
  returned : ∀ x ∈ w.done, x.1.Returns x.2

end Agent

end Fog05.Main
