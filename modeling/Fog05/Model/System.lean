import Fog05.Model.Agent

/-! The deployment as a machine: what serves a request, what a task runs, and
the monitoring tasks as the moves of the environment. -/

namespace Fog05

open Conc

def Task.body (z : Session) : Task → M Unit
  | .schedule nodeUuid instanceUuid inst descriptor =>
      Agent.report inst (Agent.entityScheduling z ⟨nodeUuid, instanceUuid⟩ inst descriptor)
  | .deschedule nodeUuid instanceUuid inst =>
      Agent.report inst (Agent.entityUnscheduling z ⟨nodeUuid, instanceUuid⟩ inst)

def body (z : Session) : (p : Proc) → M p.Ret
  | .agent service q =>
      match z.server service with
      | some nodeUuid => Agent.handle z ⟨nodeUuid, service⟩ q
      | none => M.fail (.zError z.noServer)
  | .poll u awaited =>
      Prog.retry (Proc.poll u awaited) (Cmd.access (.getInstance u)) (settle awaited)
  | .task t => t.body z

/-- Start the task that was spawned first; what it does interleaves with the rest. -/
def launch (s : Fos) : Option (Proc × Fos) :=
  match s.tasks with
  | [] => none
  | t :: tasks => some (.task t, { s with tasks })

theorem launch_eq_some {s s' : Fos} {p : Proc} (h : launch s = some (p, s')) :
    ∃ t ts, s.tasks = t :: ts ∧ p = .task t ∧ s' = { s with tasks := ts } := by
  unfold launch at h
  split at h
  · cases h
  · next t ts hts =>
    cases h
    exact ⟨t, ts, hts, rfl, rfl⟩

/-- The moves of the environment are rounds of the nodes' monitoring tasks. -/
def machine (z : Session) : Machine Cmd.Ans Proc.Ret Exn Choice Uuid Fos where
  exec := exec
  move n s := (s.toStore.monitor n).map fun st => { s with toStore := st }
  body := body z
  launch := launch

/-- Runs of one call or task next to the monitoring tasks only. -/
abbrev system (z : Session) (ok : Choice → Prop) : System Cmd.Ans Proc.Ret Exn Fos :=
  (machine z).system ok

abbrev Calls := Pool Cmd.Ans Proc.Ret Exn Fos

/-- A node once its agent has advertised it and its plugins have registered. -/
structure Site where
  info : NodeInfo
  status : NodeStatus
  hypervisors : String → Option Uuid

/-- A deployment of these nodes with a catalog and no instances. -/
def boot (sites : List Site) (fdus : List FDUDescriptor) (entities : List EntityDescriptor) :
    Fos where
  global := {
    fdus := fdus.foldl Table.put Table.empty
    entities := entities.foldl Table.put Table.empty
    instances := Table.empty
    entityInstances := Table.empty
    nodes := sites.foldl (fun t site => t.put site.info) Table.empty
    nodesStatus := sites.foldl (fun t site => t.put site.status) Table.empty }
  node n := {
    instances := Table.empty
    changes := []
    hypervisors := fun name =>
      (sites.find? fun site => site.info.uuid = n).bind fun site => site.hypervisors name }
  plugin _ := ⟨Table.empty, false⟩
  issued := []
  tasks := []
  writes := []
  replies := []

/-- The RPC session of such a deployment: every agent serves its service uuid. -/
def Site.session (sites : List Site) : Session where
  server service :=
    (sites.find? fun site => site.info.agentServiceUuid = service).map fun site => site.info.uuid
  noServer := "no server"
  noReply := "no reply"

end Fog05
