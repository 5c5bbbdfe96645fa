import Fog05.Model.System

/-! The clients that bring up and take down a single instance: `instantiate_fdu` and
`delete_fdu_instance` of the REST server, which the command line makes the same way. -/

namespace Fog05

open Conc M

variable (z : Session)

/-- The agent that a client talks to, picked among the advertised ones. -/
def entryPoint : M Uuid := do
  let nodes ← ask .getAllNodes
  let entry ← issue (.choose (nodes.map fun node => node.agentServiceUuid))
  unwrap entry

/-- `instantiate_fdu`. -/
def instantiateFdu (fduUuid : Uuid) : M FDURecord := do
  let client ← entryPoint
  let _ ← ask (.getFdu fduUuid)
  let inst ← rpc z client (.scheduleFdu fduUuid)
  let _ ← rpc z client (.configureFdu inst.uuid)
  rpc z client (.startFdu inst.uuid)

/-- `delete_fdu_instance`, when its entry point is the agent serving `client`. -/
def deleteFduInstance (client instanceUuid : Uuid) : M FDURecord := do
  let _ ← ask (.getInstance instanceUuid)
  let inst ← rpc z client (.stopFdu instanceUuid)
  let _ ← rpc z client (.cleanFdu inst.uuid)
  rpc z client (.undefineFdu inst.uuid)

end Fog05
