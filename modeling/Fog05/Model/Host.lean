import Fog05.Conc.View
import Fog05.Model.Network
import Fog05.Model.System

/-! The hypervisor plugin next to a networking plugin on the host of its node. What the
networking plugin does between two commands of the hypervisor plugin is part of the state. -/

namespace Fog05

open Conc M

/-- A networking plugin: what it keeps, and how it may serve a call of the hypervisor
plugin. -/
structure NetworkingPlugin where
  State : Type
  serve : NetRequest → State → Except FError NetObject → State → Prop

namespace DummyNetwork

variable (e : Env)

/-- What the hypervisor plugin gets to see of an object. -/
def serve : NetRequest → NetM NetObject
  | .createNetworkNamespace => do
      let netns ← createNetworkNamespace e
      pure ⟨netns.uuid, none⟩
  | .createConnectionPoint => do
      let cp ← createConnectionPoint e
      pure ⟨cp.uuid, none⟩
  | .createVirtualInterfaceInNamespace ifName netns => do
      let iface ← createVirtualInterfaceInNamespace e ⟨ifName, .veth⟩ netns
      pure ⟨iface.uuid, iface.pair?⟩
  | .bindInterfaceToConnectionPoint intf cp => do
      let iface ← bindInterfaceToConnectionPoint e intf cp
      pure ⟨iface.uuid, iface.pair?⟩
  | .moveInterfaceIntoDefaultNamespace intf => do
      let iface ← moveInterfaceIntoDefaultNamespace e intf
      pure ⟨iface.uuid, iface.pair?⟩
  | .deleteNetworkNamespace netns => do
      let netns ← deleteNetworkNamespace e netns
      pure ⟨netns.uuid, none⟩
  | .deleteVirtualInterface intf => do
      let iface ← deleteVirtualInterface e intf
      pure ⟨iface.uuid, iface.pair?⟩
  | .deleteConnectionPoint cp => do
      let uuid ← deleteConnectionPoint e cp
      pure ⟨uuid, none⟩

/-- The networking plugin of the repository, next to an agent that may fail to answer it if
`silent` holds. -/
def plugin (silent : Prop) : NetworkingPlugin where
  State := Net
  serve q m o m' := ∃ e : Env, ((∃ node, e.agent = .ok node) ∨ silent) ∧
    match DummyNetwork.serve e q m with
    | .ok x m₁ => o = .ok x ∧ m' = m₁
    | .error err m₁ => o = .error err ∧ m' = m₁

end DummyNetwork

namespace DummyHypervisor

variable (z : Session) (n p : Uuid)

def serve : (q : PluginRequest) → M q.Ret
  | .defineFdu fdu => defineFdu z n p fdu
  | .undefineFdu u => undefineFdu z n p u
  | .configureFdu u => configureFdu z n p u
  | .cleanFdu u => cleanFdu z n p u
  | .startFdu u => startFdu z n p u
  | .stopFdu u => stopFdu z n p u
  | .getFduStatus u => getFduStatus z n u

theorem call_eq_remote (q : PluginRequest) :
    call z n p q = remote z (.plugin p q) (serve z n p q) := by
  cases q <;> rfl

/-- What goes on elsewhere while a call is served: the state of the plugin, the instances of
its node and the catalog stay. -/
structure Elsewhere (s s' : Fos) : Prop where
  plugin : s'.plugin p = s.plugin p
  instances : (s'.node n).instances = (s.node n).instances
  fdus : s'.global.fdus = s.global.fdus
  issued : s.issued ⊆ s'.issued

/-- An access to the instances in the local store of a node. -/
def AtLocalStore : Access → Prop
  | .localGetInstance _ _ | .localPutInstance _ _ | .localDeleteInstance _ _ _ => True
  | _ => False

variable (N : NetworkingPlugin) (fails : Access → Prop)

def step (c : Cmd) (s : Fos × N.State) (r : c.Ans) (s' : Fos × N.State) : Prop :=
  match c, r with
  | .net _ q, r => s'.1 = s.1 ∧ N.serve q s.2 r s'.2
  | c, r => ∃ ch, (∀ a e, c = .access a → ch = .fault e → fails a) ∧
      exec c ch s.1 = some (r, s'.1) ∧ s'.2 = s.2

def host : System Cmd.Ans Proc.Ret Exn (Fos × N.State) where
  act := step N fails
  env s s' := Elsewhere n p s.1 s'.1 ∧ s'.2 = s.2
  body := body z

end DummyHypervisor

end Fog05
