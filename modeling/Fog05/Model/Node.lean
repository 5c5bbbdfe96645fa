import Fog05.Model.Im

/-! What an agent publishes about its node: `advertise` once at start-up, and the
monitoring loop in every round, from what the operating system reports then. -/

namespace Fog05

/-- A disk as `sysinfo` reports it, the space in bytes. -/
structure SysDisk where
  mountPoint : String
  availableSpace : ℕ

/-- A reading of `sysinfo` and `pnet`: the frequencies of the processors, the free memory
in KiB, the disks, the networks, and the names of the interfaces. -/
structure Sysinfo where
  processors : List ℕ
  freeMemory : ℕ
  disks : List SysDisk
  networks : List String
  interfaces : List String

namespace Sysinfo

variable (system : Sysinfo) (nodeUuid : Uuid)

/-- The record that `advertise` puts. -/
def nodeInfo (arch : String) (agentServiceUuid : Uuid) : NodeInfo where
  uuid := nodeUuid
  cpu := system.processors.map fun frequency => ⟨frequency, arch⟩
  agentServiceUuid := agentServiceUuid

/-- The record that a round of the monitoring loop puts; interfaces without a network
of their name are left out. -/
def nodeStatus : NodeStatus where
  uuid := nodeUuid
  ram := ⟨(system.freeMemory : ℚ) / 1024⟩
  disk := system.disks.map fun disk =>
    ⟨disk.mountPoint, (disk.availableSpace : ℚ) / 1024 / 1024⟩
  interfaces := (system.interfaces.filter fun name => name ∈ system.networks).map fun name => ⟨name⟩

end Sysinfo

end Fog05
