import Fog05.Conc.Talk
import Fog05.Model.Node
import Fog05.Proofs.Boot
import Fog05.Proofs.Footprint
import Mathlib.Algebra.Order.Field.Rat
import Mathlib.Tactic.Ring
import Mathlib.Tactic.NormNum
import Mathlib.Data.Rat.Cast.Order

/-! When a node is compatible with an FDU: what `check_fdu_compatibility` makes of the
descriptor and of what the node has published about itself. -/

namespace Fog05

open Conc M

/-- The interface is to be attached to one of the node. -/
def Interface.OnNode (x : Interface) : Prop :=
  x.virtualInterface.vifKind = .bridged ∨ x.virtualInterface.vifKind = .physical

/-- The node has the interface's parent, or any interface if none is named. -/
def Interface.Met (nodeInterfaces : List NetworkInterfaceStatus) (x : Interface) : Prop :=
  match x.virtualInterface.parent with
  | some parent => ∃ y ∈ nodeInterfaces, y.name = parent
  | none => nodeInterfaces ≠ []

section Faces

variable {l l' : List Interface} {ns : List NetworkInterfaceStatus} {x y : Interface}

def Interface.onNode (x : Interface) : Bool :=
  match x.virtualInterface.vifKind with
  | .bridged | .physical => true
  | _ => false

theorem onNode_iff : x.onNode = true ↔ x.OnNode := by
  unfold Interface.onNode Interface.OnNode
  cases x.virtualInterface.vifKind <;> simp

def Interface.met (ns : List NetworkInterfaceStatus) (x : Interface) : Bool :=
  (ns.map (·.name)).any fun y => y = x.virtualInterface.parent.getD y

theorem met_iff : x.met ns = true ↔ x.Met ns := by
  unfold Interface.met Interface.Met
  cases x.virtualInterface.parent with
  | none => cases ns <;> simp
  | some parent => simp

/-- A fold that drops its accumulator keeps the answer for the last element only. -/
theorem foldl_last {α β : Type} (g : α → β) (b : β) (l : List α) (x : α) :
    (l ++ [x]).foldl (fun _ y => g y) b = g x := by
  simp

theorem faces_eq : Agent.faces l ns = (l.filter Interface.onNode).foldl (fun _ x => x.met ns) true := by
  unfold Agent.faces
  dsimp only
  split
  · next h =>
    have hnil : l.filter Interface.onNode = [] := h
    rw [hnil]
    rfl
  · rfl

theorem faces_of_nil (h : ∀ x ∈ l, ¬ x.OnNode) : Agent.faces l ns = true := by
  have hnil : l.filter Interface.onNode = [] := List.filter_eq_nil_iff.2 fun x hx => by
    rw [onNode_iff]
    exact h x hx
  rw [faces_eq, hnil]
  rfl

/-- The last interface that is to be attached decides. -/
theorem faces_of_last (hl : l.filter Interface.onNode = l' ++ [x]) :
    Agent.faces l ns = true ↔ x.Met ns := by
  rw [faces_eq, hl, foldl_last, met_iff]

theorem faces_of_agree {b : Prop} (h : ∀ x ∈ l, x.OnNode → (x.Met ns ↔ b)) :
    Agent.faces l ns = true ↔ (∃ x ∈ l, x.OnNode) → b := by
  rcases List.eq_nil_or_concat (l.filter Interface.onNode) with hnil | ⟨l', x, hl⟩
  · have hnone : ∀ x ∈ l, ¬ x.OnNode := fun x hx hon =>
      List.filter_eq_nil_iff.1 hnil x hx (onNode_iff.2 hon)
    rw [faces_of_nil hnone]
    exact ⟨fun _ ⟨x, hx, hon⟩ => absurd hon (hnone x hx), fun _ => rfl⟩
  · have hx : x ∈ l.filter Interface.onNode := hl ▸ by simp
    obtain ⟨hmem, hon⟩ := List.mem_filter.1 hx
    have hon := onNode_iff.1 hon
    rw [faces_of_last (List.concat_eq_append ▸ hl), h x hmem hon]
    exact ⟨fun hb _ => hb, fun hb => hb ⟨x, hmem, hon⟩⟩

theorem exists_perm_last (hx : x ∈ l) : ∃ l₁, (l₁ ++ [x]).Perm l := by
  obtain ⟨s, t, rfl⟩ := List.append_of_mem hx
  refine ⟨s ++ t, ?_⟩
  have hswap : (t ++ [x]).Perm (x :: t) := List.perm_append_comm
  rw [List.append_assoc]
  exact hswap.append_left s

/-- The answer is that for all interfaces, and the same in every order, if and only if
they are all met or none is. -/
theorem faces_iff : ((Agent.faces l ns = true ↔ ∀ x ∈ l, x.OnNode → x.Met ns) ∧
      ∀ l', l'.Perm l → Agent.faces l' ns = Agent.faces l ns) ↔
    (∀ x ∈ l, x.OnNode → x.Met ns) ∨ ∀ x ∈ l, x.OnNode → ¬ x.Met ns := by
  constructor
  · rintro ⟨hall, horder⟩
    by_contra hmixed
    obtain ⟨hunmet, hmet⟩ := not_or.1 hmixed
    have hfalse : Agent.faces l ns ≠ true := fun h => hunmet (hall.1 h)
    -- the one that is met comes last
    obtain ⟨x, hx⟩ := not_forall.1 hmet
    obtain ⟨hmem, hx⟩ := Classical.not_imp.1 hx
    obtain ⟨hon, hx⟩ := Classical.not_imp.1 hx
    obtain ⟨l₁, hperm⟩ := exists_perm_last hmem
    have hlast : (l₁ ++ [x]).filter Interface.onNode = l₁.filter Interface.onNode ++ [x] := by
      simp [onNode_iff.2 hon]
    exact hfalse (horder _ hperm ▸ (faces_of_last hlast).2 (not_not.1 hx))
  · -- then the order makes no difference
    have hsame : ∀ {b : Prop}, (∀ x ∈ l, x.OnNode → (x.Met ns ↔ b)) →
        ∀ l', l'.Perm l → Agent.faces l' ns = Agent.faces l ns := by
      intro b h l' hperm
      rw [Bool.eq_iff_iff, faces_of_agree h, faces_of_agree fun x hx => h x (hperm.mem_iff.1 hx)]
      simp only [hperm.mem_iff]
    rintro (h | h)
    · have hb : ∀ x ∈ l, x.OnNode → (x.Met ns ↔ True) := fun x hx hon => iff_true_intro (h x hx hon)
      exact ⟨iff_of_true ((faces_of_agree hb).2 fun _ => trivial) h, hsame hb⟩
    · have hb : ∀ x ∈ l, x.OnNode → (x.Met ns ↔ False) := fun x hx hon => iff_false_intro (h x hx hon)
      refine ⟨(faces_of_agree hb).trans ⟨fun hnone x hx hon => (hnone ⟨x, hx, hon⟩).elim, ?_⟩, hsame hb⟩
      rintro hall ⟨x, hx, hon⟩
      exact h x hx hon (hall x hx hon)

/-- A bridged interface on this parent. -/
def Interface.bridged (parent : String) : Interface where
  name := "eth0"
  kind := .virtual
  macAddress := none
  virtualInterface := ⟨.bridged, some parent⟩
  cpId := none

/-- The node has the second interface's parent only. -/
theorem first_face_ignored : ∃ l ns, Agent.faces l ns = true ∧ ∃ x ∈ l, x.OnNode ∧ ¬ x.Met ns := by
  refine ⟨[.bridged "br0", .bridged "br1"], [⟨"br1"⟩], by decide, .bridged "br0",
    List.mem_cons_self, Or.inl rfl, ?_⟩
  rintro ⟨y, hy, hname⟩
  obtain rfl := List.mem_singleton.1 hy
  exact absurd hname (by decide)

end Faces

def ramSize (requirements : ComputationalRequirements) (status : NodeStatus) : Bool :=
  decide ((requirements.ramSizeMb : ℚ) ≤ status.ram.free)

/-- The disk condition; there is none without a disk mounted at `/`. -/
def diskSize (requirements : ComputationalRequirements) (status : NodeStatus) : Option Bool :=
  (status.disk.find? fun x => x.mountPoint = "/").map fun disk =>
    decide ((requirements.storageSizeMb : ℚ) ≤ disk.free * 1024)

/-- The conditions on the processors; there are none without a first one. -/
def cpuFits (requirements : ComputationalRequirements) (info : NodeInfo) : Option Bool :=
  info.cpu.head?.map fun cpu => decide (cpu.arch = requirements.cpuArch) &&
    decide (requirements.cpuMinCount ≤ info.cpu.length % 256) &&
      decide (requirements.cpuMinFreq ≤ cpu.frequency)

/-- What `check_fdu_compatibility` answers, given what it has read. -/
def verdict (d : FDUDescriptor) (info : NodeInfo) (status : NodeStatus) (hasPlugin image : Bool) :
    Except Exn Bool :=
  match cpuFits d.computationRequirements info, diskSize d.computationRequirements status with
  | some cpu, some disk => .ok (hasPlugin && cpu && ramSize d.computationRequirements status && disk &&
      image && Agent.faces d.interfaces status.interfaces)
  | _, _ => .error .panic

/-- The rest of `check_fdu_compatibility` once it has read the stores. -/
def judge (d : FDUDescriptor) (info : NodeInfo) (status : NodeStatus) (plugin : Option Uuid) : M Bool :=
  match cpuFits d.computationRequirements info, diskSize d.computationRequirements status with
  | some _, some _ => do
      let image ← Agent.imageExists d.image
      .final (verdict d info status plugin.isSome image)
  | _, _ => .err .panic

theorem checkFduCompatibility_eq (a : Agent) (f : Uuid) : Agent.checkFduCompatibility a f = (do
    let d ← ask (.getFdu f)
    let info ← ask (.getNodeInfo a.nodeUuid)
    let status ← ask (.getNodeStatus a.nodeUuid)
    let plugin ← issue (.hypervisor a.nodeUuid d.hypervisor)
    judge d info status plugin) := by
  refine congrArg (ask _ >>= ·) (funext fun d => congrArg (ask _ >>= ·) (funext fun info =>
    congrArg (ask _ >>= ·) (funext fun status => congrArg (issue _ >>= ·) (funext fun plugin => ?_))))
  cases hcpu : info.cpu.head? with
  | none => simp [judge, cpuFits, hcpu]
  | some cpu =>
    cases hdisk : status.disk.find? fun x => x.mountPoint = "/" with
    | none => simp [judge, cpuFits, diskSize, hcpu, hdisk]
    | some disk =>
      simp only [judge, cpuFits, diskSize, hcpu, hdisk, unwrap_some_bind, Option.map_some, verdict,
        ramSize, Bool.and_assoc]
      rfl

section Talks

variable {α : Type} {a : Agent} {f : Uuid} {l : List (Exchange Cmd.Ans Proc.Ret Exn)}
  {d : FDUDescriptor} {info : NodeInfo} {status : NodeStatus} {plugin : Option Uuid} {image : Option Image}

theorem talks_access {c : Access} {o : Except Exn c.Ret} :
    (ask c).Talks l o ↔ ∃ r, l = [.act (.access c) r] ∧ o = r.mapError .err := by
  constructor
  · intro h
    obtain ⟨r, l', rfl, hend⟩ := Prog.talks_act.1 h
    obtain ⟨rfl, rfl⟩ := Prog.talks_final.1 hend
    exact ⟨r, rfl, rfl⟩
  · rintro ⟨r, rfl, rfl⟩
    exact .act (Prog.talks_final.2 ⟨rfl, rfl⟩)

theorem talks_ask {c : Access} {k : c.Ret → M α} {o : Except Exn α} :
    (ask c >>= k).Talks l o ↔ (∃ e, l = [.act (.access c) (.error e)] ∧ o = .error (.err e)) ∨
      ∃ x l', l = .act (.access c) (.ok x) :: l' ∧ (k x).Talks l' o := by
  constructor
  · intro h
    obtain ⟨r, l', rfl, hk⟩ := Prog.talks_act.1 h
    cases r with
    | ok x => exact Or.inr ⟨x, l', rfl, hk⟩
    | error e =>
      obtain ⟨rfl, rfl⟩ := Prog.talks_err.1 hk
      exact Or.inl ⟨e, rfl, rfl⟩
  · rintro (⟨e, rfl, rfl⟩ | ⟨x, l', rfl, hk⟩)
    · exact .act (.err _)
    · exact .act hk

theorem talks_issue {c : Cmd} {k : c.Ans → M α} {o : Except Exn α} :
    (issue c >>= k).Talks l o ↔ ∃ r l', l = .act c r :: l' ∧ (k r).Talks l' o :=
  Prog.talks_act

/-- Is the image there, going by these files? -/
def imageThere (files : String → Bool) : Option Image → Bool
  | none => true
  | some img =>
      if "file://".toList.isPrefixOf img.uri.toList then
        files (String.ofList (img.uri.toList.drop 7))
      else true

theorem imageExists_talks {o : Except Exn Bool} (h : (Agent.imageExists image).Talks l o) :
    ∃ files, o = .ok (imageThere files image) ∧
      ∀ files', (∀ path b, .act (.pathExists path) b ∈ l → b = files' path) →
        imageThere files' image = imageThere files image := by
  cases image with
  | none =>
    obtain ⟨-, rfl⟩ := Prog.talks_ret.1 h
    exact ⟨fun _ => true, rfl, fun _ _ => rfl⟩
  | some img =>
    unfold Agent.imageExists at h
    unfold imageThere
    dsimp only at h ⊢
    split at h
    · next hfile =>
      obtain ⟨b, l', rfl, hret⟩ := Prog.talks_act.1 h
      obtain ⟨-, rfl⟩ := Prog.talks_ret.1 hret
      refine ⟨fun _ => b, by rw [if_pos hfile], fun files' hl => ?_⟩
      rw [if_pos hfile, if_pos hfile, hl _ b List.mem_cons_self]
    · next hfile =>
      obtain ⟨-, rfl⟩ := Prog.talks_ret.1 h
      exact ⟨fun _ => true, by rw [if_neg hfile], fun _ _ => by rw [if_neg hfile, if_neg hfile]⟩

theorem judge_talks {o : Except Exn Bool} (h : (judge d info status plugin).Talks l o) :
    ∃ files, o = verdict d info status plugin.isSome (imageThere files d.image) ∧
      ∀ files', (∀ path b, .act (.pathExists path) b ∈ l → b = files' path) →
        o = verdict d info status plugin.isSome (imageThere files' d.image) := by
  unfold judge at h
  split at h
  · rcases Prog.talks_bind.1 h with ⟨e, himage, -⟩ | ⟨l₁, l₂, image, rfl, himage, hend⟩
    · obtain ⟨files, ho, -⟩ := imageExists_talks himage
      cases ho
    · obtain ⟨files, ho, hsame⟩ := imageExists_talks himage
      obtain ⟨rfl, rfl⟩ := Prog.talks_final.1 hend
      cases ho
      refine ⟨files, rfl, fun files' hl => ?_⟩
      rw [hsame files' fun path b hb => hl path b (List.mem_append_left _ hb)]
  · next hnone =>
    obtain ⟨-, rfl⟩ := Prog.talks_err.1 h
    have hpanic : ∀ image, verdict d info status plugin.isSome image = .error .panic := by
      intro image
      unfold verdict
      split
      · exact absurd ‹_› (hnone _ _ ‹_›)
      · rfl
    exact ⟨fun _ => true, (hpanic _).symm, fun _ _ => (hpanic _).symm⟩

/-- The check fails with the error of an access, or has read the descriptor, the two
records of its node and the plugin, and judges by them. -/
theorem checkFduCompatibility_talks {o : Except Exn Bool}
    (h : (Agent.checkFduCompatibility a f).Talks l o) :
    (∃ c e, (c = .getFdu f ∨ c = .getNodeInfo a.nodeUuid ∨ c = .getNodeStatus a.nodeUuid) ∧
      .act (.access c) (.error e) ∈ l ∧ o = .error (.err e)) ∨
      ∃ d info status plugin l', l = .act (.access (.getFdu f)) (.ok d) ::
        .act (.access (.getNodeInfo a.nodeUuid)) (.ok info) ::
        .act (.access (.getNodeStatus a.nodeUuid)) (.ok status) ::
        .act (.hypervisor a.nodeUuid d.hypervisor) plugin :: l' ∧
        (judge d info status plugin).Talks l' o := by
  rw [checkFduCompatibility_eq] at h
  rcases talks_ask.1 h with ⟨e, rfl, rfl⟩ | ⟨d, l₁, rfl, h₁⟩
  · exact Or.inl ⟨_, e, Or.inl rfl, List.mem_singleton_self _, rfl⟩
  rcases talks_ask.1 h₁ with ⟨e, rfl, rfl⟩ | ⟨info, l₂, rfl, h₂⟩
  · exact Or.inl ⟨_, e, Or.inr (Or.inl rfl), by simp, rfl⟩
  rcases talks_ask.1 h₂ with ⟨e, rfl, rfl⟩ | ⟨status, l₃, rfl, h₃⟩
  · exact Or.inl ⟨_, e, Or.inr (Or.inr rfl), by simp, rfl⟩
  obtain ⟨plugin, l₄, rfl, h₄⟩ := talks_issue.1 h₃
  exact Or.inr ⟨d, info, status, plugin, l₄, rfl, h₄⟩

end Talks

section Units

variable {requirements : ComputationalRequirements} {system : Sysinfo} {n : Uuid} {disk : SysDisk}

theorem ramSize_nodeStatus : ramSize requirements (system.nodeStatus n) = true ↔
    1024 * requirements.ramSizeMb ≤ system.freeMemory := by
  have hpos : (0 : ℚ) < 1024 := by norm_num
  simp only [ramSize, Sysinfo.nodeStatus, decide_eq_true_eq, le_div_iff₀ hpos]
  rw [mul_comm]
  exact_mod_cast Iff.rfl

theorem diskSize_nodeStatus (hdisk : system.disks.find? (fun x => x.mountPoint = "/") = some disk) :
    diskSize requirements (system.nodeStatus n) = some true ↔
      1024 * requirements.storageSizeMb ≤ disk.availableSpace := by
  have hfind : ((system.nodeStatus n).disk.find? fun x => x.mountPoint = "/") =
      some ⟨disk.mountPoint, (disk.availableSpace : ℚ) / 1024 / 1024⟩ := by
    rw [Sysinfo.nodeStatus, List.find?_map]
    exact congrArg (Option.map _) hdisk
  have hscale : (disk.availableSpace : ℚ) / 1024 / 1024 * 1024 = disk.availableSpace / 1024 := by ring
  have hpos : (0 : ℚ) < 1024 := by norm_num
  simp only [diskSize, hfind, Option.map_some, Option.some.injEq, decide_eq_true_eq, hscale,
    le_div_iff₀ hpos]
  rw [mul_comm]
  exact_mod_cast Iff.rfl

/-- The checker takes MiB of RAM for what they are, and for MiB of disk it takes KiB:
the two agree but for disks with room for one and not the other. -/
theorem units_agree_iff (hdisk : system.disks.find? (fun x => x.mountPoint = "/") = some disk) :
    ((ramSize requirements (system.nodeStatus n) = true ↔
        1024 * requirements.ramSizeMb ≤ system.freeMemory) ∧
      (diskSize requirements (system.nodeStatus n) = some true ↔
        1024 * 1024 * requirements.storageSizeMb ≤ disk.availableSpace)) ↔
    disk.availableSpace < 1024 * requirements.storageSizeMb ∨
      1024 * 1024 * requirements.storageSizeMb ≤ disk.availableSpace := by
  rw [diskSize_nodeStatus hdisk, and_iff_right ramSize_nodeStatus]
  omega

end Units

/-- A machine of one processor, 2 GiB of memory free and this much space on its disk. -/
def Sysinfo.small (availableSpace : ℕ) : Sysinfo where
  processors := [1000]
  freeMemory := 2 * 1024 * 1024
  disks := [⟨"/", availableSpace⟩]
  networks := ["eth0"]
  interfaces := ["eth0"]

/-- One GB of RAM and ten of disk. -/
def tenGigabytes : ComputationalRequirements where
  cpuArch := "x86_64"
  cpuMinFreq := 0
  cpuMinCount := 1
  ramSizeMb := 1024
  storageSizeMb := 10 * 1024

theorem units_agree_twenty :
    (ramSize tenGigabytes ((Sysinfo.small (20 * 1024 ^ 3)).nodeStatus 0) = true ↔
        1024 * tenGigabytes.ramSizeMb ≤ (Sysinfo.small (20 * 1024 ^ 3)).freeMemory) ∧
      (diskSize tenGigabytes ((Sysinfo.small (20 * 1024 ^ 3)).nodeStatus 0) = some true ↔
        1024 * 1024 * tenGigabytes.storageSizeMb ≤ 20 * 1024 ^ 3) := by
  have hdisk : (Sysinfo.small (20 * 1024 ^ 3)).disks.find? (fun x => x.mountPoint = "/") =
      some ⟨"/", 20 * 1024 ^ 3⟩ := rfl
  exact (units_agree_iff hdisk).2 (Or.inr (by decide))

/-- Ten MiB of space pass for ten GB. -/
theorem disk_overcommitted : ∃ (requirements : ComputationalRequirements) (system : Sysinfo)
    (disk : SysDisk),
    system.disks.find? (fun x => x.mountPoint = "/") = some disk ∧
    diskSize requirements (system.nodeStatus 0) = some true ∧
    disk.availableSpace < 1024 * 1024 * requirements.storageSizeMb :=
  ⟨tenGigabytes, .small (10 * 1024 ^ 2), ⟨"/", 10 * 1024 ^ 2⟩, rfl,
    (diskSize_nodeStatus rfl).2 (by decide), by decide⟩

/-- The node has gained resources: processors, disks and interfaces at the end of the
lists, free memory and space, hypervisors. -/
structure Site.Gains (site site' : Site) : Prop where
  cpu : site.info.cpu <+: site'.info.cpu
  ram : site.status.ram.free ≤ site'.status.ram.free
  disk : ∃ disks more, site'.status.disk = disks ++ more ∧
    List.Forall₂ (fun x x' : DiskStatus => x'.mountPoint = x.mountPoint ∧ x.free ≤ x'.free)
      site.status.disk disks
  interfaces : site.status.interfaces <+: site'.status.interfaces
  hypervisors : ∀ name p, site.hypervisors name = some p → site'.hypervisors name = some p

/-- The answers of stores with this descriptor and the records of this node, whose agent
knows its hypervisors and sees these files. -/
def Site.Tells (site : Site) (d : FDUDescriptor) (files : String → Bool) :
    Exchange Cmd.Ans Proc.Ret Exn → Prop
  | .act (.access (.getFdu _)) r => r = .ok d
  | .act (.access (.getNodeInfo _)) r => r = .ok site.info
  | .act (.access (.getNodeStatus _)) r => r = .ok site.status
  | .act (.hypervisor _ name) r => r = site.hypervisors name
  | .act (.pathExists path) r => r = files path
  | _ => True

section Gains

variable {site site' : Site} {d : FDUDescriptor} {files : String → Bool} {a : Agent} {f : Uuid}
  {l l' : List (Exchange Cmd.Ans Proc.Ret Exn)} {o : Except Exn Bool}

theorem verdict_eq_true {info : NodeInfo} {status : NodeStatus} {hasPlugin image : Bool} :
    verdict d info status hasPlugin image = .ok true ↔
      hasPlugin = true ∧ cpuFits d.computationRequirements info = some true ∧
        ramSize d.computationRequirements status = true ∧
        diskSize d.computationRequirements status = some true ∧ image = true ∧
        Agent.faces d.interfaces status.interfaces = true := by
  unfold verdict
  split
  · next cpu disk hcpu hdisk =>
    simp only [hcpu, hdisk, Except.ok.injEq, Bool.and_eq_true, Option.some.injEq]
    tauto
  · next hnone =>
    refine ⟨nofun, fun ⟨_, hcpu, _, hdisk, _⟩ => absurd hdisk (hnone _ _ hcpu)⟩

theorem check_told (h : (Agent.checkFduCompatibility a f).Talks l o)
    (hl : ∀ x ∈ l, site.Tells d files x) :
    o = verdict d site.info site.status (site.hypervisors d.hypervisor).isSome
      (imageThere files d.image) := by
  rcases checkFduCompatibility_talks h with
    ⟨c, e, rfl | rfl | rfl, hmem, -⟩ | ⟨d', info, status, plugin, l', rfl, hjudge⟩
  · cases hl _ hmem
  · cases hl _ hmem
  · cases hl _ hmem
  · obtain rfl : d' = d := Except.ok.inj (hl (.act (.access (.getFdu f)) (.ok d')) (by simp))
    obtain rfl : info = site.info :=
      Except.ok.inj (hl (.act (.access (.getNodeInfo a.nodeUuid)) (.ok info)) (by simp))
    obtain rfl : status = site.status :=
      Except.ok.inj (hl (.act (.access (.getNodeStatus a.nodeUuid)) (.ok status)) (by simp))
    obtain rfl : plugin = site.hypervisors d'.hypervisor :=
      hl (.act (.hypervisor a.nodeUuid d'.hypervisor) plugin) (by simp)
    obtain ⟨-, -, hfiles⟩ := judge_talks hjudge
    exact hfiles files fun path b hmem => hl (.act (.pathExists path) b) (by simp [hmem])

theorem cpuFits_gains (h : site.Gains site') (hcpu : cpuFits d.computationRequirements site.info = some true) :
    cpuFits d.computationRequirements site'.info = some true ↔
      d.computationRequirements.cpuMinCount ≤ site'.info.cpu.length % 256 := by
  obtain ⟨more, hmore⟩ := h.cpu
  cases hl : site.info.cpu with
  | nil => simp [cpuFits, hl] at hcpu
  | cons cpu cpus =>
    have hhead : site'.info.cpu.head? = some cpu := by rw [← hmore, hl]; rfl
    simp only [cpuFits, hl, List.head?_cons, Option.map_some, Option.some.injEq, Bool.and_eq_true,
      decide_eq_true_eq] at hcpu
    simp only [cpuFits, hhead, Option.map_some, Option.some.injEq, Bool.and_eq_true, decide_eq_true_eq,
      hcpu.1.1, hcpu.2, true_and, and_true]

theorem ramSize_gains (h : site.Gains site') (hram : ramSize d.computationRequirements site.status = true) :
    ramSize d.computationRequirements site'.status = true := by
  simp only [ramSize, decide_eq_true_eq] at hram ⊢
  exact hram.trans h.ram

theorem find_gains (disks : List DiskStatus) {l₁ l₂ : List DiskStatus} {x : DiskStatus}
    (h : List.Forall₂ (fun x x' : DiskStatus => x'.mountPoint = x.mountPoint ∧ x.free ≤ x'.free) l₁ l₂)
    (hfind : (l₁.find? fun x => x.mountPoint = "/") = some x) :
    ∃ x', ((l₂ ++ disks).find? fun x => x.mountPoint = "/") = some x' ∧ x.free ≤ x'.free := by
  induction h with
  | nil => cases hfind
  | @cons y y' l₁ l₂ hy _ ih =>
    by_cases hroot : y.mountPoint = "/"
    · have hroot' : y'.mountPoint = "/" := hy.1.trans hroot
      simp only [List.find?_cons, hroot, decide_true] at hfind
      cases hfind
      exact ⟨y', by simp [hroot'], hy.2⟩
    · have hroot' : y'.mountPoint ≠ "/" := fun h => hroot (hy.1.symm.trans h)
      simp only [List.find?_cons, hroot, decide_false] at hfind
      obtain ⟨x', hx', hle⟩ := ih hfind
      exact ⟨x', by simpa [hroot'] using hx', hle⟩

theorem diskSize_gains (h : site.Gains site')
    (hdisk : diskSize d.computationRequirements site.status = some true) :
    diskSize d.computationRequirements site'.status = some true := by
  obtain ⟨disks, more, hmore, hall⟩ := h.disk
  obtain ⟨x, hx, hfits⟩ := Option.map_eq_some_iff.1 hdisk
  obtain ⟨x', hx', hle⟩ := find_gains more hall hx
  have hfits : (d.computationRequirements.storageSizeMb : ℚ) ≤ x.free * 1024 := of_decide_eq_true hfits
  refine Option.map_eq_some_iff.2 ⟨x', by rw [hmore]; exact hx', decide_eq_true ?_⟩
  exact hfits.trans (mul_le_mul_of_nonneg_right hle (by norm_num))

theorem met_gains {ns ns' : List NetworkInterfaceStatus} {x : Interface} (h : ns <+: ns') (hx : x.Met ns) :
    x.Met ns' := by
  unfold Interface.Met at hx ⊢
  split
  · next parent hp =>
    rw [hp] at hx
    obtain ⟨y, hy, hname⟩ := hx
    exact ⟨y, h.subset hy, hname⟩
  · next hp =>
    rw [hp] at hx
    rintro rfl
    exact hx (List.prefix_nil.1 h)

theorem faces_gains {ns ns' : List NetworkInterfaceStatus} {interfaces : List Interface} (h : ns <+: ns')
    (hfaces : Agent.faces interfaces ns = true) : Agent.faces interfaces ns' = true := by
  rcases List.eq_nil_or_concat (interfaces.filter Interface.onNode) with hnil | ⟨l', x, hl⟩
  · rw [faces_eq, hnil] at hfaces ⊢
    exact hfaces
  · rw [faces_of_last (List.concat_eq_append ▸ hl)] at hfaces ⊢
    exact met_gains h hfaces

/-- On such a node the check ends with this outcome. -/
def Site.Checks (site : Site) (d : FDUDescriptor) (files : String → Bool) (a : Agent) (f : Uuid)
    (o : Except Exn Bool) : Prop :=
  ∃ l, (Agent.checkFduCompatibility a f).Talks l o ∧ ∀ x ∈ l, site.Tells d files x

theorem exists_tells (site : Site) (d : FDUDescriptor) (files : String → Bool) (c : Cmd) :
    ∃ r, site.Tells d files (.act c r) := by
  cases c with
  | access a =>
    cases a with
    | getFdu g => exact ⟨_, rfl⟩
    | getNodeInfo n => exact ⟨_, rfl⟩
    | getNodeStatus n => exact ⟨_, rfl⟩
    | _ => exact ⟨.error .notFound, trivial⟩
  | net n q => exact ⟨.error .notFound, trivial⟩
  | hypervisor n name => exact ⟨_, rfl⟩
  | pathExists path => exact ⟨_, rfl⟩
  | newUuid => exact ⟨0, trivial⟩
  | choose ns => exact ⟨none, trivial⟩
  | _ => exact ⟨(), trivial⟩

theorem checks_iff : site.Checks d files a f o ↔
    o = verdict d site.info site.status (site.hypervisors d.hypervisor).isSome
      (imageThere files d.image) := by
  constructor
  · rintro ⟨l, h, hl⟩
    exact check_told h hl
  · rintro rfl
    obtain ⟨l, o, h, hl⟩ := Prog.exists_talk (I := site.Tells d files) (exists_tells site d files)
      (fun _ => ⟨.error .panic, trivial⟩) (Agent.checkFduCompatibility a f)
    exact ⟨l, check_told h hl ▸ h, hl⟩

/-- Resources that a node gains leave it compatible, unless the number of processors,
taken for eight bits, falls below what is required. -/
theorem compatible_gains (hgains : site.Gains site') (h : site.Checks d files a f (.ok true)) :
    site'.Checks d files a f (.ok true) ↔
      d.computationRequirements.cpuMinCount ≤ site'.info.cpu.length % 256 := by
  obtain ⟨hplugin, hcpu, hram, hdisk, himage, hfaces⟩ := verdict_eq_true.1 (checks_iff.1 h).symm
  rw [checks_iff, eq_comm, verdict_eq_true, cpuFits_gains hgains hcpu]
  have hplugin' : (site'.hypervisors d.hypervisor).isSome = true := by
    obtain ⟨p, hp⟩ := Option.isSome_iff_exists.1 hplugin
    rw [hgains.hypervisors _ p hp]
    rfl
  have hram' := ramSize_gains hgains hram
  have hdisk' := diskSize_gains hgains hdisk
  have hfaces' := faces_gains hgains.interfaces hfaces
  exact ⟨fun hv => hv.2.1, fun hcount => ⟨hplugin', hcount, hram', hdisk', himage, hfaces'⟩⟩

end Gains

/-- A descriptor that requires what the hypervisor "bare" and one processor give. -/
def bareFdu : FDUDescriptor where
  uuid := some 50
  hypervisor := "bare"
  image := none
  computationRequirements := ⟨"x86_64", 0, 1, 1024, 1024⟩
  interfaces := []
  connectionPoints := []
  others := []

/-- A node with so many processors. -/
def Site.withProcessors (n : ℕ) : Site where
  info := ⟨0, List.replicate n ⟨1000, "x86_64"⟩, 100⟩
  status := ⟨0, ⟨2048⟩, [⟨"/", 2048⟩], []⟩
  hypervisors name := if name = "bare" then some 7 else none

theorem gains_withProcessors {n m : ℕ} (h : n ≤ m) : (Site.withProcessors n).Gains (.withProcessors m) where
  cpu := ⟨List.replicate (m - n) ⟨1000, "x86_64"⟩, by
    rw [Site.withProcessors, Site.withProcessors, ← List.replicate_add, Nat.add_sub_cancel' h]⟩
  ram := le_rfl
  disk := ⟨_, [], rfl, .cons ⟨rfl, le_rfl⟩ .nil⟩
  interfaces := List.prefix_rfl
  hypervisors _ _ := id

theorem checks_withProcessors {n : ℕ} {b : Bool} (hn : n ≠ 0) (hb : b = decide (1 ≤ n % 256)) :
    (Site.withProcessors n).Checks bareFdu (fun _ => true) ⟨0, 100⟩ 50 (.ok b) := by
  obtain ⟨m, rfl⟩ := Nat.exists_eq_succ_of_ne_zero hn
  rw [checks_iff]
  have hram : (1024 : ℚ) ≤ 2048 := by norm_num
  simp [verdict, cpuFits, diskSize, ramSize, Site.withProcessors, bareFdu, List.replicate_succ,
    imageThere, Agent.faces, hb, hram]

theorem compatible_gains_two : (Site.withProcessors 2).Checks bareFdu (fun _ => true) ⟨0, 100⟩ 50 (.ok true) :=
  (compatible_gains (gains_withProcessors (by decide : 1 ≤ 2))
    (checks_withProcessors (by decide) (by decide))).2 (by decide)

/-- A 256th processor makes it none. -/
theorem processors_wrap : ∃ site site' : Site, site.Gains site' ∧
    site.Checks bareFdu (fun _ => true) ⟨0, 100⟩ 50 (.ok true) ∧
    site'.Checks bareFdu (fun _ => true) ⟨0, 100⟩ 50 (.ok false) :=
  ⟨.withProcessors 255, .withProcessors 256, gains_withProcessors (by decide),
    checks_withProcessors (by decide) (by decide), checks_withProcessors (by decide) (by decide)⟩

/-- What is answered about node `n` has been published by its agent: the `NodeInfo` when
it started, the `NodeStatus` since. -/
def Reported (n : Uuid) (atStart now : Sysinfo) : (c : Cmd) → c.Ans → Prop
  | .access (.getNodeInfo m), .ok info => m = n → ∃ arch svc, info = atStart.nodeInfo n arch svc
  | .access (.getNodeStatus m), .ok status => m = n → status = now.nodeStatus n
  | _, _ => True

/-- Anything may be done; all that is known is what node `n` has published, and that a
polling loop does not panic. -/
def Published (n : Uuid) (atStart now : Sysinfo) : Discipline Cmd.Ans Proc.Ret Exn Unit where
  allows _ _ := True
  next _ c r _ := Reported n atStart now c r
  calls _ _ := True
  back _ p o _ := ∀ u awaited, p = .poll u awaited → o ≠ .error .panic

/-- The program ends with a result or an error. -/
abbrev Survives {α : Type} (n : Uuid) (atStart now : Sysinfo) (b : M α) : Prop :=
  b.Follows (Published n atStart now) (fun o _ => o ≠ .error .panic) ()

section Survives

variable {α β : Type} {z : Session} {a : Agent} {n f : Uuid} {atStart now : Sysinfo}

theorem follows_published (b : M α) :
    b.Follows (Published n atStart now) (fun _ _ => True) () := by
  induction b with
  | ret x => trivial
  | err e => trivial
  | act c k ih => exact ⟨trivial, fun r _ _ => ih r⟩
  | call p k ih => exact ⟨trivial, fun o _ _ => ih o⟩

theorem survives_bind {b : M α} {k : α → M β} (hb : Survives n atStart now b)
    (hk : ∀ x, Survives n atStart now (k x)) : Survives n atStart now (b >>= k) :=
  follows_bind hb (fun x _ _ => hk x) fun _ _ h hpanic => h (by cases hpanic; rfl)

theorem survives_ask {c : Access} : Survives n atStart now (ask c) :=
  follows_ask trivial fun r _ _ => by cases r <;> exact nofun

theorem survives_issue {c : Cmd} : Survives n atStart now (issue c) :=
  ⟨trivial, fun _ _ _ => nofun⟩

theorem survives_okOr {e : FError} {x : Option α} : Survives n atStart now (okOr e x) := by
  cases x <;> exact nofun

theorem survives_remote {r : Rpc} {b : M r.Ret} : Survives n atStart now (remote z r b) :=
  follows_remote trivial (fun _ _ _ => (follows_published b).mono fun o _ _ => ⟨trivial, fun y _ _ => by
    cases y <;> exact nofun⟩) fun _ _ _ => nofun

theorem survives_attempt {b : M α} {k : Except Exn α → M β}
    (hk : ∀ o, Survives n atStart now (k o)) : Survives n atStart now (b.attempt >>= k) := by
  rw [Prog.attempt_bind]
  exact (Prog.follows_bindE _ _ _).2 ((follows_published b).mono fun o _ _ => hk o)

/-- The node has published a processor and a disk mounted at `/`. -/
def Sysinfo.Complete (atStart now : Sysinfo) : Prop :=
  atStart.processors ≠ [] ∧ ∃ disk ∈ now.disks, disk.mountPoint = "/"

theorem cpuFits_nodeInfo (requirements : ComputationalRequirements) {arch : String} {svc : Uuid} :
    (∃ b, cpuFits requirements (atStart.nodeInfo n arch svc) = some b) ↔ atStart.processors ≠ [] := by
  cases h : atStart.processors with
  | nil => simp [cpuFits, Sysinfo.nodeInfo, h]
  | cons x xs => simp [cpuFits, Sysinfo.nodeInfo, h]

theorem diskSize_isSome (requirements : ComputationalRequirements) :
    (∃ b, diskSize requirements (now.nodeStatus n) = some b) ↔ ∃ disk ∈ now.disks, disk.mountPoint = "/" := by
  rw [← Option.isSome_iff_exists, diskSize, Option.isSome_map, List.find?_isSome, Sysinfo.nodeStatus]
  simp

theorem judge_survives_iff {d : FDUDescriptor} {arch : String} {svc : Uuid} {plugin : Option Uuid} :
    Survives n atStart now (judge d (atStart.nodeInfo n arch svc) (now.nodeStatus n) plugin) ↔
      atStart.Complete now := by
  rw [Sysinfo.Complete, ← cpuFits_nodeInfo d.computationRequirements,
    ← diskSize_isSome d.computationRequirements]
  constructor
  · intro h
    unfold judge at h
    split at h
    · next cpu disk hcpu hdisk => exact ⟨⟨cpu, hcpu⟩, disk, hdisk⟩
    · exact absurd rfl h
  · rintro ⟨⟨cpu, hcpu⟩, disk, hdisk⟩
    have himage : Survives n atStart now (Agent.imageExists d.image) := by
      unfold Agent.imageExists
      split
      · exact nofun
      · split
        · exact survives_issue
        · exact nofun
    simp only [judge, hcpu, hdisk]
    exact survives_bind himage fun image => by simp [verdict, hcpu, hdisk]

theorem check_survives (h : atStart.Complete now) (ha : a.nodeUuid = n) :
    Survives n atStart now (Agent.checkFduCompatibility a f) := by
  subst ha
  rw [checkFduCompatibility_eq]
  apply survives_bind survives_ask
  intro d
  refine follows_ask_bind trivial (fun info _ hinfo => ?_) fun _ _ _ => nofun
  obtain ⟨arch, svc, rfl⟩ := hinfo rfl
  refine follows_ask_bind trivial (fun status _ hstatus => ?_) fun _ _ _ => nofun
  obtain rfl := hstatus rfl
  exact survives_bind survives_issue fun plugin => judge_survives_iff.2 h

theorem getCompatibleNodes_survives (h : atStart.Complete now) (ha : a.nodeUuid = n) :
    Survives n atStart now (Agent.getCompatibleNodes z a f) := by
  have hall : ∀ l, Survives n atStart now (Agent.checkAll z f l) := by
    intro l
    induction l with
    | nil => exact nofun
    | cons svc l ih => exact survives_attempt fun _ => survives_bind ih fun _ => nofun
  have hself : Survives n atStart now (Agent.selfCheck a f) := by
    refine (Prog.follows_bindE _ _ _).2 ((check_survives h ha).mono fun o _ ho => ?_)
    rcases o with (e | _) | b
    · exact nofun
    · exact absurd rfl ho
    · exact nofun
  exact survives_bind survives_ask fun _ => survives_bind (hall _) fun _ =>
    survives_bind hself fun _ => nofun

theorem scheduleFdu_survives (h : atStart.Complete now) (ha : a.nodeUuid = n) :
    Survives n atStart now (Agent.scheduleFdu z a f) := by
  refine survives_bind (getCompatibleNodes_survives h ha) fun _ => survives_bind survives_issue fun target => ?_
  have hdefine : Survives n atStart now (Agent.defineFdu z a f) :=
    survives_bind survives_ask fun _ => survives_bind survives_issue fun _ =>
      survives_bind survives_okOr fun _ => survives_bind survives_remote fun _ =>
        follows_invoke trivial fun _ _ hb => hb _ _ rfl
  cases target with
  | none => exact nofun
  | some target =>
    dsimp only
    split
    · exact hdefine
    · exact survives_remote

/-- No compatibility check on a node panics, and no scheduling by its agent, if and only
if the node has published a processor and a disk mounted at `/`. -/
theorem scheduling_survives_iff :
    ((∀ a f, a.nodeUuid = n → Survives n atStart now (Agent.checkFduCompatibility a f)) ∧
      (∀ z a f, a.nodeUuid = n → Survives n atStart now (Agent.getCompatibleNodes z a f)) ∧
      ∀ z a f, a.nodeUuid = n → Survives n atStart now (Agent.scheduleFdu z a f)) ↔
    atStart.Complete now := by
  constructor
  · rintro ⟨hcheck, -⟩
    have h := hcheck ⟨n, 100⟩ 50 rfl
    rw [checkFduCompatibility_eq] at h
    have hinfo := (h.2 (.ok bareFdu) () trivial).2 (.ok (atStart.nodeInfo n "" 100)) ()
      fun _ => ⟨"", 100, rfl⟩
    have hjudge := (hinfo.2 (.ok (now.nodeStatus n)) () fun _ => rfl).2 none () trivial
    exact judge_survives_iff.1 hjudge
  · intro h
    exact ⟨fun a f ha => check_survives h ha, fun z a f ha => getCompatibleNodes_survives h ha,
      fun z a f ha => scheduleFdu_survives h ha⟩

end Survives

/-- A machine whose only disk is mounted elsewhere. -/
def dataDisk : Sysinfo := { Sysinfo.small 0 with disks := [⟨"/data", 2 ^ 40⟩] }

/-- A node and what its agent has published about it. -/
def Site.published (n service plugin : Uuid) (system : Sysinfo) : Site where
  info := system.nodeInfo n "x86_64" service
  status := system.nodeStatus n
  hypervisors name := if name = "dummy" then some plugin else none

def panicked {α : Type} : Except Exn α → Bool
  | .error .panic => true
  | _ => false

/-- The FDU is scheduled on such a node only, and the agent panics. -/
theorem no_root_disk_panics : ∃ k s', (system (Site.session [.published 0 100 7 dataDisk]) Reliable).Runs k
    (boot [.published 0 100 7 dataDisk] [.plain 50] [])
    (Agent.scheduleFdu (Site.session [.published 0 100 7 dataDisk]) ⟨0, 100⟩ 50) s'
    (.final (.error .panic)) := by
  obtain ⟨⟨o, s'⟩, hplay, hpanic⟩ := (Option.any_eq_true _ _).1
    (show (playUsual [.published 0 100 7 dataDisk] (boot [.published 0 100 7 dataDisk] [.plain 50] [])
      (Agent.scheduleFdu (Site.session [.published 0 100 7 dataDisk]) ⟨0, 100⟩ 50)).any
        (fun x => panicked x.1) = true by decide +kernel)
  obtain ⟨k, hrun⟩ := runs_of_playUsual (fun _ => Healthy.reliable) hplay
  rcases o with (e | _) | r
  · cases hpanic
  · exact ⟨k, s', hrun⟩
  · cases hpanic

end Fog05
