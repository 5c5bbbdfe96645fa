import Fog05.Proofs.Instantiation

/-! What a descheduling does, whatever fails on the way: it only lowers FDU instances of its
record, and goes on to the catalog when one has been lowered. An instance that does not run
is not lowered again, so the descheduling ends there. -/

namespace Fog05

open Conc M

/-- The lock that a descheduling holds, and whether it knows that an FDU instance of the
record does not run. -/
structure Teardown where
  held : Option Uuid
  lowered : Prop

namespace Teardown

def after (us : List Uuid) (q : Teardown) : (c : Cmd) → c.Ans → Teardown
  | .access (.localGetInstance _ _), .ok r =>
      { q with lowered := q.lowered ∨ r.uuid ∈ us ∧ r.status ≠ .running }
  | .access (.localPutInstance _ _), .ok _ => { q with lowered := True }
  | .lock p, _ => { q with held := some p }
  | .unlock _, _ => { q with held := none }
  | _, _ => q

/-- No lock has been taken or released. -/
def Grows (q q' : Teardown) : Prop := q'.held = q.held ∧ (q.lowered → q'.lowered)

theorem Grows.refl (q : Teardown) : q.Grows q := ⟨rfl, id⟩

theorem Grows.trans {q q' q'' : Teardown} (h : q.Grows q') (h' : q'.Grows q'') : q.Grows q'' :=
  ⟨h'.1.trans h.1, h'.2 ∘ h.2⟩

theorem grows_after {c : Cmd} (h : c.Reads) (us : List Uuid) (q : Teardown) (x : c.Ans) :
    q.Grows (q.after us c x) := by
  unfold after
  split <;> first | exact h.elim | skip
  · exact ⟨rfl, Or.inl⟩
  · exact .refl q

end Teardown

/-- A record on node `n` of an instance that was there in `s₀`. -/
def FromThere (s₀ : Fos) (n : Uuid) (i : FDURecord) : Prop :=
  i.node = n ∧ ∃ j ∈ s₀.global.instances, j.path = i.path ∧ j.node = n

/-- What is read while `r₀` is descheduled: copies of instances that were there before, of
which those in `L` do not run, and a descriptor with no FDUs for a record with none. -/
def Cmd.Lawful (s₀ : Fos) (r₀ : EntityRecord) (L : Uuid → Prop) : (c : Cmd) → c.Ans → Prop
  | .access (.localGetInstance n _), .ok r =>
      (r.uuid ∈ r₀.fdus → FromThere s₀ n r) ∧ (L r.uuid → r.status ≠ .running)
  | .access (.getEntity e), .ok d => e = r₀.id → r₀.fdus = [] → d.fdus = []
  | _, _ => True

/-- The calls of a descheduling; FDUs are offloaded when an instance has been lowered. -/
def Proc.Sinks (us : List Uuid) (q : Teardown) : Proc → Prop
  | .poll _ _ => True
  | .agent _ (.stopFdu u) | .agent _ (.cleanFdu u) | .agent _ (.undefineFdu u) => u ∈ us
  | .agent _ (.offloadFdu _) => q.lowered
  | _ => False

/-- `stop_fdu` succeeds only on an instance that runs, and lowers it. -/
def Proc.Stops (L : Uuid → Prop) : (p : Proc) → Except Exn p.Ret → Teardown → Prop
  | .agent _ (.stopFdu u), .ok _, q => q.lowered ∧ ¬ L u
  | _, _, _ => True

/-- To put records of the FDU instances of `r₀` that do not run, to delete when one has been
lowered, and to write copies of `r₀`: OFFLOADED only if all its instances did run. -/
def Dismantling (s₀ : Fos) (r₀ : EntityRecord) (L : Uuid → Prop) :
    Discipline Cmd.Ans Proc.Ret Exn Teardown where
  allows q
    | .access (.localPutInstance n r) => r.uuid ∈ r₀.fdus ∧ r.status ≠ .running ∧ FromThere s₀ n r
    | .access (.localDeleteInstance _ _ _) | .access (.deleteInstance _ _)
    | .access (.deleteFdu _) => q.lowered
    | .access (.putEntityInstance i) =>
        ∃ status, i = { r₀ with status } ∧ (status = .offloaded → ∀ u ∈ r₀.fdus, ¬ L u)
    | .access (.reply _ _) | .insert _ _ | .remove _ _ => True
    | .lock _ => q.held = none
    | .unlock p => q.held = some p
    | c => c.Idle
  next q c x q' := q' = q.after r₀.fdus c x ∧ c.Honest x ∧ c.Lawful s₀ r₀ L x
  calls q p := q.held = none ∧ p.Sinks r₀.fdus q
  back q p o q' := q'.held = none ∧ (q.lowered → q'.lowered) ∧ p.Stops L o q'

section Follows

variable {α β : Type} {z : Session} {a : Agent} {n p u svc : Uuid} {s₀ : Fos} {r₀ : EntityRecord}
  {L : Uuid → Prop} {q q' : Teardown}

/-- A call that succeeds has lowered an instance, and found it where `C` says. -/
def Sunk (C : Prop) (q : Teardown) (o : Except Exn α) (q' : Teardown) : Prop :=
  q'.held = none ∧ (q.lowered → q'.lowered) ∧ ∀ x, o = .ok x → q'.lowered ∧ C

theorem Sunk.error {C : Prop} {e : Exn} (hq : q.held = none) (h : q.Grows q') :
    Sunk C q (.error e : Except Exn α) q' :=
  ⟨h.1.trans hq, h.2, fun _ hx => by cases hx⟩

theorem Stops.error {p : Proc} (e : Exn) : p.Stops L (.error e) q := by
  cases p with
  | agent svc x => cases x <;> trivial
  | _ => trivial

end Follows

/-- No copy of instance `u` says that it runs. -/
def Down (u : Uuid) (s : Fos) : Prop :=
  ∀ n, ∀ i ∈ (s.node n).instances, i.uuid = u → i.status ≠ .running

/-- Stores and catalog are as in `s₀`, entity records apart. -/
structure Untouched (s₀ s : Fos) : Prop where
  node : s.node = s₀.node
  instances : s.global.instances = s₀.global.instances
  fdus : s.global.fdus = s₀.global.fdus
  nodes : s.global.nodes = s₀.global.nodes

/-- What ties a descheduling of `r₀` that began in `s₀` to the state it has come to. -/
structure Dismantled (s₀ : Fos) (r₀ : EntityRecord) (L : Uuid → Prop) (q : Teardown) (s : Fos) :
    Prop where
  locks : ∀ p, (s.plugin p).locked = decide (q.held = some p)
  copies : ∀ n, ∀ i ∈ (s.node n).instances, i.uuid ∈ r₀.fdus → FromThere s₀ n i
  stage : Untouched s₀ s ∨ ∃ u ∈ r₀.fdus, Down u s
  lowered : q.lowered → ∃ u ∈ r₀.fdus, Down u s
  barred : ∀ u, L u → Down u s
  record : ∀ i ∈ s.global.entityInstances, i.uuid = r₀.uuid →
    ∃ status, i = { r₀ with status } ∧ (status = .offloaded → ∀ u ∈ r₀.fdus, ¬ L u)
  entities : s.global.entities = s₀.global.entities
  issued : s.issued = s₀.issued
  tasks : s.tasks = s₀.tasks

section Tie

variable {s₀ s s' : Fos} {r₀ : EntityRecord} {L : Uuid → Prop} {q q' : Teardown} {n m u : Uuid}
  {i i' r : FDURecord} {descriptor : EntityDescriptor} {st : Store}

theorem FromThere.same (hs : Settled s₀) (h : FromThere s₀ n i) (h' : FromThere s₀ m i')
    (hu : i.uuid = i'.uuid) : n = m ∧ i.path = i'.path := by
  obtain ⟨-, j, hj, hp, hn⟩ := h
  obtain ⟨-, j', hj', hp', hn'⟩ := h'
  have hju : j.uuid = j'.uuid :=
    (congrArg Prod.snd hp).trans (hu.trans (congrArg Prod.snd hp').symm)
  obtain rfl := hs.unique j hj j' hj' hju
  exact ⟨hn.symm.trans hn', hp.symm.trans hp'⟩

theorem Down.put (h : Down u s) (hst : r.status ≠ .running) :
    Down u { s with toStore := s.toStore.localPut n r } := by
  intro m i hi hu
  have hi := mem_localPut.1 hi
  split at hi
  · rcases hi with rfl | hi
    · exact hst
    · exact h n i hi.1 hu
  · exact h m i hi hu

theorem mem_localDelete {f : Uuid} (h : i ∈ ((s.toStore.localDelete n f u).node m).instances) :
    i ∈ (s.node m).instances := by
  simp only [Store.localDelete, Store.setNode, Function.update_apply] at h
  split at h
  · next hm =>
    subst hm
    exact (Table.mem_erase.1 h).1
  · exact h

namespace Dismantled

theorem down_of_read (h : Dismantled s₀ r₀ L q s) (hs : Settled s₀) (hr : r ∈ (s.node n).instances)
    (hu : r.uuid ∈ r₀.fdus) (hst : r.status ≠ .running) : Down r.uuid s := by
  intro m i hi hiu
  obtain ⟨rfl, hp⟩ := (h.copies m i hi (hiu ▸ hu)).same hs (h.copies n r hr hu) hiu
  rwa [Table.eq_of_key hi hr hp]

theorem fewer (h : Dismantled s₀ r₀ L q s)
    (hcopies : ∀ m, ∀ i ∈ (s'.node m).instances, i ∈ (s.node m).instances)
    (hstage : Untouched s₀ s → Untouched s₀ s' ∨ q.lowered)
    (hrecords : s'.global.entityInstances = s.global.entityInstances)
    (hentities : s'.global.entities = s.global.entities) (hissued : s'.issued = s.issued)
    (htasks : s'.tasks = s.tasks) (hlow : q'.lowered → q.lowered)
    (hlocks : ∀ p, (s'.plugin p).locked = decide (q'.held = some p)) :
    Dismantled s₀ r₀ L q' s' := by
  have hdown : ∀ u, Down u s → Down u s' := fun u hd m i hi => hd m i (hcopies m i hi)
  have hlater : (∃ u ∈ r₀.fdus, Down u s) → ∃ u ∈ r₀.fdus, Down u s' :=
    fun ⟨u, hu, hd⟩ => ⟨u, hu, hdown u hd⟩
  refine ⟨hlocks, fun m i hi => h.copies m i (hcopies m i hi), ?_,
    fun hl => hlater (h.lowered (hlow hl)), fun u hu => hdown u (h.barred u hu), ?_,
    hentities.trans h.entities, hissued.trans h.issued, htasks.trans h.tasks⟩
  · rcases h.stage with hu | hd
    · exact (hstage hu).imp_right fun hl => hlater (h.lowered hl)
    · exact Or.inr (hlater hd)
  · rw [hrecords]
    exact h.record

theorem same (h : Dismantled s₀ r₀ L q s) (hst : s'.toStore = s.toStore)
    (hissued : s'.issued = s.issued) (htasks : s'.tasks = s.tasks)
    (hlow : q'.lowered → q.lowered)
    (hlocks : ∀ p, (s'.plugin p).locked = decide (q'.held = some p)) :
    Dismantled s₀ r₀ L q' s' := by
  refine h.fewer ?_ (fun hu => Or.inl ⟨?_, ?_, ?_, ?_⟩) ?_ ?_ hissued htasks hlow hlocks <;> rw [hst]
  · exact fun _ _ => id
  · exact hu.node
  · exact hu.instances
  · exact hu.fdus
  · exact hu.nodes

theorem monitor (h : Dismantled s₀ r₀ L q s) (hs : Settled s₀)
    (hm : s.toStore.monitor m = some st) : Dismantled s₀ r₀ L q { s with toStore := st } := by
  have hmoves := monitor_moves hm
  refine h.fewer (fun n i hi => hmoves.copies n ▸ hi) (fun hu => ?_) hmoves.entities hmoves.catalog
    rfl rfl id h.locks
  -- nothing is on its way while nothing has been touched
  have hstill : s.toStore.Still := fun n => by
    rw [hu.node]
    exact hs.still n
  rw [hstill.monitor] at hm
  cases hm

theorem put (h : Dismantled s₀ r₀ L q s) (hs : Settled s₀) (hu : r.uuid ∈ r₀.fdus)
    (hst : r.status ≠ .running) (hr : FromThere s₀ n r) :
    Dismantled s₀ r₀ L { q with lowered := True } { s with toStore := s.toStore.localPut n r } := by
  have hdown : Down r.uuid { s with toStore := s.toStore.localPut n r } := by
    intro m i hi hiu
    have hi := mem_localPut.1 hi
    split at hi
    · next hm =>
      rcases hi with rfl | ⟨hi, hp⟩
      · exact hst
      · exact absurd ((h.copies n i hi (hiu ▸ hu)).same hs hr hiu).2 hp
    · next hm => exact absurd ((h.copies m i hi (hiu ▸ hu)).same hs hr hiu).1 hm
  refine ⟨h.locks, fun m i hi hiu => ?_, Or.inr ⟨_, hu, hdown⟩, fun _ => ⟨_, hu, hdown⟩,
    fun v hv => (h.barred v hv).put hst, h.record, h.entities, h.issued, h.tasks⟩
  have hi := mem_localPut.1 hi
  split at hi
  · next hm =>
    subst hm
    rcases hi with rfl | hi
    · exact hr
    · exact h.copies m i hi.1 hiu
  · exact h.copies m i hi hiu

theorem exec {c : Cmd} {ch : Choice} {x : c.Ans} (h : Dismantled s₀ r₀ L q s) (hs : Settled s₀)
    (hallow : (Dismantling s₀ r₀ L).allows q c) (hx : exec c ch s = some (x, s')) :
    Dismantled s₀ r₀ L (q.after r₀.fdus c x) s' := by
  cases c with
  | access a =>
    rcases exec_access hx with ⟨-, hr⟩ | ⟨e, -, rfl, rfl⟩
    · obtain ⟨rfl, rfl⟩ := Prod.mk.inj hr
      cases a with
      | localPutInstance n r => exact h.put hs hallow.1 hallow.2.1 hallow.2.2
      | localDeleteInstance n f u =>
        exact h.fewer (fun m i => mem_localDelete) (fun _ => Or.inr hallow) rfl rfl rfl rfl id
          h.locks
      | deleteInstance f u | deleteFdu f =>
        exact h.fewer (fun _ _ => id) (fun _ => Or.inr hallow) rfl rfl rfl rfl id h.locks
      | putEntityInstance i =>
        refine ⟨h.locks, h.copies,
          h.stage.imp_left fun hu => ⟨hu.node, hu.instances, hu.fdus, hu.nodes⟩,
          h.lowered, h.barred, fun j hj hju => ?_, h.entities, h.issued, h.tasks⟩
        rcases Table.mem_put.1 hj with rfl | ⟨hj, -⟩
        · exact hallow
        · exact h.record j hj hju
      | localGetInstance n u =>
        cases hd : (s.node n).getInstance u with
        | error e => simpa [Teardown.after, hd] using h
        | ok r =>
          simp only [Teardown.after, hd]
          refine { h with lowered := fun hl => hl.elim h.lowered fun ⟨hu, hst⟩ => ?_ }
          exact ⟨_, hu, h.down_of_read hs (single_select_key hd).1 hu hst⟩
      | reply q' o =>
        exact h.fewer (fun _ _ => id)
          (fun hu => Or.inl ⟨hu.node, hu.instances, hu.fdus, hu.nodes⟩) rfl rfl rfl rfl id h.locks
      | getFdu | getInstance | getEntity | getAllFduInstances | getEntityInstance
      | getAllEntityInstances | getNodeInfo | getAllNodes | getNodeStatus | request => exact h
      | _ => exact hallow.elim
    · cases a <;> exact h
  | lock p =>
    obtain ⟨-, rfl⟩ := exec_lock hx
    exact h.same rfl rfl rfl id (Fos.setLock_held h.locks hallow)
  | unlock p =>
    rw [exec_unlock hx]
    exact h.same rfl rfl rfl id (Fos.setLock_free h.locks hallow)
  | insert p i =>
    rw [exec_insert hx]
    exact h.same rfl rfl rfl id fun p' => (Fos.setFdus_locked _ _ _ _).trans (h.locks p')
  | remove p v =>
    rw [exec_remove hx]
    exact h.same rfl rfl rfl id fun p' => (Fos.setFdus_locked _ _ _ _).trans (h.locks p')
  | hypervisor n name => obtain ⟨-, rfl⟩ := exec_hypervisor hx; exact h
  | net n q' => obtain ⟨-, rfl⟩ := exec_net hx; exact h
  | choose l => obtain ⟨rfl, -⟩ := exec_choose hx; exact h
  | pathExists path => obtain ⟨-, rfl⟩ := exec_pathExists hx; exact h
  | _ => exact hallow.elim

end Dismantled

end Tie

end Fog05
