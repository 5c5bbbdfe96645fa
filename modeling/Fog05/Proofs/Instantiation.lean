import Fog05.Proofs.Deletion
import Fog05.Proofs.Failure

/-! What `instantiate_fdu` can leave behind, whatever fails on the way: an instance
whose trail leads from defined to configured and from there to running. -/

namespace Fog05

open Conc M

/-- What a client that instantiates an FDU has done and learned so far: the lock it
holds, a uuid no record has yet, the copies read since the last put, the descriptor
read last, where FDUs can be dispatched and which instances the store has seen. -/
structure Progress where
  held : Option Uuid
  fresh : Option Uuid
  read : Uuid → FDURecord → Prop
  descriptor : Option FDUDescriptor
  able : Uuid → Uuid → Prop
  seen : Uuid → Prop

def Progress.after (q : Progress) : (c : Cmd) → c.Ans → Progress
  | .newUuid, v => { q with fresh := some v }
  | .access (.localPutInstance _ _), _ => { q with fresh := none, read := fun _ _ => False }
  | .access (.localGetInstance n _), .ok r => { q with read := fun m i => q.read m i ∨ m = n ∧ i = r }
  | .access (.getFdu _), .ok d => { q with descriptor := some d }
  | .hypervisor n name, some _ =>
      { q with able := fun f m => q.able f m ∨
          m = n ∧ ∃ d, q.descriptor = some d ∧ d.hypervisor = name ∧ d.uuid = some f }
  | .access (.getInstance u), .ok _ => { q with seen := fun v => q.seen v ∨ v = u }
  | .lock p, _ => { q with held := some p }
  | .unlock _, _ => { q with held := none }
  | _, _ => q

def Raised (r r' : FDURecord) : Prop :=
  r'.path = r.path ∧ r'.node = r.node ∧
    (r.status = .defined ∧ r'.status = .configured ∧ DummyHypervisor.Decodable r' ∨
      r.status = .configured ∧ r' = { r with status := .running })

def Proc.Instantiates : Proc → Prop
  | .poll _ _ | .agent _ (.checkFduCompatibility _) | .agent _ (.scheduleFdu _)
  | .agent _ (.defineFdu _) | .agent _ (.configureFdu _) | .agent _ (.startFdu _) => True
  | _ => False

/-- To put a new record where its FDU can be dispatched, or one that has been read
and is raised, and nothing else. -/
def Instantiating : Discipline Cmd.Ans Proc.Ret Exn Progress where
  allows q
    | .access (.localPutInstance n r') =>
        (∃ u f, q.fresh = some u ∧ q.able f n ∧ r' = DummyHypervisor.newInstance u f n) ∨
        ∃ r, q.read n r ∧ q.seen r.uuid ∧ Raised r r'
    | .access (.reply _ _) | .newUuid | .insert _ _ => True
    | .lock _ => q.held = none
    | .unlock p => q.held = some p
    | c => c.Idle
  next q c r q' := q' = q.after c r ∧ c.Honest r
  calls q p := q.held = none ∧ p.Instantiates
  back _ _ _ q' := q'.held = none

/-- Somewhere in the stores, or on its way, is record `i`. -/
def Store.Holds (st : Store) (i : FDURecord) : Prop :=
  i ∈ st.global.instances ∨ ∃ n, i ∈ (st.node n).instances ∨ i ∈ (st.node n).changes

/-- An instance as instantiation makes it. -/
structure Instantiated (n : Uuid) (r : FDURecord) (st : Store) : Prop where
  trail : Trail NoReset n r st
  copy : (st.node n).getInstance r.uuid = .ok r
  seen : r.status ≠ .defined → ∃ i ∈ st.global.instances, i.uuid = r.uuid
  decodable : r.status ≠ .defined → DummyHypervisor.Decodable r

/-- What ties the client to the deployment. `old` are the uuids given out before. -/
structure Tied (old : List Uuid) (q : Progress) (s : Fos) : Prop where
  given : old ⊆ s.issued
  known : ∀ i, s.Holds i → i.uuid ∈ s.issued
  placed : ∀ n, ∀ r ∈ (s.node n).instances, r.uuid ∉ old → Instantiated n r s.toStore
  locks : ∀ p, (s.plugin p).locked = decide (q.held = some p)
  fresh : ∀ u, q.fresh = some u → u ∈ s.issued ∧ u ∉ old ∧ ∀ i, s.Holds i → i.uuid ≠ u
  read : ∀ n r, q.read n r → r ∈ (s.node n).instances
  descriptor : ∀ d f, q.descriptor = some d → d.uuid = some f → s.global.getFdu f = .ok d
  able : ∀ f n, q.able f n →
    ∃ d p, s.global.getFdu f = .ok d ∧ (s.node n).hypervisors d.hypervisor = some p
  seen : ∀ u, q.seen u → ∃ i ∈ s.global.instances, i.uuid = u

variable {z : Session} {s s' : Fos} {st st' : Store} {n m u svc : Uuid} {r r' i : FDURecord}
variable {old : List Uuid} {q : Progress} {R R' : FDURecord → FDURecord → Prop}

theorem Trail.holds (h : Trail R n r st) : ∃ i, st.Holds i ∧ i.uuid = r.uuid ∧ i.node = n ∧
    (i ∈ st.global.instances ∨ i ∈ (st.node n).changes) := by
  have hmem := List.mem_of_getLast? h.last
  obtain ⟨hi, hu⟩ := Store.mem_trail.1 hmem
  exact ⟨r, hi.elim Or.inl fun h => Or.inr ⟨n, Or.inr h⟩, hu, h.home, hi⟩

theorem Trail.same_node (h : Trail R n r st) (h' : Trail R' m r' st) (hu : r'.uuid = r.uuid) :
    m = n := by
  obtain ⟨i, -, hi, rfl, hmem⟩ := h.holds
  by_contra hm
  rcases hmem with hmem | hmem
  · exact hm (h'.same i (Store.mem_trail.2 ⟨Or.inl hmem, hi.trans hu.symm⟩)).2.1.symm
  · exact h'.elsewhere i.node (Ne.symm hm) i hmem (hi.trans hu.symm)

theorem Trail.other (h : Trail R m r st) (hu : r'.uuid ≠ r.uuid) : Trail R m r (st.localPut n r') := by
  have htrail : (st.localPut n r').trail m r.uuid = st.trail m r.uuid := by
    by_cases hm : m = n
    · subst hm
      simp [Store.trail, Store.localPut, Store.setNode, List.filter_append, hu]
    · simp [Store.trail, Store.localPut, Store.setNode, Function.update_of_ne hm]
  refine ⟨h.home, ?_, fun k hk i hi => ?_, ?_, ?_, ?_⟩
  · rw [localPut_hypervisors]
    exact h.able
  · by_cases hk' : k = n
    · subst hk'
      simp only [Store.localPut, Store.setNode, Function.update_self] at hi
      rcases List.mem_append.1 hi with hi | hi
      · exact h.elsewhere k hk i hi
      · rw [List.mem_singleton.1 hi]
        exact hu
    · simp only [Store.localPut, Store.setNode, Function.update_of_ne hk'] at hi
      exact h.elsewhere k hk i hi
  · rw [htrail]
    exact h.same
  · rw [htrail]
    exact h.last
  · rw [htrail]
    exact h.ordered

theorem mem_localPut : i ∈ ((st.localPut n r').node m).instances ↔
    if m = n then i = r' ∨ i ∈ (st.node n).instances ∧ i.path ≠ r'.path
    else i ∈ (st.node m).instances := by
  simp only [Store.localPut, Store.setNode, Function.update_apply]
  split
  · exact Table.mem_put
  · rfl

theorem holds_localPut (h : (st.localPut n r').Holds i) : i = r' ∨ st.Holds i := by
  rcases h with h | ⟨m, h | h⟩
  · exact Or.inr (Or.inl h)
  · rw [mem_localPut] at h
    split at h
    · rcases h with h | h
      · exact Or.inl h
      · exact Or.inr (Or.inr ⟨n, Or.inl h.1⟩)
    · exact Or.inr (Or.inr ⟨m, Or.inl h⟩)
  · by_cases hm : m = n
    · subst hm
      simp only [Store.localPut, Store.setNode, Function.update_self] at h
      rcases List.mem_append.1 h with h | h
      · exact Or.inr (Or.inr ⟨m, Or.inr h⟩)
      · exact Or.inl (List.mem_singleton.1 h)
    · simp only [Store.localPut, Store.setNode, Function.update_of_ne hm] at h
      exact Or.inr (Or.inr ⟨m, Or.inr h⟩)

theorem instantiated_new {f : Uuid} (hnone : ∀ i, st.Holds i → i.uuid ≠ u)
    (hable : ∃ d p, st.global.getFdu f = .ok d ∧ (st.node n).hypervisors d.hypervisor = some p) :
    Instantiated n (DummyHypervisor.newInstance u f n)
      (st.localPut n (DummyHypervisor.newInstance u f n)) := by
  have hu : (DummyHypervisor.newInstance u f n).uuid = u := rfl
  have hnil : st.trail n u = [] := by
    apply List.eq_nil_iff_forall_not_mem.2
    intro i hi
    obtain ⟨hi, hu⟩ := Store.mem_trail.1 hi
    exact hnone i (hi.elim Or.inl fun h => Or.inr ⟨n, Or.inr h⟩) hu
  have htrail : (st.localPut n (DummyHypervisor.newInstance u f n)).trail n u =
      [DummyHypervisor.newInstance u f n] := by
    rw [trail_localPut hu, hnil, List.nil_append]
  refine ⟨⟨rfl, ?_, fun m hm i hi hu => ?_, ?_, ?_, ?_⟩, ?_, fun h => absurd rfl h, fun h => absurd rfl h⟩
  · rw [localPut_hypervisors]
    exact hable
  · simp only [Store.localPut, Store.setNode, Function.update_of_ne hm] at hi
    exact hnone i (Or.inr ⟨m, Or.inr hi⟩) hu
  · intro i hi
    rw [hu, htrail] at hi
    obtain rfl := List.mem_singleton.1 hi
    exact ⟨rfl, rfl, fun _ h => by cases h⟩
  · rw [hu, htrail]
    rfl
  · rw [hu, htrail]
    exact List.pairwise_singleton _ _
  · apply single_eq_ok.2
    simp only [Store.localPut, Store.setNode, Function.update_self]
    refine Table.select_put_of_nil (List.eq_nil_iff_forall_not_mem.2 fun i hi => ?_) rfl
    obtain ⟨hi, hu⟩ := Table.mem_select.1 hi
    exact hnone i (Or.inr ⟨n, Or.inl hi⟩) hu

theorem Instantiated.raise (h : Instantiated n r st) (hr : Raised r r')
    (hseen : ∃ i ∈ st.global.instances, i.uuid = r.uuid) : Instantiated n r' (st.localPut n r') := by
  obtain ⟨hpath, hnode, hst⟩ := hr
  have hu : r'.uuid = r.uuid := congrArg Prod.snd hpath
  have hlegal : r'.status = .configured ∨ r'.status = .running := by
    rcases hst with ⟨-, hst, -⟩ | ⟨-, rfl⟩
    · exact Or.inl hst
    · exact Or.inr rfl
  refine ⟨h.trail.localPut hpath hnode (fun e he => ?_) fun _ _ _ hd => ?_, ?_, fun _ => hu ▸ hseen,
    fun _ => ?_⟩
  · rcases hlegal with hl | hl <;> rw [hl] at he <;> cases he
  · rcases hlegal with hl | hl <;> rw [hl] at hd <;> cases hd
  · simp only [Store.localPut, Store.setNode, Function.update_self, Node.getInstance, hu]
    exact single_eq_ok.2 (Table.select_put_of_single (single_eq_ok.1 h.copy) hpath.symm)
  · rcases hst with ⟨-, -, hdec⟩ | ⟨hst, rfl⟩
    · exact hdec
    · exact h.decodable fun h => by rw [hst] at h; cases h

theorem Instantiated.other (h : Instantiated m r st) (hu : r'.uuid ≠ r.uuid) :
    Instantiated m r (st.localPut n r') := by
  refine ⟨h.trail.other hu, ?_, h.seen, h.decodable⟩
  by_cases hm : m = n
  · subst hm
    simp only [Store.localPut, Store.setNode, Function.update_self, Node.getInstance]
    rw [Table.select_put_of_not (q := fun path : Uuid × Uuid => path.2 = r.uuid) hu]
    exact h.copy
  · simp only [Store.localPut, Store.setNode, Function.update_of_ne hm]
    exact h.copy

theorem Instantiated.monitor (h : Instantiated n r st) (hm : st.monitor m = some st') :
    Instantiated n r st' := by
  refine ⟨h.trail.monitor hm, ?_, fun hst => seen_monitor hm (h.seen hst), h.decodable⟩
  rw [Node.getInstance, (monitor_moves hm).copies]
  exact h.copy

theorem Store.Holds.monitor (hm : st.monitor m = some st') (h : st'.Holds i) : st.Holds i := by
  have hmoves := monitor_moves hm
  rcases h with h | ⟨k, h | h⟩
  · exact (hmoves.stored i h).imp id fun h => ⟨m, Or.inr h⟩
  · exact Or.inr ⟨k, Or.inl (hmoves.copies k ▸ h)⟩
  · exact Or.inr ⟨k, Or.inr (hmoves.pending k i h)⟩

namespace Tied

theorem monitor (h : Tied old q s) (hm : s.toStore.monitor m = some st) :
    Tied old q { s with toStore := st } := by
  have hmoves := monitor_moves hm
  refine ⟨h.given, fun i hi => h.known i (hi.monitor hm), fun n r hr hnew => ?_, h.locks,
    fun u hu => ?_, fun n r hr => ?_, fun d f hd hf => ?_, fun f n hf => ?_, fun u hu => ?_⟩
  · rw [hmoves.copies] at hr
    exact (h.placed n r hr hnew).monitor hm
  · obtain ⟨h1, h2, h3⟩ := h.fresh u hu
    exact ⟨h1, h2, fun i hi => h3 i (hi.monitor hm)⟩
  · rw [hmoves.copies]
    exact h.read n r hr
  · rw [Global.getFdu, hmoves.fdus]
    exact h.descriptor d f hd hf
  · rw [Global.getFdu, hmoves.fdus, hmoves.hypervisors]
    exact h.able f n hf
  · exact seen_monitor hm (h.seen u hu)

theorem put (h : Tied old q s) (hallow : Instantiating.allows q (.access (.localPutInstance n r'))) :
    Tied old { q with fresh := none, read := fun _ _ => False }
      { s with toStore := s.toStore.localPut n r' } := by
  have hissued : r'.uuid ∈ s.issued := by
    rcases hallow with ⟨u, f, hu, -, rfl⟩ | ⟨r, hr, -, hpath, -⟩
    · exact (h.fresh u hu).1
    · rw [show r'.uuid = r.uuid from congrArg Prod.snd hpath]
      exact h.known r (Or.inr ⟨n, Or.inl (h.read n r hr)⟩)
  -- the record itself, when it is one of a new instance
  have hself : r'.uuid ∉ old → Instantiated n r' (s.localPut n r') := by
    intro hnew
    rcases hallow with ⟨u, f, hu, hf, rfl⟩ | ⟨r, hr, hseen, hraised⟩
    · exact instantiated_new (h.fresh u hu).2.2 (h.able f n hf)
    · have hru : r'.uuid = r.uuid := congrArg Prod.snd hraised.1
      exact (h.placed n r (h.read n r hr) (hru ▸ hnew)).raise hraised (h.seen _ hseen)
  -- no other copy has its uuid
  have honly : ∀ m, ∀ i ∈ (s.node m).instances, i.uuid ∉ old → i.uuid = r'.uuid →
      m = n ∧ i.path = r'.path := by
    intro m i hi hnew hu
    rcases hallow with ⟨u, f, hfresh, -, rfl⟩ | ⟨r, hr, -, hpath, -⟩
    · exact absurd hu ((h.fresh u hfresh).2.2 i (Or.inr ⟨m, Or.inl hi⟩))
    · have hru : r'.uuid = r.uuid := congrArg Prod.snd hpath
      have hplaced := h.placed n r (h.read n r hr) (hru ▸ hu ▸ hnew)
      obtain rfl := hplaced.trail.same_node (h.placed m i hi hnew).trail (hu.trans hru)
      obtain rfl := eq_of_single hplaced.copy hi (hu.trans hru)
      exact ⟨rfl, hpath.symm⟩
  refine ⟨h.given, fun i hi => ?_, fun m i hi hnew => ?_, h.locks, nofun, fun _ _ => False.elim,
    h.descriptor, fun f m hf => ?_, h.seen⟩
  · rcases holds_localPut hi with rfl | hi
    · exact hissued
    · exact h.known i hi
  · have hi' := mem_localPut.1 hi
    split at hi'
    · next hm =>
      subst hm
      rcases hi' with rfl | ⟨hi', hpath⟩
      · exact hself hnew
      · exact (h.placed m i hi' hnew).other fun hu => hpath (honly m i hi' hnew hu.symm).2
    · next hm => exact (h.placed m i hi' hnew).other fun hu => hm (honly m i hi' hnew hu.symm).1
  · rw [localPut_hypervisors]
    exact h.able f m hf

theorem same (h : Tied old q s) (hst : s'.toStore = s.toStore) (hissued : s.issued ⊆ s'.issued)
    {held : Option Uuid} (hlocks : ∀ p, (s'.plugin p).locked = decide (held = some p)) :
    Tied old { q with held } s' := by
  refine ⟨List.Subset.trans h.given hissued, ?_, ?_, hlocks, ?_, ?_, ?_, ?_, ?_⟩ <;> rw [hst]
  · exact fun i hi => hissued (h.known i hi)
  · exact h.placed
  · exact fun u hu => ⟨hissued (h.fresh u hu).1, (h.fresh u hu).2⟩
  · exact h.read
  · exact h.descriptor
  · exact h.able
  · exact h.seen

theorem exec {c : Cmd} {ch : Choice} {x : c.Ans} (h : Tied old q s) (hallow : Instantiating.allows q c)
    (hx : exec c ch s = some (x, s')) : Tied old (q.after c x) s' := by
  have hhonest := exec_honest hx
  cases c with
  | access a =>
    rcases exec_access hx with ⟨-, hr⟩ | ⟨e, -, rfl, rfl⟩
    · obtain ⟨rfl, rfl⟩ := Prod.mk.inj hr
      cases a with
      | localPutInstance n r' => exact h.put hallow
      | getFdu f =>
        cases hd : s.global.getFdu f with
        | error e => simpa [Progress.after, hd] using h
        | ok d =>
          simp only [Progress.after, hd]
          refine { h with descriptor := ?_ }
          rintro _ f' ⟨⟩ hf'
          rw [getFdu_uuid hd] at hf'
          cases hf'
          exact hd
      | getInstance u =>
        cases hd : s.global.getInstance u with
        | error e => simpa [Progress.after, hd] using h
        | ok i =>
          simp only [Progress.after, hd]
          refine { h with seen := fun v hv => hv.elim (h.seen v) ?_ }
          rintro rfl
          exact ⟨i, single_select_key hd⟩
      | localGetInstance n u =>
        cases hd : (s.node n).getInstance u with
        | error e => simpa [Progress.after, hd] using h
        | ok i =>
          simp only [Progress.after, hd]
          refine { h with read := fun m j hj => hj.elim (h.read m j) ?_ }
          rintro ⟨rfl, rfl⟩
          exact (single_select_key hd).1
      | reply q' o => exact { h with known := h.known }
      | getEntity | getAllFduInstances | getEntityInstance | getAllEntityInstances | getNodeInfo
      | getAllNodes | getNodeStatus | request => exact h
      | _ => exact hallow.elim
    · cases a with
      | localPutInstance n r' => exact { h with fresh := nofun, read := fun _ _ => False.elim }
      | _ => exact h
  | hypervisor n name =>
    obtain ⟨rfl, rfl⟩ := exec_hypervisor hx
    cases hp : (s'.node n).hypervisors name with
    | none => simpa [Progress.after, hp] using h
    | some p =>
      simp only [Progress.after]
      refine { h with able := fun f m hf => hf.elim (h.able f m) ?_ }
      rintro ⟨rfl, d, hd, rfl, hdf⟩
      exact ⟨d, p, h.descriptor d f hd hdf, hp⟩
  | newUuid =>
    obtain ⟨hnew, rfl⟩ := exec_newUuid hx
    have hsame : Tied old q { s with issued := x :: s.issued } :=
      h.same (rfl : Fos.toStore { s with issued := x :: s.issued } = s.toStore)
        (List.subset_cons_self _ _) h.locks
    refine { hsame with fresh := ?_ }
    rintro u ⟨⟩
    exact ⟨List.mem_cons_self, fun ho => hnew (h.given ho), fun i hi hu => hnew (hu ▸ h.known i hi)⟩
  | lock p =>
    obtain ⟨-, rfl⟩ := exec_lock hx
    exact h.same (rfl : (s.setLock p true).toStore = s.toStore) (List.Subset.refl _)
      (Fos.setLock_held h.locks hallow)
  | unlock p =>
    rw [exec_unlock hx]
    exact h.same (rfl : (s.setLock p false).toStore = s.toStore) (List.Subset.refl _)
      (Fos.setLock_free h.locks hallow)
  | insert p i =>
    rw [exec_insert hx]
    apply h.same (rfl : (s.setFdus p _).toStore = s.toStore) (List.Subset.refl _)
    intro p'
    rw [Fos.setFdus_locked]
    exact h.locks p'
  | net n q' => obtain ⟨-, rfl⟩ := exec_net hx; exact h
  | choose l => obtain ⟨rfl, -⟩ := exec_choose hx; exact h
  | pathExists path => obtain ⟨-, rfl⟩ := exec_pathExists hx; exact h
  | _ => exact hallow.elim

end Tied

/-- Nothing has been put, and no lock taken or released. -/
structure Progress.Grows (q q' : Progress) : Prop where
  held : q'.held = q.held
  fresh : q'.fresh = q.fresh
  read : ∀ n r, q.read n r → q'.read n r
  able : ∀ f n, q.able f n → q'.able f n
  seen : ∀ u, q.seen u → q'.seen u

def Cmd.Reads : Cmd → Prop
  | .access (.reply _ _) => True
  | c => c.Idle

theorem Cmd.Idle.reads {c : Cmd} (h : c.Idle) : c.Reads := by
  unfold Reads
  split
  · trivial
  · exact h

theorem Cmd.Reads.allows {c : Cmd} (h : c.Reads) : Instantiating.allows q c := by
  unfold Reads at h
  split at h
  · trivial
  · simp only [Idle] at h
    split at h <;> trivial

theorem Progress.grows_after {c : Cmd} (h : c.Reads) (x : c.Ans) : q.Grows (q.after c x) := by
  unfold Progress.after
  split <;> first | exact h.elim | skip
  · exact ⟨rfl, rfl, fun _ _ => Or.inl, fun _ _ => id, fun _ => id⟩
  · exact ⟨rfl, rfl, fun _ _ => id, fun _ _ => id, fun _ => id⟩
  · exact ⟨rfl, rfl, fun _ _ => id, fun _ _ => Or.inl, fun _ => id⟩
  · exact ⟨rfl, rfl, fun _ _ => id, fun _ _ => id, fun _ => Or.inl⟩
  · exact ⟨rfl, rfl, fun _ _ => id, fun _ _ => id, fun _ => id⟩

theorem Progress.Grows.refl (q : Progress) : q.Grows q :=
  ⟨rfl, rfl, fun _ _ => id, fun _ _ => id, fun _ => id⟩

theorem Progress.Grows.trans {q₁ q₂ q₃ : Progress} (h : q₁.Grows q₂) (h' : q₂.Grows q₃) :
    q₁.Grows q₃ :=
  ⟨h'.held.trans h.held, h'.fresh.trans h.fresh, fun n r hr => h'.read n r (h.read n r hr),
    fun f n hf => h'.able f n (h.able f n hf), fun u hu => h'.seen u (h.seen u hu)⟩

section Follows

variable {α : Type} {p f : Uuid} {a : Agent}

/-- At the end of a call no lock is held. -/
def Released (_ : Except Exn α) (q : Progress) : Prop := q.held = none

theorem follows_reads {b : M α} (h : b.Within Cmd.Reads fun _ => False) :
    b.Follows Instantiating (fun _ q' => q.Grows q') q :=
  h.grows (G := Progress.Grows) (fun _ _ _ => Progress.Grows.trans)
    (fun q₁ c hc => ⟨hc.allows, fun x q' (hn : q' = q₁.after c x ∧ c.Honest x) =>
      hn.1 ▸ Progress.grows_after hc x⟩)
    (fun _ _ => False.elim) (.refl q)

/-- Reading, and then the rest. -/
theorem follows_reads_bind {β : Type} {b : M α} {k : α → M β} {Φ : Except Exn β → Progress → Prop}
    (hb : b.Within Cmd.Reads fun _ => False)
    (hk : ∀ x q', q.Grows q' → (k x).Follows Instantiating Φ q')
    (herr : ∀ e q', q.Grows q' → Φ (.error e) q') : (b >>= k).Follows Instantiating Φ q :=
  follows_bind (follows_reads hb) hk herr

theorem follows_invoke_released {p : Proc} (hp : p.Instantiates) (hq : q.held = none) :
    (Prog.invoke p : M p.Ret).Follows Instantiating Released q :=
  follows_invoke ⟨hq, hp⟩ fun _ _ h => h

theorem follows_rpc_released {x : Request} (hp : (Proc.agent svc x).Instantiates)
    (hq : q.held = none) : (rpc z svc x).Follows Instantiating Released q := by
  refine follows_remote trivial (fun _ q₁ hn => ?_) fun e q₁ hn => ?_
  · refine (follows_invoke_released hp ?_).mono fun o q₂ h => ⟨trivial, fun y q₃ hn => ?_⟩
    · rw [hn.1]
      exact hq
    · rw [Released, hn.1]
      exact h
  · rw [Released, hn.1]
    exact hq

theorem follows_store_held {r' : FDURecord} (hq : q.held = some p)
    (hallow : Instantiating.allows q (.access (.localPutInstance n r'))) :
    (DummyHypervisor.store n p r').Follows Instantiating (fun _ q' => q'.held = some p) q := by
  refine follows_ask_bind hallow (fun _ q₁ hn => ⟨trivial, fun _ q₂ hn' => ?_⟩) fun e q₁ hn => ?_
  · change q₂.held = some p
    rw [hn'.1, hn.1]
    exact hq
  · rw [hn.1]
    exact hq

theorem follows_transition_released {before : FDUState} {work : FDURecord → M Unit}
    (hwork : ∀ inst q', inst.status = before → q'.held = some p → q'.read n inst → q'.seen inst.uuid →
      (work inst).Follows Instantiating (fun _ q'' => q''.held = some p) q')
    (hq : q.held = none) (hseen : q.seen u) :
    (DummyHypervisor.transition z n p before u work).Follows Instantiating Released q := by
  refine follows_reads_bind (DummyHypervisor.within_getNodeUuid fun _ h => h.idle.reads)
    (fun _ q₁ h₁ => ?_) fun _ q₁ h₁ => h₁.held.trans hq
  refine follows_ask_bind trivial (fun inst q₂ hn => ?_) fun e q₂ hn => ?_
  · obtain ⟨rfl, hu⟩ := hn
    split
    · next hst =>
      apply follows_withLock (h₁.held.trans hq)
      intro _ q₃ hn
      obtain rfl := hn.1
      refine follows_bind (hwork inst _ hst rfl (Or.inr ⟨rfl, rfl⟩) ?_) (fun _ q₄ h₄ => ?_)
        fun _ q₄ h₄ => ⟨h₄, fun _ q₅ hn => hn.1 ▸ rfl⟩
      · exact h₁.seen _ ((hu : inst.uuid = u) ▸ hseen)
      · exact ⟨h₄, fun _ q₅ hn => hn.1 ▸ rfl⟩
    · exact h₁.held.trans hq
  · obtain rfl := hn.1
    exact h₁.held.trans hq

theorem follows_configureFdu_released (hq : q.held = none) (hseen : q.seen u) :
    (DummyHypervisor.configureFdu z n p u).Follows Instantiating Released q := by
  have hidle : ∀ c : Cmd, c.Idle → c.Reads := fun _ h => h.reads
  refine follows_transition_released (fun inst q₁ hst hheld hread hseen => ?_) hq hseen
  refine follows_reads_bind (DummyHypervisor.within_fduInfo (plain_of_idle hidle)) (fun d q₂ h₂ => ?_)
    fun _ _ h => h.held.trans hheld
  refine follows_reads_bind (within_callNet trivial) (fun ns q₃ h₃ => ?_)
    fun _ _ h => (h₂.trans h).held.trans hheld
  have h₁₃ := h₂.trans h₃
  refine follows_reads_bind (DummyHypervisor.within_createConnectionPoints (plain_of_idle hidle) _ _)
    (fun cps q₄ h₄ => ?_) fun _ _ h => (h₁₃.trans h).held.trans hheld
  have h₁₄ := h₁₃.trans h₄
  refine follows_reads_bind (DummyHypervisor.within_createInterfaces (plain_of_idle hidle) _ _ _ _)
    (fun ifs q₅ h₅ => ?_) fun _ _ h => (h₁₄.trans h).held.trans hheld
  have h₁₅ := h₁₄.trans h₅
  exact follows_store_held (h₁₅.held.trans hheld) (Or.inr ⟨inst, h₁₅.read _ _ hread,
    h₁₅.seen _ hseen, rfl, rfl, Or.inl ⟨hst, rfl, ns.uuid, rfl⟩⟩)

theorem follows_startFdu_released (hq : q.held = none) (hseen : q.seen u) :
    (DummyHypervisor.startFdu z n p u).Follows Instantiating Released q :=
  follows_transition_released (fun inst _ hst hheld hread hseen =>
    follows_store_held hheld (Or.inr ⟨inst, hread, hseen, rfl, rfl, Or.inr ⟨hst, rfl⟩⟩)) hq hseen

theorem follows_defineFdu_released {d : FDUDescriptor} (hq : q.held = none)
    (hable : ∀ f, d.uuid = some f → q.able f n) :
    (DummyHypervisor.defineFdu z n p d).Follows Instantiating Released q := by
  refine follows_bind (Ψ := fun o q₁ => (∀ m, o = .ok m → m = n) ∧ q.Grows q₁) ?_
    (fun m q₁ h₁ => ?_) fun _ _ h => h.2.held.trans hq
  · refine follows_remote trivial (fun _ q₁ hn => ⟨trivial, fun y q₂ hn' => ?_⟩)
      fun _ _ hn => ⟨nofun, hn.1 ▸ .refl q⟩
    refine ⟨fun m hm => ?_, ?_⟩
    swap
    · rw [hn'.1, hn.1]
      exact .refl q
    cases y with
    | error e => cases hm
    | ok x =>
      cases hm
      exact (Except.ok.inj (received_eq_ok.1 hn'.2)).symm
  · obtain rfl := h₁.1 m rfl
    apply follows_withLock (h₁.2.held.trans hq)
    intro _ q₂ hn
    obtain rfl := hn.1
    apply follows_issue_bind trivial
    intro v q₃ hn
    obtain rfl := hn.1
    refine follows_unwrap_bind (fun f hf => ?_) fun _ => ⟨rfl, fun _ q₄ hn => hn.1 ▸ rfl⟩
    refine follows_bind (follows_store_held rfl (Or.inl ⟨v, f, rfl, h₁.2.able _ _ (hable f hf), rfl⟩))
      (fun _ q₄ h₄ => ?_) fun _ q₄ h₄ => ⟨h₄, fun _ q₅ hn => hn.1 ▸ rfl⟩
    exact ⟨h₄, fun _ q₅ hn => hn.1 ▸ rfl⟩

theorem follows_call_released {r : PluginRequest} {b : M r.Ret}
    (hcall : DummyHypervisor.call z n p r = remote z (.plugin p r) b)
    (hb : ∀ q', q.Grows q' → b.Follows Instantiating Released q') (hq : q.held = none) :
    (DummyHypervisor.call z n p r).Follows Instantiating Released q := by
  rw [hcall]
  refine follows_remote trivial (fun _ q₁ hn => ?_) fun e q₁ hn => ?_
  · rw [show q₁ = q from hn.1]
    refine (hb q (.refl q)).mono fun o q₂ h => ⟨trivial, fun y q₃ hn => ?_⟩
    rw [Released, hn.1]
    exact h
  · obtain rfl := hn.1
    exact hq

theorem follows_moving_released {r : PluginRequest} {awaited : FDUState}
    {forward : Uuid → M FDURecord}
    (hcall : ∀ m p q', q'.held = none → q'.seen u →
      (DummyHypervisor.call z m p r).Follows Instantiating Released q')
    (hforward : ∀ v q', q'.held = none → (forward v).Follows Instantiating Released q')
    (hq : q.held = none) :
    (Agent.dispatch a u (fun _ => Agent.move z a r awaited u) forward).Follows
      Instantiating Released q := by
  have hidle : ∀ c : Cmd, c.Idle → c.Reads := fun _ h => h.reads
  refine follows_ask_bind trivial (fun inst q₁ hn => ?_) fun e q₁ hn => ?_
  · obtain rfl := hn.1
    split
    · refine follows_reads_bind (within_ask trivial) (fun d q₂ h₂ => ?_) fun _ _ h => h.held.trans hq
      refine follows_reads_bind (within_issue trivial) (fun x q₃ h₃ => ?_)
        fun _ _ h => (h₂.trans h).held.trans hq
      have h := h₂.trans h₃
      refine follows_okOr_bind (fun p _ => ?_) fun _ => h.held.trans hq
      refine follows_bind (hcall _ p q₃ (h.held.trans hq) (h.seen u (Or.inr rfl))) (fun _ q₄ h₄ => ?_)
        fun _ _ h => h
      exact follows_invoke_released trivial h₄
    · refine follows_reads_bind (within_ask trivial) (fun info q₂ h₂ => ?_) fun _ _ h => h.held.trans hq
      exact hforward _ q₂ (h₂.held.trans hq)
  · obtain rfl := hn.1
    exact hq

theorem follows_poll_released {awaited : FDUState} (hq : q.held = none) :
    (body z (.poll u awaited)).Follows Instantiating Released q := by
  have hallow : Instantiating.allows q (.access (.getInstance u)) := trivial
  refine Prog.follows_retry (p := Proc.poll u awaited) (f := settle awaited) hallow
    (fun x q₁ hn => ?_) fun x q₁ o hn _ => ?_
  · apply follows_invoke_released (p := Proc.poll u awaited) trivial
    rw [hn.1]
    exact (Progress.grows_after (q := q) (c := .access (.getInstance u)) trivial x).held.trans hq
  · rw [Released, hn.1]
    exact (Progress.grows_after (q := q) (c := .access (.getInstance u)) trivial x).held.trans hq

theorem follows_agent_defineFdu (hq : q.held = none) :
    (Agent.defineFdu z a f).Follows Instantiating Released q := by
  refine follows_ask_bind trivial (fun d q₁ hn => ?_) fun e q₁ hn => ?_
  swap
  · rw [Released, hn.1]
    exact hq
  obtain ⟨rfl, hdf⟩ := hn
  apply follows_issue_bind trivial
  intro x q₂ hn
  obtain rfl := hn.1
  cases x with
  | none => exact hq
  | some p =>
    -- where the FDU can be dispatched is known from here on
    rw [okOr_some_bind]
    refine follows_bind (Ψ := Released) ?_ (fun inst q₃ h₃ =>
      follows_invoke_released (p := Proc.poll inst.uuid .defined) trivial h₃) fun _ _ h => h
    refine follows_call_released rfl (fun q₃ h₃ => ?_) hq
    refine follows_defineFdu_released (h₃.held.trans hq) fun f' hf' => h₃.able _ _ ?_
    exact Or.inr ⟨rfl, d, rfl, rfl, hf'⟩

theorem follows_scheduleFdu_released (hq : q.held = none) :
    (Agent.scheduleFdu z a f).Follows Instantiating Released q := by
  have hcompatible : (Agent.getCompatibleNodes z a f).Within Cmd.Reads
      fun p => p.Instantiates :=
    Agent.within_getCompatibleNodes (fun _ h => h.idle.reads) fun _ => trivial
  refine follows_bind (Ψ := fun _ q' => q'.held = none) ?_ (fun l q₁ h₁ => ?_) fun _ _ h => h
  · refine hcompatible.follows (J := fun q' => q'.held = none) (fun q' c hq' hc => ⟨hc.allows, ?_⟩)
      (fun q' p hq' hp => ⟨show Instantiating.calls q' p from ⟨hq', hp⟩,
        fun _ q'' h => show q''.held = none from h⟩) hq
    intro x q'' hn
    rw [hn.1]
    exact (Progress.grows_after hc x).held.trans hq'
  refine follows_reads_bind (within_issue trivial) (fun x q₂ h₂ => ?_) fun _ _ h => h.held.trans h₁
  have hq₂ : q₂.held = none := h₂.held.trans h₁
  cases x with
  | none => exact hq₂
  | some v =>
    dsimp only
    split
    · exact follows_agent_defineFdu hq₂
    · exact follows_rpc_released (x := .defineFdu f) trivial hq₂

theorem follows_agent_configureFdu (hq : q.held = none) :
    (Agent.configureFdu z a u).Follows Instantiating Released q :=
  follows_moving_released (r := .configureFdu u)
    (fun _ _ _ hq hseen => follows_call_released (r := .configureFdu u) rfl
      (fun _ h => follows_configureFdu_released (h.held.trans hq) (h.seen _ hseen)) hq)
    (fun _ _ hq => follows_rpc_released (x := .configureFdu u) trivial hq) hq

theorem follows_agent_startFdu (hq : q.held = none) :
    (Agent.startFdu z a u).Follows Instantiating Released q :=
  follows_moving_released (r := .startFdu u)
    (fun _ _ _ hq hseen => follows_call_released (r := .startFdu u) rfl
      (fun _ h => follows_startFdu_released (h.held.trans hq) (h.seen _ hseen)) hq)
    (fun _ _ hq => follows_rpc_released (x := .startFdu u) trivial hq) hq

theorem instantiating_sound : Instantiating.Sound (body z) := by
  intro q p hp
  obtain ⟨hq, hp⟩ := hp
  cases p with
  | poll u awaited => exact follows_poll_released hq
  | task t => exact hp.elim
  | agent svc x =>
    simp only [body]
    split
    swap
    · exact hq
    cases x with
    | checkFduCompatibility f =>
      exact (follows_reads (Agent.within_checkFduCompatibility fun _ h => h.idle.reads)).mono
        fun _ _ h => h.held.trans hq
    | scheduleFdu f => exact follows_scheduleFdu_released hq
    | defineFdu f => exact follows_agent_defineFdu hq
    | configureFdu u => exact follows_agent_configureFdu hq
    | startFdu u => exact follows_agent_startFdu hq
    | _ => exact hp.elim

theorem follows_instantiateFdu (hq : q.held = none) :
    (instantiateFdu z f).Follows Instantiating Released q := by
  have hentry : entryPoint.Within Cmd.Reads fun _ => False :=
    within_bind (within_ask trivial) fun _ => within_bind (within_issue trivial) fun _ => within_unwrap
  refine follows_reads_bind hentry (fun v q₁ h₁ => ?_) fun _ _ h => h.held.trans hq
  refine follows_reads_bind (within_ask trivial) (fun d q₂ h₂ => ?_)
    fun _ _ h => (h₁.trans h).held.trans hq
  have hq₂ := (h₁.trans h₂).held.trans hq
  refine follows_bind (follows_rpc_released (x := .scheduleFdu f) trivial hq₂) (fun inst q₃ h₃ => ?_)
    fun _ _ h => h
  refine follows_bind (follows_rpc_released (x := .configureFdu inst.uuid) trivial h₃)
    (fun _ q₄ h₄ => ?_) fun _ _ h => h
  exact follows_rpc_released (x := .startFdu inst.uuid) trivial h₄

end Follows

/-- No call is under way, and the uuids of all records have been given out. -/
structure Idle (s : Fos) : Prop where
  free : ∀ p, (s.plugin p).locked = false
  known : ∀ i, s.Holds i → i.uuid ∈ s.issued

/-- What an instantiation can leave behind. -/
theorem instantiated_of_runs {f : Uuid} {s₀ s₁ : Fos} {k : ℕ} {o : Except Exn FDURecord}
    (h₀ : Idle s₀) (hrun : (system z Unreliable).Runs k s₀ (instantiateFdu z f) s₁ (.final o)) :
    (∀ p, (s₁.plugin p).locked = false) ∧
      ∀ n, ∀ r ∈ (s₁.node n).instances, r.uuid ∉ s₀.issued → Instantiated n r s₁.toStore := by
  have htied : Tied s₀.issued ⟨none, none, fun _ _ => False, none, fun _ _ => False, fun _ => False⟩ s₀ :=
    ⟨List.Subset.refl _, h₀.known, fun n r hr hnew => absurd (h₀.known r (Or.inr ⟨n, Or.inl hr⟩)) hnew,
      h₀.free, nofun, fun _ _ => False.elim, nofun, fun _ _ => False.elim, fun _ => False.elim⟩
  obtain ⟨q, hq, h⟩ := (ensures_of_follows instantiating_sound (Tied s₀.issued)
    (fun _ _ _ _ h hm => h.monitor hm)
    (fun _ _ _ _ _ _ h hallow hx => ⟨_, ⟨rfl, exec_honest hx⟩, h.exec hallow hx⟩)
    (follows_instantiateFdu rfl) htied).1 k s₁ o hrun
  refine ⟨fun p => ?_, h.placed⟩
  rw [h.locks, show q.held = none from hq]
  rfl

/-- Deleting instance `u` through the agent serving `svc`, with all components healthy,
ends, and then neither the local store of node `n` nor the global store has it. -/
def CanDelete (z : Session) (svc n u : Uuid) (s : Fos) : Prop :=
  (system z Healthy).Ensures True (deleteFduInstance z svc u) s fun _ s' =>
    (∀ i ∈ (s'.node n).instances, i.uuid ≠ u) ∧ ∀ i ∈ s'.global.instances, i.uuid ≠ u

theorem not_failing_healthy (e : FError) : ¬ Healthy (.net (.error e)) := id

/-- An instance that `instantiate_fdu` has left on node `n`, whatever failed in its
run, can be deleted through that node if and only if it is running. -/
theorem delete_instantiated_iff {f : Uuid} {s₀ s₁ : Fos} {k : ℕ} {o : Except Exn FDURecord}
    (h₀ : Idle s₀) (hrun : (system z Unreliable).Runs k s₀ (instantiateFdu z f) s₁ (.final o))
    (hr : r ∈ (s₁.node n).instances) (hnew : r.uuid ∉ s₀.issued) (hsvc : z.server svc = some n) :
    CanDelete z svc n r.uuid s₁ ↔ r.status = .running := by
  obtain ⟨hfree, hplaced⟩ := instantiated_of_runs h₀ hrun
  have h := hplaced n r hr hnew
  constructor
  · intro hcan
    by_contra hst
    obtain ⟨l, s', o', hend, hgone, -⟩ := hcan.exists_end
    have hkept := ((ensures_delete_refused (t := False) ⟨h.trail, h.copy⟩ hst hsvc).bound
      not_faulty_healthy).1 l s' o' hend
    obtain ⟨hi, hu⟩ := single_select_key hkept.2
    exact hgone r hi hu
  · intro hst
    have hne : r.status ≠ .defined := by rw [hst]; nofun
    have hpoised : Poised NoReset n r none s₁ := ⟨h.trail, h.copy, h.seen hne, fun p => hfree p⟩
    refine System.Ensures.mono ((ensures_deleteFduInstance hpoised hst (h.decodable hne)
      not_failing_healthy hsvc).bound not_faulty_healthy) fun _ _ hv => ⟨hv.copy, hv.stored⟩

theorem boot_idle (sites : List Site) (fdus : List FDUDescriptor) (entities : List EntityDescriptor) :
    Idle (boot sites fdus entities) :=
  ⟨fun _ => rfl, fun i hi => absurd hi fun h => h.elim (Table.not_mem_empty i)
    fun ⟨_, h⟩ => h.elim (Table.not_mem_empty i) List.not_mem_nil⟩

/-- Instantiation without a failure: the entry point has the other node chosen. -/
theorem delete_instantiated_iff_running : ∃ s₁ r, r ∈ (s₁.node 1).instances ∧ r.status = .running ∧
    CanDelete (Site.session twoSites) 101 1 r.uuid s₁ := by
  obtain ⟨o, s₁, hplay, h⟩ := Machine.exists_drive (f := fun _ s₁ =>
      (s₁.node 1).instances.rows.any fun r => r.status = .running)
    (show (playUsual twoSites (boot twoSites [.plain 50] [])
      (instantiateFdu (Site.session twoSites) 50)).any _ = true by decide +kernel)
  obtain ⟨k, hrun⟩ := runs_of_playUsual unreliable hplay
  obtain ⟨r, hr, hst⟩ := List.any_eq_true.1 h
  exact ⟨s₁, r, hr, of_decide_eq_true hst, (delete_instantiated_iff (boot_idle _ _ _) hrun hr
    List.not_mem_nil rfl).2 (of_decide_eq_true hst)⟩

/-- The start of the instance fails: it is left configured, in both stores, and
cannot be deleted. -/
theorem failed_start_undeletable : ∃ k s₁ o r, (system (Site.session twoSites) Unreliable).Runs k
    (boot twoSites [.plain 50] []) (instantiateFdu (Site.session twoSites) 50) s₁ (.final o) ∧
    (∃ i ∈ created (boot twoSites [.plain 50] []) s₁, i.uuid = r.uuid) ∧
    r ∈ (s₁.node 1).instances ∧ r.status = .configured ∧
    ¬ CanDelete (Site.session twoSites) 101 1 r.uuid s₁ := by
  obtain ⟨o, s₁, hplay, h⟩ := Machine.exists_drive (f := fun _ s₁ =>
      (s₁.node 1).instances.rows.any fun r => r.status = .configured &&
        (created (boot twoSites [.plain 50] []) s₁).any fun i => i.uuid = r.uuid)
    (show ((machine (Site.session twoSites)).drive (failing starts (.zError "timeout")) [0, 1] 10000
      (boot twoSites [.plain 50] []) (instantiateFdu (Site.session twoSites) 50)).any _ = true by
        decide +kernel)
  obtain ⟨k, hrun⟩ := Machine.runs_of_drive Unreliable (fun _ _ => trivial) hplay
  simp only [List.any_eq_true, Bool.and_eq_true, decide_eq_true_eq] at h
  obtain ⟨r, hr, hst, hcreated⟩ := h
  refine ⟨k, s₁, o, r, hrun, hcreated, hr, hst, fun hcan => ?_⟩
  have hleft := (instantiated_of_runs (boot_idle _ _ _) hrun).2 1 r hr List.not_mem_nil
  obtain ⟨l, s', o', hend, hgone, -⟩ := hcan.exists_end
  have hkept := ((ensures_delete_refused (t := False) ⟨hleft.trail, hleft.copy⟩ (by rw [hst]; nofun)
    rfl).bound not_faulty_healthy).1 l s' o' hend
  obtain ⟨hi, hu⟩ := single_select_key hkept.2
  exact hgone r hi hu

end Fog05
