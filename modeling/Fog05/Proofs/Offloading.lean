import Fog05.Proofs.Boot
import Fog05.Proofs.Follows

/-! Offloading an entity. `offload_entity` refuses an entity with instances, and an
instance of an entity never leaves the global store: nothing deletes its record. -/

namespace Fog05

open Conc M

variable {z : Session} {s s' : Fos} {e svc n : Uuid}

/-- A record of entity `e` is stored exactly when one has been written. -/
def Logged (s : Fos) : Prop :=
  ∀ e, (∃ i ∈ s.global.entityInstances, i.id = e) ↔ ∃ i ∈ s.writes, i.id = e

/-- One record of an entity instance is written, or none is. -/
inductive Fos.Writes (s s' : Fos) : Prop
  | none : s'.global.entityInstances = s.global.entityInstances → s'.writes = s.writes → Writes s s'
  | one {inst} : s'.global.entityInstances = s.global.entityInstances.put inst →
      s'.writes = s.writes ++ [inst] → Writes s s'

theorem exec_writes {c : Cmd} {ch : Choice} {r : c.Ans} (hx : exec c ch s = some (r, s')) :
    s.Writes s' := by
  cases c with
  | access a =>
    rcases exec_access hx with ⟨-, hr⟩ | ⟨-, -, -, rfl⟩
    · obtain ⟨-, rfl⟩ := Prod.mk.inj hr
      cases a with
      | putEntityInstance inst => exact .one rfl rfl
      | _ => exact .none rfl rfl
    · exact .none rfl rfl
  | _ =>
    obtain ⟨hst, hw, -⟩ := exec_internal (fun _ h => by cases h) hx
    exact .none (by rw [hst]) hw

theorem writes_of_step {w w' : Calls} {l : Label Proc Choice Uuid} (hs : (machine z).Step l w w') :
    w.state.Writes w'.state := by
  cases hs with
  | act _ hx => exact exec_writes hx
  | env hm =>
    obtain ⟨st, hst, rfl⟩ := Option.map_eq_some_iff.1 hm
    exact .none (monitor_moves hst).entities rfl
  | launch hl =>
    obtain ⟨t, ts, -, rfl, rfl⟩ := launch_eq_some hl
    exact .none rfl rfl
  | _ => exact .none rfl rfl

theorem Logged.of_writes (h : Logged s) (hw : s.Writes s') : Logged s' := by
  cases hw with
  | none hst hw =>
    unfold Logged
    rw [hst, hw]
    exact h
  | @one inst hst hw =>
    intro e
    simp only [hst, hw, List.mem_append, List.mem_singleton, or_and_right, exists_or,
      exists_eq_left, ← h e]
    constructor
    · rintro ⟨i, hi, rfl⟩
      rcases Table.mem_put.1 hi with rfl | ⟨hi, -⟩
      · exact Or.inr rfl
      · exact Or.inl ⟨i, hi, rfl⟩
    · rintro (⟨i, hi, rfl⟩ | rfl)
      · by_cases hp : i.path = inst.path
        · exact ⟨inst, Table.mem_put_self _ _, (congrArg Prod.fst hp).symm⟩
        · exact ⟨i, Table.mem_put.2 (Or.inr ⟨hi, hp⟩), rfl⟩
      · exact ⟨inst, Table.mem_put_self _ _, rfl⟩

/-- The descriptor of `e` is in the catalog. -/
def Fos.Offers (s : Fos) (e : Uuid) : Prop := ∃ d ∈ s.global.entities, d.uuid = some e

theorem getEntity_of_offers (h : s.Offers e) : ∃ d, s.global.getEntity e = .ok d := by
  obtain ⟨d, hd, he⟩ := h
  refine ⟨d, (single_select_eq_ok fun d' hd' he' => ?_).2 ⟨hd, he⟩⟩
  exact Table.eq_of_key hd' hd (he'.trans he.symm)

theorem ensures_offloadEntity (h : s.Offers e) : Ensures z Reliable True (Agent.offloadEntity e) s
    fun o s' => (s.global.getAllEntityInstances e = [] ∧ o = .ok e ∧ ¬ s'.Offers e) ∨
      s.global.getAllEntityInstances e ≠ [] ∧ o = .error (.err .hasInstances) := by
  -- rounds of the monitoring tasks do not touch entities
  have hstable : Stable fun s' => s'.global.entities = s.global.entities ∧
      s'.global.entityInstances = s.global.entityInstances := fun s₁ n st h₁ hm =>
    ⟨(monitor_moves hm).catalog.trans h₁.1, (monitor_moves hm).entities.trans h₁.2⟩
  have nofault : ∀ {P : Prop}, Faulty Reliable → P := fun hf => absurd hf not_faulty_reliable
  refine ensures_ask hstable ⟨rfl, rfl⟩ (fun s₁ h₁ => ?_) nofault
  obtain ⟨d, hd⟩ : ∃ d, s₁.global.getEntity e = .ok d :=
    getEntity_of_offers (by unfold Fos.Offers; rw [h₁.1]; exact h)
  simp only [Access.run, hd, Except.mapError, Prog.onOk_ok]
  refine ensures_ask hstable h₁ (fun s₂ h₂ => ?_) nofault
  have hsame : s₂.global.getAllEntityInstances e = s.global.getAllEntityInstances e := by
    unfold Global.getAllEntityInstances
    rw [h₂.2]
  simp only [Access.run, hsame, Except.mapError, Prog.onOk_ok]
  split
  · next hnil =>
    refine ensures_ask hstable h₂ (fun s₃ _ => ensures_pure (Or.inl ⟨?_, rfl, ?_⟩)) nofault
    · exact List.isEmpty_iff.1 hnil
    · rintro ⟨d', hd', he'⟩
      exact (Table.mem_erase.1 hd').2 he'
  · next hne => exact ensures_fail (Or.inr ⟨fun hl => hne (List.isEmpty_iff.2 hl), rfl⟩)

/-- `offload_entity(e)`, called now and with nothing failing, returns Ok, and then
`e` is not in the catalog. -/
def CanOffload (z : Session) (svc e : Uuid) (s : Fos) : Prop :=
  (system z Reliable).Ensures True (body z (.agent svc (.offloadEntity e))) s fun o s' =>
    o = .ok e ∧ ¬ s'.Offers e

theorem canOffload_iff (hsvc : z.server svc = some n) (h : s.Offers e) :
    CanOffload z svc e s ↔ s.global.getAllEntityInstances e = [] := by
  have hrun := (ensures_offloadEntity (z := z) h).bound not_faulty_reliable
  unfold CanOffload
  simp only [body, hsvc, Agent.handle]
  constructor
  · intro hcan
    obtain ⟨k, s', o, hk, hok⟩ := hcan.exists_end
    obtain ⟨hnil, -⟩ | ⟨-, herr⟩ := hrun.1 k s' o hk
    · exact hnil
    · rw [herr] at hok
      cases hok.1
  · intro hnil
    apply System.Ensures.mono hrun
    intro o s' ho
    obtain ⟨-, hok⟩ | ⟨hne, -⟩ := ho
    · exact hok
    · exact absurd hnil hne

/-- In every reachable state in which entity `e` is in the catalog, it can be
offloaded if and only if it has never been scheduled. -/
theorem offload_entity_iff {s₀ : Fos} {w : Calls} (h₀ : Logged s₀)
    (hreach : (machine z).Reach (fun _ _ => True) (Pool.idle s₀) w) (hsvc : z.server svc = some n)
    (he : w.state.Offers e) : CanOffload z svc e w.state ↔ ∀ i ∈ w.state.writes, i.id ≠ e := by
  have hlog : Logged w.state := hreach.inv (fun w => Logged w.state) h₀ fun _ _ _ h _ hs => h.of_writes (writes_of_step hs)
  rw [canOffload_iff hsvc he, List.eq_nil_iff_forall_not_mem]
  constructor
  · intro hnone i hi hid
    obtain ⟨j, hj, hjd⟩ := (hlog e).2 ⟨i, hi, hid⟩
    exact hnone j (Table.mem_select.2 ⟨hj, hjd⟩)
  · intro hnever i hi
    obtain ⟨hi, hid⟩ := Table.mem_select.1 hi
    obtain ⟨j, hj, hjd⟩ := (hlog e).1 ⟨i, hi, hid⟩
    exact hnever j hj hjd

theorem boot_logged (sites : List Site) (fdus : List FDUDescriptor)
    (entities : List EntityDescriptor) : Logged (boot sites fdus entities) :=
  fun _ => ⟨fun ⟨i, h, _⟩ => absurd h (Table.not_mem_empty i),
    fun ⟨_, h, _⟩ => absurd h List.not_mem_nil⟩

theorem offers_of_any (h : (s.global.entities.rows.any fun d => d.uuid = some e) = true) :
    s.Offers e := by
  obtain ⟨d, hd, he⟩ := List.any_eq_true.1 h
  exact ⟨d, hd, of_decide_eq_true he⟩

/-- The entity is onboarded. -/
def onboarding : List (Turn Proc Uuid) :=
  [.start (.agent 100 (.onboardEntity (.plain 60 [.plain 50])))] ++ fires 0 2

theorem offload_entity_iff_onboarded : ∃ w, (machine (Site.session oneSite)).Reach
    (fun _ _ => True) (Pool.idle (boot oneSite [] [])) w ∧ w.state.Offers 60 ∧
    CanOffload (Site.session oneSite) 100 60 w.state := by
  have hrun : ((machine (Site.session oneSite)).script resolve (fun _ _ => true) onboarding
      (Pool.idle (boot oneSite [] []))).any (fun w => w.state.writes.isEmpty &&
        w.state.global.entities.rows.any fun d => d.uuid = some 60) = true := by decide +kernel
  obtain ⟨w, hplay, hend⟩ := Machine.exists_script hrun
  obtain ⟨hwrites, hoffers⟩ := Bool.and_eq_true_iff.1 hend
  have hreach := Machine.reach_of_script (fun _ _ _ => trivial) hplay
  refine ⟨w, hreach, offers_of_any hoffers,
    (offload_entity_iff (boot_logged _ _ _) hreach rfl (offers_of_any hoffers)).2 fun i hi => ?_⟩
  rw [List.isEmpty_iff.1 hwrites] at hi
  exact absurd hi List.not_mem_nil

/-- Clients make calls on entities only. -/
def onEntities : Label Proc Choice Uuid → Bool
  | .start (.agent _ (.onboardEntity _)) | .start (.agent _ (.scheduleEntity _))
  | .start (.agent _ (.descheduleEntity _)) | .start (.agent _ (.offloadEntity _)) => true
  | .start _ => false
  | _ => true

/-- The entity is onboarded, scheduled and descheduled, and both tasks run to their end. -/
def lives : List (Turn Proc Uuid) :=
  onboarding ++ [.start (.agent 100 (.scheduleEntity 60))] ++ fires 0 5 ++ [.launch] ++
    fires 0 22 ++ [.env 0] ++ fires 0 21 ++ [.env 0] ++ fires 0 17 ++ [.env 0] ++ fires 0 8 ++
    [.start (.agent 100 (.descheduleEntity 0))] ++ fires 0 3 ++ [.launch] ++ fires 0 14 ++
    [.env 0] ++ fires 0 18 ++ [.env 0] ++ fires 0 34

theorem offloaded_not_removable : ∃ w, (machine (Site.session oneSite)).Reach
    (fun l _ => onEntities l) (Pool.idle (boot oneSite [] [])) w ∧ w.threads = [] ∧
    w.state.tasks = [] ∧ w.state.Offers 60 ∧ (∃ i ∈ w.state.writes, i.id = 60) ∧
    (∀ i ∈ w.state.writes, i.id = 60 → ∃ j ∈ w.state.global.entityInstances,
      j.path = i.path ∧ j.status = .offloaded) ∧
    ¬ CanOffload (Site.session oneSite) 100 60 w.state := by
  have hrun : ((machine (Site.session oneSite)).script resolve (fun l _ => onEntities l) lives
      (Pool.idle (boot oneSite [] []))).any (fun w => w.threads.isEmpty && (w.state.tasks.isEmpty &&
        ((w.state.global.entities.rows.any fun d => d.uuid = some 60) &&
        ((w.state.writes.any fun i => i.id = 60) &&
        w.state.writes.all fun i => w.state.global.entityInstances.rows.any fun j =>
          j.path = i.path ∧ j.status = .offloaded)))) = true := by decide +kernel
  obtain ⟨w, hplay, hend⟩ := Machine.exists_script hrun
  obtain ⟨hthreads, hend⟩ := Bool.and_eq_true_iff.1 hend
  obtain ⟨htasks, hend⟩ := Bool.and_eq_true_iff.1 hend
  obtain ⟨hoffers, hend⟩ := Bool.and_eq_true_iff.1 hend
  obtain ⟨hwritten, hall⟩ := Bool.and_eq_true_iff.1 hend
  have hstored : ∀ i ∈ w.state.writes, ∃ j ∈ w.state.global.entityInstances,
      j.path = i.path ∧ j.status = .offloaded := by
    intro i hi
    obtain ⟨j, hj, hji⟩ := List.any_eq_true.1 (List.all_eq_true.1 hall i hi)
    exact ⟨j, hj, of_decide_eq_true hji⟩
  obtain ⟨i, hi, hid⟩ := List.any_eq_true.1 hwritten
  obtain ⟨j, hj, hpath, -⟩ := hstored i hi
  refine ⟨w, Machine.reach_of_script (fun _ _ h => h) hplay, List.isEmpty_iff.1 hthreads,
    List.isEmpty_iff.1 htasks, offers_of_any hoffers, ⟨i, hi, of_decide_eq_true hid⟩,
    fun i hi _ => hstored i hi, fun hcan => ?_⟩
  have hnil := (canOffload_iff rfl (offers_of_any hoffers)).1 hcan
  have hmem : j ∈ w.state.global.getAllEntityInstances 60 :=
    Table.mem_select.2 ⟨hj, (congrArg Prod.fst hpath).trans (of_decide_eq_true hid)⟩
  rw [hnil] at hmem
  exact absurd hmem List.not_mem_nil

end Fog05
