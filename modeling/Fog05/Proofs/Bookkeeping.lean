import Fog05.Proofs.Boot
import Fog05.Proofs.Host
import Fog05.Proofs.Plugin

/-! What the hypervisor plugin keeps of its instances: the records in the local store and
those in its own map, over any sequence of calls next to any networking plugin. -/

namespace Fog05

open Conc M

namespace DummyHypervisor

variable {z : Session} {n p : Uuid} {N : NetworkingPlugin} {fails : Access → Prop} {t : Prop}
  {α σ : Type} {w w' : Seen N.State}

/-- The arcs of the life cycle. -/
inductive Arc : FDUState → FDUState → Prop
  | configure : Arc .defined .configured
  | start : Arc .configured .running
  | stop : Arc .running .configured
  | clean : Arc .configured .defined

/-- The plugin's map has the records of the local store, and what is configured or running
can be cleaned; between two calls the lock is free. -/
structure Tidy (w : Seen σ) : Prop where
  fdus : ∀ inst, inst ∈ w.fdus ↔ inst ∈ w.instances
  decodable : ∀ inst ∈ w.instances, inst.status = .configured ∨ inst.status = .running →
    Decodable inst
  free : w.locked = false
  issued : ∀ inst ∈ w.instances, inst.uuid ∈ w.issued

/-- What a call may do to the instances, by its outcome. -/
structure Lawful (w w' : Seen σ) (o : Except Exn α) : Prop where
  status : ∀ inst ∈ w.instances, ∀ inst' ∈ w'.instances, inst'.uuid = inst.uuid →
    inst' = inst ∨ Arc inst.status inst'.status
  new : ∀ inst' ∈ w'.instances, (∀ inst ∈ w.instances, inst'.uuid ≠ inst.uuid) →
    inst'.status = .defined
  gone : ∀ inst ∈ w.instances, (∀ inst' ∈ w'.instances, inst'.uuid ≠ inst.uuid) →
    inst.status = .defined
  refused : ∀ e, o = .error e → w'.instances = w.instances ∧ w'.fdus = w.fdus
  unwraps : o ≠ .error .panic

namespace Tidy

theorem eq_of_uuid (hw : Tidy w) {inst inst' : FDURecord} (h : inst ∈ w.instances)
    (h' : inst' ∈ w.instances) (huuid : inst.uuid = inst'.uuid) : inst = inst' :=
  Table.eq_of_key ((hw.fdus inst).2 h) ((hw.fdus inst').2 h') huuid

theorem of_getInstance {u : Uuid} {inst : FDURecord} (h : w.getInstance u = .ok inst) :
    inst ∈ w.instances ∧ inst.uuid = u := by
  unfold Seen.getInstance at h
  exact single_select_key h

theorem unchanged (hw : Tidy w) {o : Except Exn α} (hinstances : w'.instances = w.instances)
    (hfdus : w'.fdus = w.fdus) (hfree : w'.locked = false) (hissued : w.issued ⊆ w'.issued)
    (ho : o ≠ .error .panic) : Tidy w' ∧ Lawful w w' o := by
  refine ⟨⟨?_, ?_, hfree, ?_⟩, ⟨?_, ?_, ?_, fun _ _ => ⟨hinstances, hfdus⟩, ho⟩⟩
  · rw [hinstances, hfdus]
    exact hw.fdus
  · rw [hinstances]
    exact hw.decodable
  · intro inst hinst
    rw [hinstances] at hinst
    exact hissued (hw.issued inst hinst)
  · intro inst hinst inst' hinst' huuid
    rw [hinstances] at hinst'
    exact Or.inl (hw.eq_of_uuid hinst' hinst huuid)
  · intro inst' hinst' hnew
    rw [hinstances] at hinst'
    exact absurd rfl (hnew inst' hinst')
  · intro inst hinst hgone
    rw [hinstances] at hgone
    exact absurd rfl (hgone inst hinst)

theorem written (hw : Tidy w) {o : Except Exn α} (inst : FDURecord)
    (hold : ∀ r ∈ w.instances, r.uuid = inst.uuid → r.path = inst.path ∧ Arc r.status inst.status)
    (hnew : (∀ r ∈ w.instances, inst.uuid ≠ r.uuid) → inst.status = .defined)
    (hdecodable : inst.status = .configured ∨ inst.status = .running → Decodable inst)
    (hinstances : w'.instances = w.instances.put inst) (hfdus : w'.fdus = w.fdus.put inst)
    (hfree : w'.locked = false) (hissued : w.issued ⊆ w'.issued) (huuid : inst.uuid ∈ w'.issued)
    (ho : ∀ e, o ≠ .error e) : Tidy w' ∧ Lawful w w' o := by
  refine ⟨⟨fun r => ?_, ?_, hfree, ?_⟩, ⟨?_, ?_, ?_, fun e he => absurd he (ho e), ho _⟩⟩
  · rw [hinstances, hfdus, Table.mem_put, Table.mem_put, hw.fdus]
    have hkey : ∀ r ∈ w.instances, r.uuid ≠ inst.uuid ↔ r.path ≠ inst.path := fun r hr =>
      not_congr ⟨fun h => (hold r hr h).1, fun h => congrArg Prod.snd h⟩
    exact or_congr_right (and_congr_right fun hr => hkey r hr)
  · rw [hinstances]
    exact Table.forall_put hdecodable hw.decodable
  · rw [hinstances]
    exact Table.forall_put huuid fun r hr => hissued (hw.issued r hr)
  · intro r hr r' hr' hrr
    rw [hinstances] at hr'
    rcases Table.mem_put.1 hr' with rfl | ⟨hr', -⟩
    · exact Or.inr (hold r hr hrr.symm).2
    · exact Or.inl (hw.eq_of_uuid hr' hr hrr)
  · intro r' hr' hr'new
    rw [hinstances] at hr'
    rcases Table.mem_put.1 hr' with rfl | ⟨hr', -⟩
    · exact hnew hr'new
    · exact absurd rfl (hr'new r' hr')
  · intro r hr hgone
    rw [hinstances] at hgone
    obtain ⟨r', hr', hrr⟩ := Table.exists_mem_put ⟨r, hr, rfl⟩ inst
    exact absurd (congrArg Prod.snd hrr) (hgone r' hr')

theorem moved (hw : Tidy w) {o : Except Exn α} {inst : FDURecord} (hinst : inst ∈ w.instances)
    (inst' : FDURecord) (hpath : inst'.path = inst.path) (harc : Arc inst.status inst'.status)
    (hdecodable : inst'.status = .configured ∨ inst'.status = .running → Decodable inst')
    (hinstances : w'.instances = w.instances.put inst') (hfdus : w'.fdus = w.fdus.put inst')
    (hfree : w'.locked = false) (hissued : w'.issued = w.issued) (ho : ∀ e, o ≠ .error e) :
    Tidy w' ∧ Lawful w w' o := by
  have huuid : inst'.uuid = inst.uuid := congrArg Prod.snd hpath
  apply hw.written inst' ?_ ?_ hdecodable hinstances hfdus hfree
    (hissued ▸ List.Subset.refl _) ?_ ho
  · intro r hr hr'
    rw [hw.eq_of_uuid hr hinst (hr'.trans huuid)]
    exact ⟨hpath.symm, harc⟩
  · intro hnew
    exact absurd huuid (hnew inst hinst)
  · rw [hissued, huuid]
    exact hw.issued inst hinst

theorem removed (hw : Tidy w) {o : Except Exn α} {inst : FDURecord} (hinst : inst ∈ w.instances)
    (hstatus : inst.status = .defined) (hinstances : w'.instances = w.instances.erase inst.path)
    (hfdus : w'.fdus = w.fdus.erase inst.uuid) (hfree : w'.locked = false)
    (hissued : w'.issued = w.issued) (ho : ∀ e, o ≠ .error e) : Tidy w' ∧ Lawful w w' o := by
  refine ⟨⟨fun r => ?_, ?_, hfree, ?_⟩, ⟨?_, ?_, ?_, fun e he => absurd he (ho e), ho _⟩⟩
  · rw [hinstances, hfdus, Table.mem_erase, Table.mem_erase, hw.fdus]
    refine and_congr_right fun hr => not_congr ⟨fun h => ?_, fun h => congrArg Prod.snd h⟩
    rw [hw.eq_of_uuid hr hinst h]
  · intro r hr
    rw [hinstances] at hr
    exact hw.decodable r (Table.mem_erase.1 hr).1
  · intro r hr
    rw [hinstances] at hr
    rw [hissued]
    exact hw.issued r (Table.mem_erase.1 hr).1
  · intro r hr r' hr' hrr
    rw [hinstances] at hr'
    exact Or.inl (hw.eq_of_uuid (Table.mem_erase.1 hr').1 hr hrr)
  · intro r' hr' hnew
    rw [hinstances] at hr'
    exact absurd rfl (hnew r' (Table.mem_erase.1 hr').1)
  · intro r hr hgone
    by_cases h : r.path = inst.path
    · rwa [hw.eq_of_uuid hr hinst (congrArg Prod.snd h)]
    · rw [hinstances] at hgone
      exact absurd rfl (hgone r (Table.mem_erase.2 ⟨hr, h⟩))

end Tidy

/-! ### The calls -/

/-- Only what the networking plugin keeps may have changed. -/
def NetOnly (w : Seen σ) (o : Except Exn α) (w' : Seen σ) : Prop :=
  (∃ net, w' = { w with net }) ∧ o ≠ .error .panic

theorem NetOnly.after {net : N.State} {o : Except Exn α} (h : NetOnly { w with net } o w') :
    NetOnly w o w' := by
  obtain ⟨⟨net', rfl⟩, ho⟩ := h
  exact ⟨⟨net', rfl⟩, ho⟩

variable (hnet : t → N.Answering)

include hnet in
theorem netOnly_callNet {q : NetRequest} {f : NetObject → M α}
    (h : ∀ x net, (seen z n p N fails).Triple t (f x) { w with net }
      (NetOnly { w with net })) :
    (seen z n p N fails).Triple t (callNet n q >>= f) w (NetOnly w) := by
  apply triple_callNet (fun ht => hnet ht q w.net)
  · intro x m _
    exact (h x m).mono fun _ _ => NetOnly.after
  · intro e m _
    exact ⟨⟨m, rfl⟩, by simp⟩

theorem netOnly_bind {β : Type} {b : M α} {f : α → M β}
    (hb : (seen z n p N fails).Triple t b w (NetOnly w))
    (h : ∀ x net, (seen z n p N fails).Triple t (f x) { w with net } (NetOnly { w with net })) :
    (seen z n p N fails).Triple t (b >>= f) w (NetOnly w) := by
  apply View.triple_bind hb
  · rintro x w' ⟨⟨net, rfl⟩, -⟩
    exact (h x net).mono fun _ _ => NetOnly.after
  · rintro e w' ⟨hw', he⟩
    exact ⟨hw', fun h => he (by cases h; rfl)⟩

theorem netOnly_pure {a : α} : (seen z n p N fails).Triple t (pure a) w (NetOnly w) :=
  View.triple_pure ⟨⟨w.net, rfl⟩, by simp⟩

theorem netOnly_fail {e : FError} : (seen z n p N fails).Triple t (fail e : M α) w (NetOnly w) :=
  View.triple_err ⟨⟨w.net, rfl⟩, by simp⟩

include hnet in
theorem netOnly_createConnectionPoints (l : List ConnectionPointDescriptor)
    (cps : List FDURecordConnectionPoint) :
    (seen z n p N fails).Triple t (createConnectionPoints n l cps) w (NetOnly w) := by
  induction l generalizing w cps with
  | nil => exact netOnly_pure
  | cons cp l ih => exact netOnly_callNet hnet fun _ _ => ih _

include hnet in
theorem netOnly_connect (cps : List FDURecordConnectionPoint) (pair : Uuid)
    (cpId : Option String) :
    (seen z n p N fails).Triple t (connect n cps pair cpId) w (NetOnly w) := by
  cases cpId with
  | none => exact netOnly_callNet hnet fun _ _ => netOnly_pure
  | some cpId =>
    simp only [connect]
    cases cps.find? fun c => c.id = cpId with
    | none => exact netOnly_fail
    | some cp => exact netOnly_callNet hnet fun _ _ => netOnly_pure

include hnet in
theorem netOnly_createInterfaces (netns : Uuid) (cps : List FDURecordConnectionPoint)
    (l : List Interface) (ifs : List FDURecordInterface) :
    (seen z n p N fails).Triple t (createInterfaces n netns cps l ifs) w (NetOnly w) := by
  induction l generalizing w ifs with
  | nil => exact netOnly_pure
  | cons intf l ih =>
    refine netOnly_callNet hnet fun viface net => ?_
    cases viface.pair with
    | none => exact netOnly_fail
    | some pair =>
      rw [okOr_some_bind]
      exact netOnly_bind (netOnly_connect hnet cps pair intf.cpId) fun _ _ => ih _

include hnet in
theorem netOnly_callAll (l : List NetRequest) :
    (seen z n p N fails).Triple t (callAll n l) w (NetOnly w) := by
  induction l generalizing w with
  | nil => exact netOnly_pure
  | cons q l ih => exact netOnly_callNet hnet fun _ _ => ih

/-- The plugin is left in order, and the instances as the outcome allows. -/
def Keeps (w : Seen σ) (o : Except Exn α) (w' : Seen σ) : Prop := Tidy w' ∧ Lawful w w' o

theorem Tidy.failed (hw : Tidy w) {e : FError} : Keeps w (.error (.err e) : Except Exn α) w :=
  hw.unchanged rfl rfl hw.free (List.Subset.refl _) (by simp)

/-- Work under the lock that has failed without writing a record. -/
theorem NetOnly.keeps {β : Type} {e : Exn} (h : NetOnly { w with locked := true }
      (.error e : Except Exn α) w') (hw : Tidy w) :
    Keeps w (.error e : Except Exn β) { w' with locked := false } := by
  obtain ⟨⟨net, rfl⟩, he⟩ := h
  exact hw.unchanged rfl rfl rfl (List.Subset.refl _) fun h => he (by cases h; rfl)

def configured (inst : FDURecord) (netns : Uuid) (interfaces : List FDURecordInterface)
    (cps : List FDURecordConnectionPoint) : FDURecord :=
  { inst with
    hypervisorSpecific := some (.dummy netns)
    interfaces
    connectionPoints := cps
    status := .configured }

section Calls

variable (hlocal : ∀ a, AtLocalStore a → ¬ fails a) {u : Uuid}

theorem keeps_transition (hw : Tidy w) {before : FDUState} {work : FDURecord → M Unit}
    (hwork : ∀ inst ∈ w.instances, inst.status = before →
      (seen z n p N fails).Triple t (work inst) { w with locked := true } fun o w' =>
        Keeps w (o.map fun _ => u) { w' with locked := false }) :
    (seen z n p N fails).Triple t (transition z n p before u work) w (Keeps w) := by
  apply triple_transition hw.free
  · intro inst hinst hstatus
    exact hwork inst (Tidy.of_getInstance hinst).1 hstatus
  · exact fun e _ => hw.failed

include hlocal in
theorem keeps_startFdu (hw : Tidy w) :
    (seen z n p N fails).Triple t (startFdu z n p u) w (Keeps w) := by
  apply keeps_transition hw
  intro inst hinst hstatus
  apply (triple_store (hlocal _ trivial)).mono
  rintro o w' ⟨rfl, rfl⟩
  exact hw.moved hinst { inst with status := .running } rfl (hstatus ▸ Arc.start)
    (fun _ => hw.decodable inst hinst (Or.inl hstatus)) rfl rfl rfl rfl fun _ h => by cases h

include hlocal in
theorem keeps_stopFdu (hw : Tidy w) :
    (seen z n p N fails).Triple t (stopFdu z n p u) w (Keeps w) := by
  apply keeps_transition hw
  intro inst hinst hstatus
  apply (triple_store (hlocal _ trivial)).mono
  rintro o w' ⟨rfl, rfl⟩
  exact hw.moved hinst { inst with status := .configured } rfl (hstatus ▸ Arc.stop)
    (fun _ => hw.decodable inst hinst (Or.inr hstatus)) rfl rfl rfl rfl fun _ h => by cases h

include hlocal hnet in
theorem keeps_configureFdu (hw : Tidy w) :
    (seen z n p N fails).Triple t (configureFdu z n p u) w (Keeps w) := by
  apply keeps_transition hw
  intro inst hinst hstatus
  apply triple_fduInfo
  · intro d _
    apply triple_callNet (fun ht => hnet ht _ _)
    · intro ns m _
      apply View.triple_bind (netOnly_createConnectionPoints hnet _ _)
      · rintro cps w₁ ⟨⟨m₁, rfl⟩, -⟩
        apply View.triple_bind (netOnly_createInterfaces hnet _ _ _ _)
        · rintro ifs w₂ ⟨⟨m₂, rfl⟩, -⟩
          apply (triple_store (hlocal _ trivial)).mono
          rintro o w₃ ⟨rfl, rfl⟩
          refine hw.moved hinst (configured inst ns.uuid ifs cps) rfl ?_ (fun _ => ⟨_, rfl⟩) rfl rfl
            rfl rfl fun _ h => by cases h
          exact hstatus ▸ Arc.configure
        · exact fun e w' h => h.after.after.keeps hw
      · exact fun e w' h => h.after.keeps hw
    · exact fun e m _ => NetOnly.keeps (α := Unit) ⟨⟨m, rfl⟩, by simp⟩ hw
  · exact fun e _ => NetOnly.keeps (α := Unit) ⟨⟨w.net, rfl⟩, by simp⟩ hw

include hlocal hnet in
theorem keeps_cleanFdu (hw : Tidy w) :
    (seen z n p N fails).Triple t (cleanFdu z n p u) w (Keeps w) := by
  apply keeps_transition hw
  intro inst hinst hstatus
  obtain ⟨netns, hnetns⟩ := hw.decodable inst hinst (Or.inl hstatus)
  have hdecode : decodeSpecific inst.hypervisorSpecific = pure netns := by rw [hnetns]; rfl
  simp only [hdecode]
  apply View.triple_bind (netOnly_callAll hnet _)
  · rintro _ w' ⟨⟨m, rfl⟩, -⟩
    apply (triple_store (hlocal _ trivial)).mono
    rintro o w' ⟨rfl, rfl⟩
    refine hw.moved hinst (cleaned inst) rfl ?_ (by simp [cleaned]) rfl rfl rfl rfl
      fun _ h => by cases h
    exact hstatus ▸ Arc.clean
  · exact fun e w' h => h.keeps hw

include hlocal in
theorem keeps_undefineFdu (hw : Tidy w) :
    (seen z n p N fails).Triple t (undefineFdu z n p u) w (Keeps w) := by
  apply triple_transition hw.free
  · intro inst hget hstatus
    obtain ⟨hinst, rfl⟩ := Tidy.of_getInstance hget
    apply triple_remove
    have hget' : Seen.getInstance { w with locked := true, fdus := w.fdus.erase inst.uuid }
        inst.uuid = .ok inst := hget
    apply (triple_removeInstance hlocal hget').mono
    rintro o w' ⟨rfl, rfl⟩
    exact hw.removed hinst hstatus rfl rfl rfl rfl fun _ h => by cases h
  · exact fun e _ => hw.failed

include hlocal in
theorem keeps_defineFdu (hw : Tidy w) {fdu : FDUDescriptor} (hfdu : fdu.uuid.isSome) :
    (seen z n p N fails).Triple t (defineFdu z n p fdu) w (Keeps w) := by
  obtain ⟨f, hf⟩ := Option.isSome_iff_exists.1 hfdu
  apply triple_getNodeUuid
  · apply triple_withLock hw.free
    apply triple_newUuid
    intro v hv
    rw [hf, unwrap_some_bind]
    apply View.triple_bind (triple_store (hlocal _ trivial))
    · rintro _ w' ⟨-, rfl⟩
      have hother : ∀ r ∈ w.instances, r.uuid ≠ v := fun r hr hrv => hv (hrv ▸ hw.issued r hr)
      apply View.triple_pure
      exact hw.written (newInstance v f n) (fun r hr hrv => absurd hrv (hother r hr))
        (fun _ => rfl) (by simp [newInstance]) rfl rfl rfl (List.subset_cons_self _ _)
        List.mem_cons_self fun _ h => by cases h
    · rintro e w' ⟨he, -⟩
      cases he
  · exact fun e _ => hw.failed

theorem keeps_getFduStatus (hw : Tidy w) :
    (seen z n p N fails).Triple t (getFduStatus z n u) w (Keeps w) := by
  apply triple_getNodeUuid
  · have hread : (seen z n p N fails).Triple t (ask (.localGetInstance n u)) w fun o w' =>
        w' = w ∧ Arrives fails (w.getInstance u) o :=
      triple_read fun s hs => Prod.ext (hs.getInstance u) rfl
    apply hread.mono
    rintro o w' ⟨rfl, ho⟩
    exact hw.unchanged rfl rfl hw.free (List.Subset.refl _) ho.ne_panic
  · exact fun e _ => hw.failed

/-- A call as the agent makes it: a descriptor comes with its uuid. -/
def Carries : PluginRequest → Prop
  | .defineFdu fdu => fdu.uuid.isSome
  | _ => True

include hlocal hnet in
theorem keeps_serve (hw : Tidy w) {q : PluginRequest} (hq : Carries q) :
    (seen z n p N fails).Triple t (serve z n p q) w (Keeps w) := by
  cases q with
  | defineFdu fdu => exact keeps_defineFdu hlocal hw hq
  | undefineFdu u => exact keeps_undefineFdu hlocal hw
  | configureFdu u => exact keeps_configureFdu hnet hlocal hw
  | cleanFdu u => exact keeps_cleanFdu hnet hlocal hw
  | startFdu u => exact keeps_startFdu hlocal hw
  | stopFdu u => exact keeps_stopFdu hlocal hw
  | getFduStatus u => exact keeps_getFduStatus hw

end Calls

/-! ### Sequences of calls -/

/-- What is seen of a state. -/
def sight (n p : Uuid) (s : Fos × σ) : Seen σ where
  instances := (s.1.node n).instances
  fdus := (s.1.plugin p).fdus
  locked := (s.1.plugin p).locked
  catalog := s.1.global.fdus
  issued := s.1.issued
  net := s.2

theorem sight_of (s : Fos × σ) : (sight n p s).Of n p s :=
  ⟨rfl, rfl, rfl, List.Subset.refl _, rfl⟩

theorem Keeps.sight {o : Except Exn α} {s : Fos × N.State} (h : Keeps w o w') (hs : w'.Of n p s) :
    Keeps w o (sight n p s) := by
  obtain ⟨⟨hfdus, hdecodable, hfree, hissued⟩, ⟨hstatus, hnew, hgone, hrefused, hunwraps⟩⟩ := h
  have hplugin := hs.plugin
  unfold DummyHypervisor.sight
  refine ⟨⟨?_, ?_, ?_, ?_⟩, ⟨?_, ?_, ?_, ?_, hunwraps⟩⟩
  · simpa [hplugin, hs.instances] using hfdus
  · simpa [hs.instances] using hdecodable
  · simpa [hplugin] using hfree
  · intro inst hinst
    exact hs.issued (hissued inst (by simpa [hs.instances] using hinst))
  · simpa [hs.instances] using hstatus
  · simpa [hs.instances] using hnew
  · simpa [hs.instances] using hgone
  · simpa [hplugin, hs.instances] using hrefused

variable (z n p N fails) in
/-- The states of a plugin that is the only one to write the instances of its node: it starts
out empty and serves its calls one at a time, and anything else may change between them. -/
inductive Managed : Fos × N.State → Prop
  | start {s} : (s.1.node n).instances = Table.empty → s.1.plugin p = ⟨Table.empty, false⟩ →
      Managed s
  | between {s s'} : Managed s → (s'.1.node n).instances = (s.1.node n).instances →
      s'.1.plugin p = s.1.plugin p → s.1.issued ⊆ s'.1.issued → Managed s'
  | call {s s' q o} : Managed s → Carries q → (host z n p N fails).Ends (serve z n p q) s o s' →
      Managed s'

variable (hlocal : ∀ a, AtLocalStore a → ¬ fails a) {s : Fos × N.State}

include hlocal in
theorem ensures_serve (hs : Tidy (sight n p s)) {q : PluginRequest} (hq : Carries q) :
    (host z n p N fails).Ensures N.Answering (serve z n p q) s fun o s' =>
      Tidy (sight n p s') ∧ Lawful (sight n p s) (sight n p s') o :=
  (keeps_serve id hlocal hs hq s (sight_of s)).mono fun _ _ ⟨_, hw, hs'⟩ => hw.sight hs'

include hlocal in
theorem Managed.tidy (h : Managed z n p N fails s) : Tidy (sight n p s) := by
  induction h with
  | start hinstances hplugin =>
    unfold sight
    constructor <;> simp [hinstances, hplugin]
  | between _ hinstances hplugin hissued ih =>
    obtain ⟨hfdus, hdecodable, hfree, hused⟩ := ih
    unfold sight at *
    constructor
    · simpa [hplugin, hinstances] using hfdus
    · simpa [hinstances] using hdecodable
    · simpa [hplugin] using hfree
    · intro inst hinst
      exact hissued (hused inst (by simpa [hinstances] using hinst))
  | call _ hq hends ih =>
    obtain ⟨k, hrun⟩ := hends
    exact ((ensures_serve hlocal ih hq).1 k _ _ hrun).1

include hlocal in
/-- In every state the plugin is in order, and every call leaves it so and changes the
instances as the life cycle allows; it returns if the networking plugin answers. -/
theorem instances_kept (h : Managed z n p N fails s) :
    Tidy (sight n p s) ∧ ∀ q, Carries q →
      (host z n p N fails).Ensures N.Answering (serve z n p q) s fun o s' =>
        Tidy (sight n p s') ∧ Lawful (sight n p s) (sight n p s') o :=
  ⟨h.tidy hlocal, fun _ hq => ensures_serve hlocal (h.tidy hlocal) hq⟩

/-- A host with nothing on it, next to the networking plugin of the repository. -/
def bareHost : Fos × DummyNetwork.Net := (boot [] [] [], DummyNetwork.Net.blank)

theorem instances_kept_defined : ∃ o s,
    (host (Site.session []) 0 7 (DummyNetwork.plugin False) fun _ => False).Ends
      (serve (Site.session []) 0 7 (.defineFdu (.plain 50))) bareHost o s ∧
    Tidy (sight 0 7 s) ∧ ∀ q, Carries q →
      (host (Site.session []) 0 7 (DummyNetwork.plugin False) fun _ => False).Ensures
        (DummyNetwork.plugin False).Answering (serve (Site.session []) 0 7 q) s fun o' s' =>
          Tidy (sight 0 7 s') ∧ Lawful (sight 0 7 s) (sight 0 7 s') o' := by
  have hstart : Managed (Site.session []) 0 7 (DummyNetwork.plugin False) (fun _ => False)
      bareHost := Managed.start rfl rfl
  obtain ⟨s, o, hends⟩ : ∃ s o,
      (host (Site.session []) 0 7 (DummyNetwork.plugin False) fun _ => False).Ends
        (serve (Site.session []) 0 7 (.defineFdu (.plain 50))) bareHost o s := by
    have hensures := ensures_serve (N := DummyNetwork.plugin False) (z := Site.session [])
      (fun _ _ h => h)
      (hstart.tidy fun _ _ h => h) (q := .defineFdu (.plain 50)) rfl
    obtain ⟨k, s, o, hrun⟩ := hensures.2 DummyNetwork.plugin_answering 0 _ _ (System.Runs.refl _ _)
    exact ⟨s, o, k, hrun⟩
  have hcarries : Carries (.defineFdu (.plain 50)) := rfl
  exact ⟨o, s, hends, instances_kept (fun _ _ h => h) (hstart.call hcarries hends)⟩

end DummyHypervisor

end Fog05
