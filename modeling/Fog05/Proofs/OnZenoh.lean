import Fog05.Conc.Simulation
import Fog05.Proofs.Boot
import Fog05.Proofs.Locking
import Fog05.Proofs.Stocks

/-! The deployment on a zenoh store does what the deployment on tables does: started with the
same sites and the same catalog, and driven by the same labels, the calls make the same steps,
get the same answers and come to the same outcomes. -/

namespace Fog05

open Conc ZConnector

variable [DisplayUuid] [Serde NodeInfo] [Serde NodeStatus] [Serde FDUDescriptor]
  [Serde FDURecord] [Serde EntityDescriptor] [Serde EntityRecord] {c : ZConnector.Global}
  {s : Fos} {s' : ZFos}

section Access

omit [DisplayUuid] [Serde NodeInfo] [Serde NodeStatus] [Serde FDUDescriptor]
  [Serde FDURecord] [Serde EntityDescriptor] [Serde EntityRecord]

theorem isSome_of_mem {α : Type} {uuid : α → Option Uuid} {l : List α} {d : α}
    (h : d ∈ l.filter fun d => (uuid d).isSome) : uuid d ≠ none :=
  Option.isSome_iff_ne_none.1 (List.mem_filter.1 h).2

theorem fits_one {u : Uuid} {l : List Uuid} : Fits [some u] l ↔ l = [u] := by
  rw [show [some u] = [u].map some from rfl, Space.fits_map_some, eq_comm]

theorem fits_toList {u : Uuid} {o : Option Uuid} : decide (o = some u) = true ↔
    Fits [some u] o.toList := by
  rw [fits_one, decide_eq_true_iff]
  cases o <;> simp

theorem fits_uuid {u v : Uuid} : decide (v = u) = true ↔ Fits [some u] [v] := by
  rw [fits_one, decide_eq_true_iff, List.cons.injEq, and_iff_left rfl]

theorem fits_owner {f : Uuid} {k : Uuid × Uuid} : decide (k.1 = f) = true ↔
    Fits [some f, none] [k.1, k.2] := by
  simp [Fits, eq_comm]

theorem fits_instance {u : Uuid} {k : Uuid × Uuid} : decide (k.2 = u) = true ↔
    Fits [none, some u] [k.1, k.2] := by
  simp [Fits, eq_comm]

theorem fits_all {u : Uuid} : true = true ↔ Fits [none] [u] := by
  simp [Fits]

theorem toList_inj {o o' : Option Uuid} : o.toList = o'.toList ↔ o = o' := by
  cases o <;> cases o' <;> simp

theorem pair_inj {a b a' b' : Uuid} : [a, b] = [a', b'] ↔ (a, b) = (a', b') := by
  simp

theorem uuid_inj {u v : Uuid} : [u] = [v] ↔ u = v := by
  simp

theorem toList_eq_singleton {o : Option Uuid} {u : Uuid} : o.toList = [u] ↔ o = some u := by
  cases o <;> simp

theorem rows_setNode {st : Store} {n : Uuid} {m : Node} {k : Kind} (h : k ≠ .nodeInstance n) :
    k.rows (st.setNode n m) = k.rows st := by
  cases k with
  | nodeInstance n' =>
    have hn : n' ≠ n := fun hn => h (hn ▸ rfl)
    simp only [Kind.rows, Store.setNode, Function.update_of_ne hn]
  | _ => rfl

theorem rows_setNode_self {st : Store} {n : Uuid} {m : Node} :
    (Kind.nodeInstance n).rows (st.setNode n m) = m.instances.rows := by
  simp only [Kind.rows, Store.setNode, Function.update_self]

theorem changes_localPut {st : Store} (n : Uuid) (inst : FDURecord) (m : Uuid) :
    ((st.localPut n inst).node m).changes =
      (st.node m).changes ++ (Kind.nodeInstance n).sent inst m := by
  by_cases hm : m = n
  · subst hm
    simp only [Store.localPut, Store.setNode, Function.update_self, Kind.sent, if_true]
  · have hk : Kind.nodeInstance n ≠ .nodeInstance m := fun he => hm (Kind.nodeInstance.inj he).symm
    rw [Kind.sent_of_ne hk, List.append_nil]
    simp only [Store.localPut, Store.setNode, Function.update_of_ne hm]

theorem changes_localDelete {st : Store} (n f u m : Uuid) :
    ((st.localDelete n f u).node m).changes = (st.node m).changes := by
  by_cases hm : m = n
  · subst hm
    simp only [Store.localDelete, Store.setNode, Function.update_self]
  · simp only [Store.localDelete, Store.setNode, Function.update_of_ne hm]

end Access

omit [Serde NodeInfo] [Serde NodeStatus] [Serde FDURecord] [Serde EntityDescriptor]
  [Serde EntityRecord] in
theorem addFdu_eq {d : FDUDescriptor} (hd : d.uuid ≠ none) :
    c.addFdu d = Zenoh.add ((Kind.fdu.space c).path (Kind.fdu.ids d)) d := by
  obtain ⟨f, hf⟩ := Option.ne_none_iff_exists'.1 hd
  funext z
  simp only [Global.addFdu, hf, Kind.ids]
  rfl

omit [Serde NodeInfo] [Serde NodeStatus] [Serde FDURecord] [Serde FDUDescriptor]
  [Serde EntityRecord] in
theorem addEntity_eq {d : EntityDescriptor} (hd : d.uuid ≠ none) :
    c.addEntity d = Zenoh.add ((Kind.entity.space c).path (Kind.entity.ids d)) d := by
  obtain ⟨e, he⟩ := Option.ne_none_iff_exists'.1 hd
  funext z
  simp only [Global.addEntity, he, Kind.ids]
  rfl

omit [Serde NodeInfo] [Serde NodeStatus] [Serde FDURecord] [Serde FDUDescriptor]
  [Serde EntityDescriptor] [Serde EntityRecord] in
theorem takes_one {sp : Space} (hsp : sp.Takes 1) {o : Option Uuid} (ho : o ≠ none) :
    sp.Takes o.toList.length := by
  obtain ⟨u, rfl⟩ := Option.ne_none_iff_exists'.1 ho
  exact hsp

/-- An access by the connectors answers what the access to the tables does, and does the same. -/
theorem perform_agrees (h : Carries c s s') (a : Access) (hk : Cmd.Keyed (.access a)) :
    (a.perform c s').1 = (a.run s).1 ∧ Carries c (a.run s).2 (a.perform c s').2 := by
  cases a with
  | getFdu f =>
    exact ⟨(h.stocks .fdu).getOne Kind.owned Kind.takes (q := [some f]) rfl fun _ => fits_toList, h⟩
  | getEntity e =>
    exact ⟨(h.stocks .entity).getOne Kind.owned Kind.takes (q := [some e]) rfl
      fun _ => fits_toList, h⟩
  | getInstance u =>
    exact ⟨(h.stocks .fduInstance).getOne Kind.owned Kind.takes (q := [none, some u]) rfl
      fun a => fits_instance (k := a.path), h⟩
  | getAllFduInstances f =>
    exact ⟨(h.stocks .fduInstance).getAll Kind.owned Kind.takes (q := [some f, none]) rfl
      fun a => fits_owner (k := a.path), h⟩
  | getEntityInstance u =>
    exact ⟨(h.stocks .entityInstance).getOne Kind.owned Kind.takes (q := [none, some u]) rfl
      fun a => fits_instance (k := a.path), h⟩
  | getAllEntityInstances e =>
    exact ⟨(h.stocks .entityInstance).getAll Kind.owned Kind.takes (q := [some e, none]) rfl
      fun a => fits_owner (k := a.path), h⟩
  | getNodeInfo n =>
    exact ⟨(h.stocks .nodeInfo).getOne Kind.owned Kind.takes (q := [some n]) rfl
      fun _ => fits_uuid, h⟩
  | getNodeStatus n =>
    exact ⟨(h.stocks .nodeStatus).getOne Kind.owned Kind.takes (q := [some n]) rfl
      fun _ => fits_uuid, h⟩
  | getAllNodes =>
    refine ⟨?_, h⟩
    have hall := (h.stocks .nodeInfo).getAll Kind.owned Kind.takes (q := [none]) rfl
      (p := fun _ => true) fun _ => fits_all
    rw [List.filter_true] at hall
    exact hall
  | localGetInstance n u =>
    exact ⟨(h.stocks (.nodeInstance n)).getOne Kind.owned Kind.takes (q := [none, some u]) rfl
      fun a => fits_instance (k := a.path), h⟩
  | request q => exact ⟨rfl, h⟩
  | reply q o => exact ⟨rfl, ⟨h.stocks, h.changes, h.hypervisors, h.plugin, h.issued, h.tasks⟩⟩
  | putFdu d =>
    simp only [Access.perform, addFdu_eq hk]
    exact h.add (k := .fdu) (takes_one Kind.takes hk) ⟨fun _ => rfl, rfl, rfl, rfl⟩
      (rows_eq_update (rows_put (fun _ _ => toList_inj) _ d) fun k' hk' => by
        cases k' <;> first | rfl | exact absurd rfl hk') fun _ => (List.append_nil _).symm
  | putEntity d =>
    simp only [Access.perform, addEntity_eq hk]
    exact h.add (k := .entity) (takes_one Kind.takes hk) ⟨fun _ => rfl, rfl, rfl, rfl⟩
      (rows_eq_update (rows_put (fun _ _ => toList_inj) _ d) fun k' hk' => by
        cases k' <;> first | rfl | exact absurd rfl hk') fun _ => (List.append_nil _).symm
  | putEntityInstance inst =>
    exact h.add (k := .entityInstance) rfl ⟨fun _ => rfl, rfl, rfl, rfl⟩
      (rows_eq_update (rows_put (fun _ _ => pair_inj) _ inst) fun k' hk' => by
        cases k' <;> first | rfl | exact absurd rfl hk') fun _ => (List.append_nil _).symm
  | deleteFdu f =>
    exact h.erase (k := .fdu) (u := [f]) rfl ⟨fun _ => rfl, rfl, rfl, rfl⟩
      (rows_eq_update (rows_erase _ fun _ => toList_eq_singleton) fun k' hk' => by
        cases k' <;> first | rfl | exact absurd rfl hk') fun _ => rfl
  | deleteEntity e =>
    exact h.erase (k := .entity) (u := [e]) rfl ⟨fun _ => rfl, rfl, rfl, rfl⟩
      (rows_eq_update (rows_erase _ fun _ => toList_eq_singleton) fun k' hk' => by
        cases k' <;> first | rfl | exact absurd rfl hk') fun _ => rfl
  | deleteInstance f u =>
    exact h.erase (k := .fduInstance) (u := [f, u]) rfl ⟨fun _ => rfl, rfl, rfl, rfl⟩
      (rows_eq_update (rows_erase _ fun _ => pair_inj) fun k' hk' => by
        cases k' <;> first | rfl | exact absurd rfl hk') fun _ => rfl
  | localPutInstance n inst =>
    exact h.add (k := .nodeInstance n) rfl ⟨fun _ => localPut_hypervisors, rfl, rfl, rfl⟩
      (rows_eq_update (rows_setNode_self.trans (rows_put (fun _ _ => pair_inj) _ inst)) fun k' =>
        rows_setNode) (changes_localPut n inst)
  | localDeleteInstance n f u =>
    exact h.erase (k := .nodeInstance n) (u := [f, u]) rfl
      ⟨fun _ => localDelete_hypervisors, rfl, rfl, rfl⟩
      (rows_eq_update (rows_setNode_self.trans (rows_erase _ fun _ => pair_inj)) fun k' =>
        rows_setNode) (changes_localDelete n f u)

theorem Carries.beside (h : Carries c s s') {t : Fos} {t' : ZFos} (hst : t.toStore = s.toStore)
    (hzenoh : t'.zenoh = s'.zenoh) (hsub : t'.subscription = s'.subscription)
    (hhyp : t'.hypervisors = s'.hypervisors) (hplugin : t'.plugin = t.plugin)
    (hissued : t'.issued = t.issued) (htasks : t'.tasks = t.tasks) : Carries c t t' where
  stocks := by rw [hzenoh, hst]; exact h.stocks
  changes n := by rw [hsub, hst]; exact h.changes n
  hypervisors n := by rw [hhyp, hst]; exact h.hypervisors n
  plugin := hplugin
  issued := hissued
  tasks := htasks

theorem exec_agrees (h : Carries c s s') {cmd : Cmd} (hk : cmd.Keyed) (ch : Choice) :
    Agree (Carries c) (exec cmd ch s) (zexec c cmd ch s') := by
  cases cmd with
  | access a =>
    cases ch with
    | go =>
      obtain ⟨hans, hst⟩ := perform_agrees h a hk
      exact .some ⟨hans.symm, hst⟩
    | fault e => exact .some ⟨rfl, h⟩
    | _ => exact .none
  | net n q =>
    cases ch with
    | net o => exact .some ⟨rfl, h⟩
    | _ => exact .none
  | hypervisor n name =>
    cases ch with
    | go => exact .some ⟨congrFun (h.hypervisors n).symm name, h⟩
    | _ => exact .none
  | lock p =>
    cases ch with
    | go =>
      simp only [exec, zexec, h.plugin]
      split
      · exact .none
      · exact .some ⟨rfl, h.beside rfl rfl rfl rfl
          (by rw [ZFos.setPlugin, Fos.setLock, h.plugin]) h.issued h.tasks⟩
    | _ => exact .none
  | unlock p =>
    cases ch with
    | go =>
      exact .some ⟨rfl, h.beside rfl rfl rfl rfl
        (by rw [ZFos.setPlugin, Fos.setLock, h.plugin]) h.issued h.tasks⟩
    | _ => exact .none
  | insert p inst =>
    cases ch with
    | go =>
      exact .some ⟨rfl, h.beside rfl rfl rfl rfl
        (by rw [ZFos.setPlugin, Fos.setFdus, h.plugin]) h.issued h.tasks⟩
    | _ => exact .none
  | remove p u =>
    cases ch with
    | go =>
      exact .some ⟨rfl, h.beside rfl rfl rfl rfl
        (by rw [ZFos.setPlugin, Fos.setFdus, h.plugin]) h.issued h.tasks⟩
    | _ => exact .none
  | newUuid =>
    cases ch with
    | uuid u =>
      simp only [exec, zexec, h.issued]
      split
      · exact .none
      · exact .some ⟨rfl, h.beside rfl rfl rfl rfl h.plugin rfl h.tasks⟩
    | _ => exact .none
  | choose l =>
    cases l with
    | nil =>
      cases ch with
      | go => exact .some ⟨rfl, h⟩
      | _ => exact .none
    | cons u l =>
      cases ch with
      | pick i =>
        simp only [exec, zexec]
        cases (u :: l)[i]? with
        | none => exact .none
        | some v => exact .some ⟨rfl, h⟩
      | _ => exact .none
  | pathExists path =>
    cases ch with
    | path b => exact .some ⟨rfl, h⟩
    | _ => exact .none
  | spawn t =>
    cases ch with
    | go =>
      exact .some ⟨rfl, h.beside rfl rfl rfl rfl h.plugin h.issued (by rw [h.tasks])⟩
    | _ => exact .none

omit [DisplayUuid] [Serde NodeInfo] [Serde NodeStatus] [Serde FDUDescriptor]
  [Serde EntityDescriptor] [Serde EntityRecord] in
theorem nextSent_eq (l : List Change) :
    (nextSent l = none ∧ l.filterMap (Local.sent deserializeData) = []) ∨
      ∃ inst rest, nextSent l = some (inst, rest) ∧ l.filterMap (Local.sent deserializeData) =
        inst :: rest.filterMap (Local.sent deserializeData) := by
  induction l with
  | nil => exact Or.inl ⟨rfl, rfl⟩
  | cons change l ih =>
    cases hs : Local.sent deserializeData change with
    | some inst =>
      exact Or.inr ⟨inst, l, by simp only [nextSent, hs], List.filterMap_cons_some hs⟩
    | none => simpa only [nextSent, hs, List.filterMap_cons_none hs] using ih

theorem Carries.read (h : Carries c s s') {n : Uuid} {m : Node} {l : List Change}
    (hrows : m.instances = (s.node n).instances) (hhyp : m.hypervisors = (s.node n).hypervisors)
    (hl : l.filterMap (Local.sent deserializeData) = m.changes) :
    Carries c { s with toStore := s.toStore.setNode n m }
      { s' with subscription := Function.update s'.subscription n l } where
  stocks k := by
    have hk : k.rows (s.toStore.setNode n m) = k.rows s.toStore := by
      by_cases hk : k = .nodeInstance n
      · subst hk
        rw [rows_setNode_self, hrows]
        rfl
      · exact rows_setNode hk
    show (k.space c).Shelf k.rank k.ids s'.zenoh (k.rows (s.toStore.setNode n m))
    rw [hk]
    exact h.stocks k
  changes n' := by
    by_cases hn : n' = n
    · subst hn
      simp only [Store.setNode, Function.update_self, hl]
    · simp only [Store.setNode, Function.update_of_ne hn]
      exact h.changes n'
  hypervisors n' := by
    by_cases hn : n' = n
    · subst hn
      simp only [Store.setNode, Function.update_self, hhyp]
      exact h.hypervisors n'
    · simp only [Store.setNode, Function.update_of_ne hn]
      exact h.hypervisors n'
  plugin := h.plugin
  issued := h.issued
  tasks := h.tasks

theorem Carries.copy (h : Carries c s s') (inst : FDURecord) :
    Carries c { s with toStore := s.toStore.globalPut inst }
      (s'.write (c.path Global.fduInstancePath [inst.fduUuid, inst.uuid]) (.put inst)
        (c.addInstance inst)).2 :=
  (h.add (k := .fduInstance) (t := { s with toStore := s.toStore.globalPut inst }) rfl
    ⟨fun _ => rfl, rfl, rfl, rfl⟩
    (rows_eq_update (rows_put (fun _ _ => pair_inj) _ inst) fun k' hk' => by
      cases k' <;> first | rfl | exact absurd rfl hk') fun _ => (List.append_nil _).symm).2

/-- A round of a monitoring task copies the record that the subscription has read. -/
theorem monitor_agrees (h : Carries c s s') (n : Uuid) :
    Option.Rel (Carries c) ((s.toStore.monitor n).map fun st => { s with toStore := st })
      (s'.monitor c n) := by
  rcases nextSent_eq (s'.subscription n) with ⟨hnext, hnil⟩ | ⟨inst, rest, hnext, hcons⟩
  · rw [h.changes] at hnil
    simp only [ZFos.monitor, hnext, Store.monitor, hnil]
    exact .none
  · rw [h.changes] at hcons
    simp only [ZFos.monitor, hnext, Store.monitor, hcons]
    have hread := h.read (n := n) (l := rest) (m := ⟨(s.node n).instances,
      rest.filterMap (Local.sent deserializeData), (s.node n).hypervisors⟩) rfl rfl rfl
    exact .some (hread.copy inst)

theorem launch_agrees (h : Carries c s s') : Agree (Carries c) (launch s) (zlaunch s') := by
  cases hs : s.tasks with
  | nil =>
    simp only [launch, zlaunch, h.tasks, hs]
    exact .none
  | cons t tasks =>
    simp only [launch, zlaunch, h.tasks, hs]
    exact .some ⟨rfl, h.beside rfl rfl rfl rfl h.plugin h.issued rfl⟩

/-- The calls do the same to the store and to the tables. -/
theorem alike (z : Session) : (machine z).Alike (zmachine c z) (Locking z) (Carries c) where
  body := rfl
  exec h hk := exec_agrees h hk.2 _
  move h := monitor_agrees h _
  launch h := launch_agrees h
  sound q p hq := by
    obtain rfl : q = none := hq
    exact clean_body p
  opens p := ⟨none, (clean_body p).mono fun _ _ _ => trivial⟩
  next q c _ := ⟨(pluginLocks z).after q c, rfl⟩

section Boot

variable (sites : List Site) (fdus : List FDUDescriptor) (entities : List EntityDescriptor)

/-- The descriptors that `add_fdu` does not reject. -/
abbrev keyedFdus : List FDUDescriptor := fdus.filter fun d => d.uuid.isSome

abbrev keyedEntities : List EntityDescriptor := entities.filter fun d => d.uuid.isSome

omit [Serde NodeInfo] [Serde NodeStatus] [Serde FDURecord] [Serde EntityDescriptor]
  [Serde EntityRecord] in
theorem foldl_addFdu (z : Zenoh) : fdus.foldl (fun z d => (c.addFdu d z).2) z =
    (keyedFdus fdus).foldl
      (fun z d => (Zenoh.add ((Kind.fdu.space c).path (Kind.fdu.ids d)) d z).2) z := by
  induction fdus generalizing z with
  | nil => rfl
  | cons d fdus ih =>
    cases hd : d.uuid with
    | none => simpa [keyedFdus, hd, Global.addFdu] using ih z
    | some f =>
      rw [List.foldl_cons, addFdu_eq (d := d) (by simp [hd]), ih, keyedFdus, keyedFdus,
        List.filter_cons_of_pos (by simp [hd]), List.foldl_cons]

omit [Serde NodeInfo] [Serde NodeStatus] [Serde FDURecord] [Serde FDUDescriptor]
  [Serde EntityRecord] in
theorem foldl_addEntity (z : Zenoh) : entities.foldl (fun z d => (c.addEntity d z).2) z =
    (keyedEntities entities).foldl
      (fun z d => (Zenoh.add ((Kind.entity.space c).path (Kind.entity.ids d)) d z).2) z := by
  induction entities generalizing z with
  | nil => rfl
  | cons d entities ih =>
    cases hd : d.uuid with
    | none => simpa [keyedEntities, hd, Global.addEntity] using ih z
    | some e =>
      rw [List.foldl_cons, addEntity_eq (d := d) (by simp [hd]), ih, keyedEntities, keyedEntities,
        List.filter_cons_of_pos (by simp [hd]), List.foldl_cons]

/-- What has been put through the connector are the catalog and the nodes. -/
theorem boot_carries : Carries c (boot sites (keyedFdus fdus) (keyedEntities entities))
    (zboot c sites fdus entities) where
  stocks := by
    have hempty : Stocks c Table.empty fun _ => [] := fun _ => List.Forall₂.nil
    have hnodes := hempty.foldl_add (k := .nodeInfo) (l := sites.map Site.info) fun _ _ => rfl
    have hstatus := hnodes.foldl_add (k := .nodeStatus) (l := sites.map Site.status) fun _ _ => rfl
    have hfdus := hstatus.foldl_add (k := .fdu) (l := keyedFdus fdus) fun _ hd =>
      takes_one Kind.takes (isSome_of_mem hd)
    have hentities := hfdus.foldl_add (k := .entity) (l := keyedEntities entities) fun _ hd =>
      takes_one Kind.takes (isSome_of_mem hd)
    rw [← foldl_addFdu, ← foldl_addEntity, List.foldl_map, List.foldl_map] at hentities
    refine Eq.subst (motive := fun rows => Stocks c _ rows) ?_ hentities
    funext k
    cases k with
    | fdu =>
      exact (Kind.foldl_put (k := .fdu) (fun _ _ => toList_inj)
        (Table.empty : Table FDUDescriptor.uuid) _).symm
    | entity =>
      exact (Kind.foldl_put (k := .entity) (fun _ _ => toList_inj)
        (Table.empty : Table EntityDescriptor.uuid) _).symm
    | nodeInfo =>
      exact (Kind.foldl_put (k := .nodeInfo) (fun _ _ => uuid_inj)
        (Table.empty : Table NodeInfo.uuid) _).symm.trans (congrArg Table.rows List.foldl_map)
    | nodeStatus =>
      exact (Kind.foldl_put (k := .nodeStatus) (fun _ _ => uuid_inj)
        (Table.empty : Table NodeStatus.uuid) _).symm.trans (congrArg Table.rows List.foldl_map)
    | _ => rfl
  changes _ := rfl
  hypervisors _ := rfl
  plugin := rfl
  issued := rfl
  tasks := rfl

/-- Driven by the same labels, the deployment on the store and that on tables come as far, with
the same calls under way and the same outcomes. -/
theorem zenoh_deployment (z : Session) (ls : List (Label Proc Choice Uuid)) :
    Option.Rel (fun (w : Calls) (w' : ZCalls) =>
        w'.threads = w.threads ∧ w'.done = w.done ∧ Carries c w.state w'.state)
      ((machine z).run ls (Pool.idle (boot sites (keyedFdus fdus) (keyedEntities entities))))
      ((zmachine c z).run ls (Pool.idle (zboot c sites fdus entities))) := by
  have hrun := (alike (c := c) z).run (Machine.Alike.idle (boot_carries sites fdus entities)) ls
  generalize (machine z).run ls _ = o at hrun ⊢
  generalize (zmachine c z).run ls _ = o' at hrun ⊢
  cases hrun with
  | none => exact .none
  | some h => exact .some ⟨h.threads, h.done, h.state⟩

end Boot

end Fog05

namespace Fog05

open Conc ZConnector

/-- An instance is defined, and polled for until it is in the global store. -/
def definingLabels : List (Label Proc Choice Uuid) :=
  .start (.agent 100 (.defineFdu 50)) :: List.replicate 6 (.fire 0 .go) ++
    .fire 0 (.uuid 0) :: List.replicate 5 (.fire 0 .go) ++ .env 0 :: List.replicate 2 (.fire 0 .go)

/-- The instance is read from the tables and through the connector. -/
theorem zenoh_deployment_define : ∃ (w : Calls) (w' : ZCalls),
    (machine (Site.session oneSite)).run definingLabels
      (Pool.idle (boot oneSite (keyedFdus [.plain 50]) (keyedEntities []))) = some w ∧
    (zmachine ⟨3, 4⟩ (Site.session oneSite)).run definingLabels
      (Pool.idle (zboot ⟨3, 4⟩ oneSite [.plain 50] [])) = some w' ∧
    Carries ⟨3, 4⟩ w.state w'.state ∧ w'.threads = [] ∧ recorded w.state 0 0 = some .defined ∧
    ((ZConnector.Global.mk 3 4).getInstance 0 w'.state.zenoh).toOption.map FDURecord.status =
      some .defined := by
  have hrel := zenoh_deployment (c := ⟨3, 4⟩) oneSite [.plain 50] [] (Site.session oneSite)
    definingLabels
  have hrun : ((machine (Site.session oneSite)).run definingLabels
      (Pool.idle (boot oneSite (keyedFdus [.plain 50]) (keyedEntities [])))).any (fun w =>
        w.threads.isEmpty && recorded w.state 0 0 = some .defined) = true := by decide +kernel
  have hread : ((zmachine ⟨3, 4⟩ (Site.session oneSite)).run definingLabels
      (Pool.idle (zboot ⟨3, 4⟩ oneSite [.plain 50] []))).any (fun w' =>
        ((ZConnector.Global.mk 3 4).getInstance 0 w'.state.zenoh).toOption.map FDURecord.status =
          some .defined) = true := by decide +kernel
  obtain ⟨w, hw, hend⟩ := (Option.any_eq_true _ _).1 hrun
  obtain ⟨w', hw', hstatus⟩ := (Option.any_eq_true _ _).1 hread
  obtain ⟨hover, hdefined⟩ := Bool.and_eq_true_iff.1 hend
  rw [hw, hw'] at hrel
  cases hrel with
  | some h =>
    obtain ⟨hthreads, -, hcarries⟩ := h
    exact ⟨w, w', hw, hw', hcarries, hthreads.trans (List.isEmpty_iff.1 hover),
      of_decide_eq_true hdefined, of_decide_eq_true hstatus⟩

end Fog05
