import Fog05.Model.Deployment
import Fog05.Proofs.Shelf

/-! A deployment on a zenoh store that is one on tables: the rows of each space of the store
are those of one table, and what a subscription has not read yet are the changes on their way
to the monitoring task. Puts and deletes keep it so. -/

namespace Fog05

open Conc ZConnector

inductive Kind
  | fdu
  | entity
  | fduInstance
  | entityInstance
  | nodeInfo
  | nodeStatus
  | nodeInstance (n : Uuid)
  deriving DecidableEq

namespace Kind

abbrev Obj : Kind → Type
  | fdu => FDUDescriptor
  | entity => EntityDescriptor
  | fduInstance | nodeInstance _ => FDURecord
  | entityInstance => EntityRecord
  | nodeInfo => NodeInfo
  | nodeStatus => NodeStatus

/-- How many ids a path has. -/
def rank : Kind → ℕ
  | fduInstance | entityInstance | nodeInstance _ => 2
  | _ => 1

def ids : (k : Kind) → k.Obj → List Uuid
  | fdu, d => d.uuid.toList
  | entity, d => d.uuid.toList
  | fduInstance, r => [r.fduUuid, r.uuid]
  | nodeInstance _, r => [r.fduUuid, r.uuid]
  | entityInstance, r => [r.id, r.uuid]
  | nodeInfo, a => [a.uuid]
  | nodeStatus, a => [a.uuid]

def rows : (k : Kind) → Store → List k.Obj
  | fdu, st => st.global.fdus.rows
  | entity, st => st.global.entities.rows
  | fduInstance, st => st.global.instances.rows
  | nodeInstance n, st => (st.node n).instances.rows
  | entityInstance, st => st.global.entityInstances.rows
  | nodeInfo, st => st.global.nodes.rows
  | nodeStatus, st => st.global.nodesStatus.rows

variable (c : ZConnector.Global)

def space : Kind → Space
  | fdu => .inGlobal c .fdu
  | entity => .inGlobal c .entity
  | fduInstance => .inGlobal c .fduInstance
  | nodeInstance n => .inLocal ⟨n⟩ .fduInstance
  | entityInstance => .inGlobal c .entityInstance
  | nodeInfo => .inGlobal c .nodeInfo
  | nodeStatus => .inGlobal c .nodeStatus

variable {c} {k k' : Kind}

theorem owned : (k.space c).Owned := by
  cases k <;> trivial

variable [DisplayUuid]

theorem takes : (k.space c).Takes k.rank := by
  cases k <;> rfl

omit [DisplayUuid] in
theorem space_inj (h : k.space c = k'.space c) : k = k' := by
  cases k <;> cases k' <;> simp_all [space]

instance serde [Serde NodeInfo] [Serde NodeStatus] [Serde FDUDescriptor] [Serde FDURecord]
    [Serde EntityDescriptor] [Serde EntityRecord] : (k : Kind) → Serde k.Obj
  | fdu => inferInstanceAs (Serde FDUDescriptor)
  | entity => inferInstanceAs (Serde EntityDescriptor)
  | fduInstance | nodeInstance _ => inferInstanceAs (Serde FDURecord)
  | entityInstance => inferInstanceAs (Serde EntityRecord)
  | nodeInfo => inferInstanceAs (Serde NodeInfo)
  | nodeStatus => inferInstanceAs (Serde NodeStatus)

end Kind

/-- What a subscription sends of a put. -/
def Kind.sent : (k : Kind) → k.Obj → Uuid → List FDURecord
  | nodeInstance m, inst, n => if nodeInstance m = nodeInstance n then [inst] else []
  | _, _, _ => []

theorem Kind.sent_of_ne {k : Kind} {a : k.Obj} {n : Uuid} (h : k ≠ .nodeInstance n) : k.sent a n = [] := by
  cases k with
  | nodeInstance m => exact if_neg h
  | _ => rfl

theorem serializeData_ok {α : Type} [Serde α] (a : α) :
    ∃ buf, serializeData a = .ok buf ∧ deserializeData buf = .ok a := by
  have hrt := Serde.round_trip a
  cases hs : serializeData a with
  | error e =>
    rw [hs] at hrt
    exact nomatch hrt
  | ok buf =>
    rw [hs] at hrt
    exact ⟨buf, rfl, hrt⟩

theorem sent_put [Serde FDURecord] (inst : FDURecord) :
    Local.sent deserializeData (Change.put inst) = some inst := by
  obtain ⟨buf, hs, hd⟩ := serializeData_ok inst
  simp [Local.sent, Change.put, hs, Except.toOption, hd]

/-- A change is reported to the node whose instance it is about, and to no other. -/
theorem report_subscription [DisplayUuid] {c : ZConnector.Global} {s' : ZFos} {k : Kind}
    {u : List Uuid} (hu : (k.space c).Takes u.length) (change : Change) (n : Uuid) :
    (s'.report ((k.space c).path u) change).subscription n =
      if k = .nodeInstance n then s'.subscription n ++ [change] else s'.subscription n := by
  have hiff : Matches "*" ((Local.mk n).path Local.nodeInstanceSelector3 [])
      ((k.space c).path u) ↔ k = .nodeInstance n := by
    constructor
    · intro hm
      have hq : ((Kind.nodeInstance n).space c).Takes [(none : Option Uuid), none].length := rfl
      exact (Kind.space_inj (Space.eq_of_matches Kind.owned hq hu hm).1).symm
    · rintro rfl
      exact Space.matches_all_path (s := (Kind.nodeInstance n).space c) (n := 2) Kind.owned rfl hu
  simp only [ZFos.report, hiff]

/-- What a write leaves as it is. -/
structure Fos.Apart (s t : Fos) : Prop where
  hypervisors : ∀ n, (t.node n).hypervisors = (s.node n).hypervisors
  plugin : t.plugin = s.plugin
  issued : t.issued = s.issued
  tasks : t.tasks = s.tasks

variable [DisplayUuid] [Serde NodeInfo] [Serde NodeStatus] [Serde FDUDescriptor]
  [Serde FDURecord] [Serde EntityDescriptor] [Serde EntityRecord] {c : ZConnector.Global}

/-- The rows of each space of the store. -/
def Stocks (c : ZConnector.Global) (z : Zenoh) (rows : (k : Kind) → List k.Obj) : Prop :=
  ∀ k : Kind, (k.space c).Shelf k.rank k.ids z (rows k)

/-- The deployment on the store is that on the tables. -/
structure Carries (c : ZConnector.Global) (s : Fos) (s' : ZFos) : Prop where
  stocks : Stocks c s'.zenoh fun k => k.rows s.toStore
  changes : ∀ n, (s'.subscription n).filterMap (Local.sent deserializeData) = (s.node n).changes
  hypervisors : ∀ n, s'.hypervisors n = (s.node n).hypervisors
  plugin : s'.plugin = s.plugin
  issued : s'.issued = s.issued
  tasks : s'.tasks = s.tasks

section Stocks

variable {z : Zenoh} {rows : (k : Kind) → List k.Obj} {k : Kind}

/-- The rows of a table after a put. -/
def Kind.put (k : Kind) (l : List k.Obj) (a : k.Obj) : List k.Obj :=
  l.filter (fun b => k.ids b ≠ k.ids a) ++ [a]

theorem Stocks.add (h : Stocks c z rows) {a : k.Obj} (ha : (k.space c).Takes (k.ids a).length) :
    Stocks c (Zenoh.add ((k.space c).path (k.ids a)) a z).2
      (Function.update rows k (k.put (rows k) a)) := by
  intro k'
  by_cases hkk : k' = k
  · subst hkk
    rw [Function.update_self]
    exact (h k').add Kind.owned Kind.takes ha
  · rw [Function.update_of_ne hkk]
    exact (h k').add_beside Kind.takes Kind.owned ha (fun he => hkk (Kind.space_inj he)) a

theorem Stocks.erase (h : Stocks c z rows) {u : List Uuid} (hu : (k.space c).Takes u.length) :
    Stocks c (z.erase ((k.space c).path u))
      (Function.update rows k ((rows k).filter fun b => k.ids b ≠ u)) := by
  intro k'
  by_cases hkk : k' = k
  · subst hkk
    rw [Function.update_self]
    exact (h k').erase Kind.owned hu
  · rw [Function.update_of_ne hkk]
    exact (h k').erase_beside Kind.takes Kind.owned hu fun he => hkk (Kind.space_inj he)

theorem Stocks.foldl_add (h : Stocks c z rows) {l : List k.Obj}
    (hl : ∀ a ∈ l, (k.space c).Takes (k.ids a).length) :
    Stocks c (l.foldl (fun z a => (Zenoh.add ((k.space c).path (k.ids a)) a z).2) z)
      (Function.update rows k (l.foldl k.put (rows k))) := by
  induction l generalizing z rows with
  | nil =>
    show Stocks c z (Function.update rows k (rows k))
    rwa [Function.update_eq_self]
  | cons a l ih =>
    have hrest := ih (h.add (hl a List.mem_cons_self)) fun b hb => hl b (List.mem_cons_of_mem _ hb)
    rwa [Function.update_self, Function.update_idem] at hrest

end Stocks

section Rows

omit [DisplayUuid] [Serde NodeInfo] [Serde NodeStatus] [Serde FDUDescriptor]
  [Serde FDURecord] [Serde EntityDescriptor] [Serde EntityRecord]

variable {st st' : Store} {k : Kind}

theorem rows_eq_update {l : List k.Obj} (hk : k.rows st' = l)
    (hother : ∀ k', k' ≠ k → k'.rows st' = k'.rows st) :
    (fun k => Kind.rows k st') = Function.update (fun k => Kind.rows k st) k l := by
  funext k'
  by_cases hkk : k' = k
  · subst hkk
    rw [Function.update_self, hk]
  · rw [Function.update_of_ne hkk, hother k' hkk]

variable {α κ : Type} [DecidableEq κ] {key : α → κ} {ids : α → List Uuid}
  (hids : ∀ a b, ids a = ids b ↔ key a = key b) (t : Table key)

include hids

theorem rows_put (a : α) :
    (t.put a).rows = t.rows.filter (fun b => ids b ≠ ids a) ++ [a] := by
  simp only [Table.put, ne_eq, hids]

omit hids in
theorem rows_erase {k : κ} {u : List Uuid} (hu : ∀ a, ids a = u ↔ key a = k) :
    (t.erase k).rows = t.rows.filter fun b => ids b ≠ u := by
  simp only [Table.erase, ne_eq, hu]

end Rows

omit [DisplayUuid] [Serde NodeInfo] [Serde NodeStatus] [Serde FDUDescriptor]
  [Serde FDURecord] [Serde EntityDescriptor] [Serde EntityRecord] in
theorem Kind.foldl_put {k : Kind} {κ : Type} [DecidableEq κ] {key : k.Obj → κ}
    (hids : ∀ a b, k.ids a = k.ids b ↔ key a = key b) (t : Table key) (l : List k.Obj) :
    (l.foldl Table.put t).rows = l.foldl k.put t.rows := by
  induction l generalizing t with
  | nil => rfl
  | cons a l ih =>
    rw [List.foldl_cons, List.foldl_cons, ih, rows_put hids]
    rfl

section Writes

variable {s t : Fos} {s' : ZFos} {k : Kind}

theorem Carries.add (h : Carries c s s') {a : k.Obj} (ha : (k.space c).Takes (k.ids a).length)
    (hapart : s.Apart t) (hrows : (fun k => Kind.rows k t.toStore) =
      Function.update (fun k => Kind.rows k s.toStore) k (k.put (k.rows s.toStore) a))
    (hchanges : ∀ n, (t.node n).changes = (s.node n).changes ++ k.sent a n) :
    (s'.write ((k.space c).path (k.ids a)) (.put a)
        (Zenoh.add ((k.space c).path (k.ids a)) a)).1 = .ok () ∧
      Carries c t (s'.write ((k.space c).path (k.ids a)) (.put a)
        (Zenoh.add ((k.space c).path (k.ids a)) a)).2 := by
  obtain ⟨buf, hs, -⟩ := serializeData_ok a
  have hstocks := h.stocks.add ha
  have hadd : Zenoh.add ((k.space c).path (k.ids a)) a s'.zenoh =
      (.ok (), (Zenoh.add ((k.space c).path (k.ids a)) a s'.zenoh).2) := by
    simp only [Zenoh.add, hs]
  simp only [ZFos.write]
  rw [hadd]
  refine ⟨rfl, ⟨?_, fun n => ?_, fun n => ?_, ?_, ?_, ?_⟩⟩
  · rw [hrows]
    exact hstocks
  · rw [hchanges, ← h.changes]
    refine (congrArg _ (report_subscription ha (.put a) n)).trans ?_
    by_cases hk : k = .nodeInstance n
    · subst hk
      rw [if_pos rfl, List.filterMap_append]
      simp only [Kind.sent, if_true]
      congr 1
      exact List.filterMap_cons_some (sent_put a)
    · rw [if_neg hk, Kind.sent_of_ne hk, List.append_nil]
  · exact (h.hypervisors n).trans (hapart.hypervisors n).symm
  · exact h.plugin.trans hapart.plugin.symm
  · exact h.issued.trans hapart.issued.symm
  · exact h.tasks.trans hapart.tasks.symm

theorem Carries.erase (h : Carries c s s') {u : List Uuid} (hu : (k.space c).Takes u.length)
    (hapart : s.Apart t) (hrows : (fun k => Kind.rows k t.toStore) =
      Function.update (fun k => Kind.rows k s.toStore) k
        ((k.rows s.toStore).filter fun b => k.ids b ≠ u))
    (hchanges : ∀ n, (t.node n).changes = (s.node n).changes) :
    (s'.write ((k.space c).path u) .delete (Zenoh.remove ((k.space c).path u))).1 = .ok () ∧
      Carries c t
        (s'.write ((k.space c).path u) .delete (Zenoh.remove ((k.space c).path u))).2 := by
  have hstocks := h.stocks.erase hu
  refine ⟨rfl, ⟨?_, fun n => ?_, fun n => ?_, ?_, ?_, ?_⟩⟩
  · rw [hrows]
    exact hstocks
  · rw [hchanges, ← h.changes]
    refine (congrArg _ (report_subscription hu .delete n)).trans ?_
    split
    · rw [List.filterMap_append]
      exact List.append_nil _
    · rfl
  · exact (h.hypervisors n).trans (hapart.hypervisors n).symm
  · exact h.plugin.trans hapart.plugin.symm
  · exact h.issued.trans hapart.issued.symm
  · exact h.tasks.trans hapart.tasks.symm

end Writes

end Fog05
