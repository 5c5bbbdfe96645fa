import Fog05.Proofs.KeySpace
import Mathlib.Logic.Function.Basic

/-! Record stores: the records of one kind that a connector stores are a table keyed by
the two ids in their paths, and as long as every uuid comes with one owner, a
finite map from uuids. -/

namespace Fog05.ZConnector

open Conc Zenoh

variable {α : Type}

/-- The functions that a connector has for the records of one kind. -/
structure RecordStore (α : Type) where
  path : α → Uuid × Uuid
  get : Uuid → Zenoh → Except FError α
  getAll : Zenoh → Except FError (List α)
  getAllOf : Uuid → Zenoh → Except FError (List α)
  add : α → Zenoh → Except FError Unit × Zenoh
  remove : Uuid → Zenoh → Except FError Unit × Zenoh

section Records

variable [DisplayUuid]

def Global.fduRecords [Serde FDURecord] (c : Global) : RecordStore FDURecord :=
  ⟨FDURecord.path, c.getInstance, c.getAllInstances, c.getAllFduInstances, c.addInstance,
    c.removeInstance⟩

def Global.entityRecords [Serde EntityRecord] (c : Global) : RecordStore EntityRecord :=
  ⟨EntityRecord.path, c.getEntityInstance, c.getAllEntitiesInstances, c.getAllEntityInstances,
    c.addEntityInstance, c.removeEntityInstance⟩

def Local.fduRecords [Serde FDURecord] (c : Local) : RecordStore FDURecord :=
  ⟨FDURecord.path, c.getInstance, c.getAllInstances, c.getAllFduInstances, c.addInstance,
    c.removeInstance⟩

namespace Space

def ids (k : Uuid × Uuid) : List Uuid := [k.1, k.2]

variable [Serde α]

/-- What the three record stores have in common. -/
def records (s : Space) (key : α → Uuid × Uuid) : RecordStore α where
  path := key
  get u := getOne (s.selector [none, some u])
  getAll := getAll (s.selector [none, none])
  getAllOf o := getAll (s.selector [some o, none])
  add a := add (s.path (ids (key a))) a
  remove u z :=
    removeFound (getOne (s.selector [none, some u]) z) (fun a => s.path (ids (key a))) z

/-- The row is where the record belongs, and decodes to it. -/
def Row (s : Space) (key : α → Uuid × Uuid) (row : Path × Value) (a : α) : Prop :=
  row.1 = s.path (ids (key a)) ∧ decode row.2 = .ok a

/-- Row by row the records of the space in `z` are those of the list. -/
def Represents (s : Space) (key : α → Uuid × Uuid) (z : Zenoh) (l : List α) : Prop :=
  List.Forall₂ (s.Row key) (z.get (s.selector [none, none])) l

end Space

theorem Global.fduRecords_eq [Serde FDURecord] (c : Global) :
    c.fduRecords = (Space.inGlobal c .fduInstance).records FDURecord.path := rfl

theorem Global.entityRecords_eq [Serde EntityRecord] (c : Global) :
    c.entityRecords = (Space.inGlobal c .entityInstance).records EntityRecord.path := rfl

theorem Local.fduRecords_eq [Serde FDURecord] (c : Local) :
    c.fduRecords = (Space.inLocal c .fduInstance).records FDURecord.path := rfl

namespace Space

variable {s : Space} {q : List (Option Uuid)}

omit [DisplayUuid] in
theorem fits_ids {o u : Option Uuid} {k : Uuid × Uuid} :
    Fits [o, u] (ids k) ↔ (o = none ∨ o = some k.1) ∧ (u = none ∨ u = some k.2) := by
  simp [Fits, ids]

theorem matches_of_fits {l : List Uuid} (hq : s.Takes q.length) (hi : s.Takes l.length)
    (h : Fits q l) : Matches "*" (s.selector q) (s.path l) := by
  refine (Template.matches_format ?_ ?_).2 ?_
  · rw [List.length_append, List.length_map]
    exact hq
  · rw [List.length_append, List.length_map]
    exact hi
  · exact List.rel_append (matches_self s.base) (matches_query.2 h)

theorem matches_all {o u : Option Uuid} (h2 : s.Takes 2) :
    Matches "*" (s.selector [none, none]) (s.selector [o, u]) := by
  refine (Template.matches_format ?_ ?_).2 ?_
  · rw [List.length_append]
    exact h2
  · rw [List.length_append]
    exact h2
  · exact List.rel_append (matches_self s.base) (by simp)

theorem get_selector {o u : Option Uuid} (h2 : s.Takes 2) (z : Zenoh) :
    z.get (s.selector [o, u]) = (z.get (s.selector [none, none])).filter fun row =>
      Matches "*" (s.selector [o, u]) row.1 := by
  rw [Zenoh.get, Zenoh.get, Table.select, Table.select, List.filter_filter]
  apply List.filter_congr
  intro row _
  have : Matches "*" (s.selector [o, u]) row.1 → Matches "*" (s.selector [none, none]) row.1 :=
    (matches_all h2).trans
  simpa using this

section Tables

variable [Serde α] {key : α → Uuid × Uuid} {z : Zenoh} {t : Table key}

theorem Represents.select (h : s.Represents key z t.rows) (ho : s.Owned) (h2 : s.Takes 2)
    (o u : Option Uuid) {p : Uuid × Uuid → Prop} [DecidablePred p]
    (hp : ∀ k, p k ↔ (o = none ∨ o = some k.1) ∧ (u = none ∨ u = some k.2)) :
    List.Forall₂ (s.Row key) (z.get (s.selector [o, u])) (t.select p) := by
  rw [get_selector h2]
  refine List.rel_filter (fun row a hrow => ?_) h
  show decide _ = true ↔ decide _ = true
  rw [decide_eq_true_iff, decide_eq_true_iff, hrow.1, hp, ← fits_ids]
  have hi : s.Takes (ids (key a)).length := h2
  exact ⟨fun hm => (eq_of_matches ho (q := [o, u]) h2 hi hm).2, matches_of_fits h2 hi⟩

theorem single_rows {rows : List (Path × Value)} {l : List α}
    (h : List.Forall₂ (s.Row key) rows l) :
    (single rows >>= fun row => decode row.2) = single l := by
  rcases h with _ | ⟨ha, _ | ⟨hb, h⟩⟩
  · rfl
  · exact ha.2
  · rfl

theorem mapM_rows {rows : List (Path × Value)} {l : List α}
    (h : List.Forall₂ (s.Row key) rows l) : (rows.mapM fun row => decode row.2) = .ok l := by
  induction h with
  | nil => rfl
  | cons ha _ ih =>
    rw [List.mapM_cons, ha.2, ih]
    rfl

theorem Represents.get (h : s.Represents key z t.rows) (ho : s.Owned) (h2 : s.Takes 2)
    (u : Uuid) : (s.records key).get u z = single (t.select fun k => k.2 = u) :=
  single_rows (h.select ho h2 none (some u) fun k => by simp [eq_comm])

theorem Represents.getAll (h : s.Represents key z t.rows) :
    (s.records key).getAll z = .ok t.rows :=
  mapM_rows h

theorem Represents.getAllOf (h : s.Represents key z t.rows) (ho : s.Owned) (h2 : s.Takes 2)
    (f : Uuid) : (s.records key).getAllOf f z = .ok (t.select fun k => k.1 = f) :=
  mapM_rows (h.select ho h2 (some f) none fun k => by simp [eq_comm])

theorem path_ids_inj (ho : s.Owned) (h2 : s.Takes 2) {k k' : Uuid × Uuid} :
    s.path (ids k) = s.path (ids k') ↔ k = k' := by
  refine ⟨fun h => ?_, fun h => h ▸ rfl⟩
  have hi : ∀ k, s.Takes (ids k).length := fun _ => h2
  have := (path_inj ho (hi k) (hi k') h).2
  simp only [ids, List.cons.injEq, and_true] at this
  exact Prod.ext this.1 this.2

theorem matches_ids (h2 : s.Takes 2) (k : Uuid × Uuid) :
    Matches "*" (s.selector [none, none]) (s.path (ids k)) :=
  matches_of_fits h2 h2 (fits_ids.2 ⟨Or.inl rfl, Or.inl rfl⟩)

theorem Represents.add (h : s.Represents key z t.rows) (ho : s.Owned) (h2 : s.Takes 2) (a : α) :
    s.Represents key ((s.records key).add a z).2 (t.put a).rows := by
  obtain ⟨buf, hbuf, he⟩ := add_store (s.path (ids (key a))) a z
  show s.Represents key (Zenoh.add (s.path (ids (key a))) a z).2 (t.put a).rows
  rw [he, Represents, Zenoh.get,
    Table.select_put (a := (s.path (ids (key a)), Value.raw buf)) (matches_ids h2 (key a))]
  refine List.rel_append (List.rel_filter (fun row b hrow => ?_) h) ?_
  · show decide _ = true ↔ decide _ = true
    rw [decide_eq_true_iff, decide_eq_true_iff, hrow.1, ne_eq, ne_eq, path_ids_inj ho h2]
  · exact List.Forall₂.cons ⟨rfl, hbuf⟩ List.Forall₂.nil

/-- A remove erases the record that the table has, and fails if it has none. -/
theorem Represents.remove (h : s.Represents key z t.rows) (ho : s.Owned) (h2 : s.Takes 2)
    (u : Uuid) :
    (∀ a, single (t.select fun k => k.2 = u) = .ok a →
      ((s.records key).remove u z).1 = .ok () ∧
        s.Represents key ((s.records key).remove u z).2 (t.erase (key a)).rows) ∧
    ∀ e, single (t.select fun k => k.2 = u) = .error e →
      (s.records key).remove u z = (.error e, z) := by
  have hget := h.get ho h2 u
  constructor
  · intro a ha
    have hr : (s.records key).remove u z = Zenoh.remove (s.path (ids (key a))) z := by
      show removeFound _ _ z = _
      rw [show getOne _ z = .ok a from hget.trans ha]
      rfl
    rw [hr]
    refine ⟨rfl, ?_⟩
    rw [Represents, Zenoh.remove, Zenoh.get, Table.select_erase]
    refine List.rel_filter (fun row b hrow => ?_) h
    show decide _ = true ↔ decide _ = true
    rw [decide_eq_true_iff, decide_eq_true_iff, hrow.1, ne_eq, ne_eq, path_ids_inj ho h2]
  · intro e he
    show removeFound _ _ z = _
    rw [show getOne _ z = .error e from hget.trans he]
    rfl

end Tables

end Space

/-! ### From tables to maps -/

/-- The table is the map: a uuid leads to the row that has it, and rows have the owners that
`ownerOf` tells. -/
structure TableMap {key : α → Uuid × Uuid} (ownerOf : Uuid → Uuid) (t : Table key)
    (m : Uuid → Option α) : Prop where
  find : ∀ {u a}, m u = some a ↔ a ∈ t ∧ (key a).2 = u
  owned : ∀ {a}, a ∈ t → (key a).1 = ownerOf (key a).2

namespace TableMap

omit [DisplayUuid]

variable {key : α → Uuid × Uuid} {ownerOf : Uuid → Uuid} {t : Table key} {m : Uuid → Option α}

theorem empty : TableMap ownerOf (Table.empty : Table key) fun _ => none :=
  ⟨by simp, fun h => absurd h (Table.not_mem_empty _)⟩

theorem key_eq (h : TableMap ownerOf t m) {a b : α} (ha : a ∈ t) (hb : (key b).1 = ownerOf (key b).2)
    (he : (key a).2 = (key b).2) : key a = key b :=
  Prod.ext ((h.owned ha).trans (by rw [he, hb])) he

theorem put (h : TableMap ownerOf t m) {a : α} (ha : (key a).1 = ownerOf (key a).2) :
    TableMap ownerOf (t.put a) (Function.update m (key a).2 (some a)) where
  find {u b} := by
    rw [Table.mem_put]
    by_cases hu : u = (key a).2
    · subst hu
      rw [Function.update_self, Option.some.injEq]
      constructor
      · rintro rfl
        exact ⟨Or.inl rfl, rfl⟩
      · rintro ⟨rfl | ⟨hb, hne⟩, he⟩
        · rfl
        · exact absurd (h.key_eq hb ha he) hne
    · rw [Function.update_of_ne hu, h.find]
      constructor
      · rintro ⟨hb, rfl⟩
        exact ⟨Or.inr ⟨hb, fun he => hu (congrArg Prod.snd he)⟩, rfl⟩
      · rintro ⟨rfl | ⟨hb, -⟩, rfl⟩
        · exact absurd rfl hu
        · exact ⟨hb, rfl⟩
  owned {b} hb := by
    rcases Table.mem_put.1 hb with rfl | ⟨hb, -⟩
    · exact ha
    · exact h.owned hb

theorem erase (h : TableMap ownerOf t m) {a : α} (ha : a ∈ t) :
    TableMap ownerOf (t.erase (key a)) (Function.update m (key a).2 none) where
  find {u b} := by
    rw [Table.mem_erase]
    by_cases hu : u = (key a).2
    · subst hu
      rw [Function.update_self]
      refine ⟨(nomatch ·), fun hb => ?_⟩
      exact absurd (h.key_eq hb.1.1 (h.owned ha) hb.2) hb.1.2
    · rw [Function.update_of_ne hu, h.find]
      constructor
      · rintro ⟨hb, rfl⟩
        exact ⟨⟨hb, fun he => hu (congrArg Prod.snd he)⟩, rfl⟩
      · rintro ⟨⟨hb, -⟩, rfl⟩
        exact ⟨hb, rfl⟩
  owned hb := h.owned (Table.mem_erase.1 hb).1

theorem single_of_some (h : TableMap ownerOf t m) {u : Uuid} {a : α} (hm : m u = some a) :
    single (t.select fun k => k.2 = u) = .ok a := by
  obtain ⟨ha, rfl⟩ := h.find.1 hm
  refine (single_select_eq_ok fun b hb he => ?_).2 ⟨ha, rfl⟩
  exact Table.eq_of_key hb ha (h.key_eq hb (h.owned ha) he)

theorem single_of_none (h : TableMap ownerOf t m) {u : Uuid} (hm : m u = none) :
    single (t.select fun k => k.2 = u) = .error .notFound := by
  rw [single_eq_notFound, List.eq_nil_iff_forall_not_mem]
  intro a ha
  have := h.find.2 (Table.mem_select.1 ha)
  rw [hm] at this
  exact nomatch this

theorem nodup (h : TableMap ownerOf t m) : (t.rows.map fun a => (key a).2).Nodup := by
  refine List.Nodup.map_on (fun a ha b hb he => ?_) (t.distinct.of_map key)
  exact Table.eq_of_key ha hb (h.key_eq ha (h.owned hb) he)

end TableMap

namespace RecordStore

variable (s : RecordStore α) {ownerOf : Uuid → Uuid}

/-- The calls that write, with every uuid always under one owner. -/
inductive Call (ownerOf : Uuid → Uuid)
  | add (info : α) (owned : (s.path info).1 = ownerOf (s.path info).2)
  | remove (instanceUuid : Uuid)

variable {s}

def Call.run : s.Call ownerOf → Zenoh → Zenoh
  | add info _, z => (s.add info z).2
  | remove u, z => (s.remove u z).2

/-- What the call does to a finite map. -/
def Call.effect : s.Call ownerOf → (Uuid → Option α) → Uuid → Option α
  | add info _, m => Function.update m (s.path info).2 (some info)
  | remove u, m => Function.update m u none

variable (s)

/-- What the store answers is what the map says. -/
structure Answers (z : Zenoh) (m : Uuid → Option α) : Prop where
  get : ∀ u, s.get u z = match m u with
    | some info => .ok info
    | none => .error .notFound
  getAll : ∃ l, s.getAll z = .ok l ∧ (l.map fun info => (s.path info).2).Nodup ∧
    (∀ info, info ∈ l ↔ m (s.path info).2 = some info) ∧
    ∀ owner, s.getAllOf owner z = .ok (l.filter fun info => (s.path info).1 = owner)
  remove : ∀ u, m u = none → s.remove u z = (.error .notFound, z)

/-- After any sequence of calls from an empty store, the store answers like the map. -/
def IsMap (ownerOf : Uuid → Uuid) : Prop :=
  ∀ calls : List (s.Call ownerOf),
    s.Answers (calls.foldl (fun z call => call.run z) Table.empty)
      (calls.foldl (fun m call => call.effect m) fun _ => none)

end RecordStore

namespace Space

variable [Serde α] {s : Space} {key : α → Uuid × Uuid} {ownerOf : Uuid → Uuid}

def Maps (s : Space) (key : α → Uuid × Uuid) (ownerOf : Uuid → Uuid) (z : Zenoh)
    (m : Uuid → Option α) : Prop :=
  ∃ t : Table key, s.Represents key z t.rows ∧ TableMap ownerOf t m

theorem Maps.step {z : Zenoh} {m : Uuid → Option α} (h : s.Maps key ownerOf z m) (ho : s.Owned)
    (h2 : s.Takes 2) (call : (s.records key).Call ownerOf) :
    s.Maps key ownerOf (call.run z) (call.effect m) := by
  obtain ⟨t, hr, hm⟩ := h
  cases call with
  | add info owned => exact ⟨t.put info, hr.add ho h2 info, hm.put owned⟩
  | remove u =>
    obtain ⟨hok, herr⟩ := hr.remove ho h2 u
    cases hu : m u with
    | none =>
      have hz := herr _ (hm.single_of_none hu)
      refine ⟨t, ?_, ?_⟩
      · show s.Represents key ((s.records key).remove u z).2 t.rows
        rw [hz]
        exact hr
      · show TableMap ownerOf t (Function.update m u none)
        rw [← hu, Function.update_eq_self]
        exact hm
    | some info =>
      obtain ⟨ha, rfl⟩ := hm.find.1 hu
      exact ⟨_, (hok info (hm.single_of_some hu)).2, hm.erase ha⟩

theorem Maps.answers {z : Zenoh} {m : Uuid → Option α} (h : s.Maps key ownerOf z m)
    (ho : s.Owned) (h2 : s.Takes 2) : (s.records key).Answers z m := by
  obtain ⟨t, hr, hm⟩ := h
  refine ⟨fun u => ?_, ⟨t.rows, hr.getAll, hm.nodup, fun a => ?_, hr.getAllOf ho h2⟩, fun u hu => ?_⟩
  · rw [hr.get ho h2 u]
    cases hu : m u with
    | none => exact hm.single_of_none hu
    | some a => exact hm.single_of_some hu
  · exact ⟨fun ha => hm.find.2 ⟨ha, rfl⟩, fun ha => (hm.find.1 ha).1⟩
  · exact (hr.remove ho h2 u).2 _ (hm.single_of_none hu)

theorem records_isMap (ho : s.Owned) (h2 : s.Takes 2) : (s.records key).IsMap ownerOf := by
  intro calls
  have hrun : ∀ z m, s.Maps key ownerOf z m →
      s.Maps key ownerOf (calls.foldl (fun z call => call.run z) z)
        (calls.foldl (fun m call => call.effect m) m) := by
    induction calls with
    | nil => exact fun z m h => h
    | cons call calls ih => exact fun z m h => ih _ _ (h.step ho h2 call)
  have hempty : s.Represents key Table.empty [] := List.Forall₂.nil
  exact (hrun _ _ ⟨Table.empty, hempty, TableMap.empty⟩).answers ho h2

end Space

/-- The three record stores are finite maps from instance uuids, for every sequence of adds and
removes in which a uuid has always one FDU, or one entity. -/
theorem record_stores_are_maps [Serde FDURecord] [Serde EntityRecord] (g : Global) (l : Local)
    (ownerOf : Uuid → Uuid) :
    g.fduRecords.IsMap ownerOf ∧ l.fduRecords.IsMap ownerOf ∧
      g.entityRecords.IsMap ownerOf := by
  rw [Global.fduRecords_eq, Local.fduRecords_eq, Global.entityRecords_eq]
  exact ⟨Space.records_isMap trivial rfl, Space.records_isMap trivial rfl,
    Space.records_isMap trivial rfl⟩

end Records

/-- Instances 1 and 2 are added, the record of 1 is overwritten and 2 is removed. -/
def history : List ((Global.mk 3 4).fduRecords.Call fun u => 49 + u) :=
  [.add (plainRecord 1 50 7) rfl, .add (plainRecord 2 51 7) rfl,
    .add { plainRecord 1 50 7 with status := .running } rfl, .remove 2]

def afterHistory : Zenoh := history.foldl (fun z call => call.run z) Conc.Table.empty

theorem record_stores_are_maps_history :
    (Global.mk 3 4).getInstance 1 afterHistory = .ok { plainRecord 1 50 7 with status := .running } ∧
      (Global.mk 3 4).getInstance 2 afterHistory = .error .notFound ∧
      (Global.mk 3 4).removeInstance 2 afterHistory = (.error .notFound, afterHistory) ∧
      ∃ l, (Global.mk 3 4).getAllInstances afterHistory = .ok l ∧
        ∀ info, info ∈ l ↔ info = { plainRecord 1 50 7 with status := .running } := by
  obtain ⟨hglobal, -, -⟩ := record_stores_are_maps ⟨3, 4⟩ ⟨7⟩ fun u => 49 + u
  obtain ⟨hget, ⟨l, hall, -, hmem, -⟩, hremove⟩ := hglobal history
  refine ⟨hget 1, hget 2, hremove 2 rfl, l, hall, fun info => (hmem info).trans ⟨fun h => ?_, ?_⟩⟩
  · simp only [history, List.foldl_cons, List.foldl_nil, RecordStore.Call.effect,
      Function.update_apply] at h
    split at h
    · cases h
    · next h2 =>
      split at h
      · exact (Option.some.inj h).symm
      · next h1 =>
        -- the first two adds are of the same uuids
        rcases ite_eq_iff.1 h with ⟨hu, -⟩ | ⟨-, h⟩
        · exact absurd hu h2
        · rcases ite_eq_iff.1 h with ⟨hu, -⟩ | ⟨-, h⟩
          · exact absurd hu h1
          · cases h
  · rintro rfl
    rfl

end Fog05.ZConnector
