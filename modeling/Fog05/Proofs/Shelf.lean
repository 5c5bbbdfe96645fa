import Fog05.Proofs.KeySpace

/-! Shelves: the objects of one space of a zenoh store, in the order of the store. A selector
for the space selects of them those that fit it, an add and a delete change the shelf of
their own space, and no other. -/

namespace Fog05.ZConnector.Space

open Conc Zenoh

variable [DisplayUuid] {α β : Type} [Serde α] [Serde β] {s s' : Space} {ids : α → List Uuid}
  {n : ℕ} {q : List (Option Uuid)} {z : Zenoh} {l : List α}

/-- The row is where the object belongs, and decodes to it. -/
structure Keeps (s : Space) (ids : α → List Uuid) (row : Path × Value) (a : α) : Prop where
  path : row.1 = s.path (ids a)
  decodes : decode row.2 = .ok a
  takes : s.Takes (ids a).length

/-- Row by row the objects of the space, whose paths have `n` ids, are those of the list. -/
def Shelf (s : Space) (n : ℕ) (ids : α → List Uuid) (z : Zenoh) (l : List α) : Prop :=
  List.Forall₂ (s.Keeps ids) (z.get (s.selector (List.replicate n none))) l

theorem Takes.unique {m : ℕ} (h : s.Takes n) (h' : s.Takes m) : m = n :=
  Nat.add_left_cancel (Eq.trans h' (Eq.symm h))

theorem format_length (h : s.Takes q.length) :
    (s.base ++ q.map fun id => id.elim "*" display).length = s.template.arity := by
  rw [List.length_append, List.length_map]
  exact h

omit [DisplayUuid] in
theorem matches_stars {l : List String} : Matches "*" (List.replicate l.length "*") l := by
  induction l with
  | nil => exact matches_nil
  | cons x l ih => exact matches_cons.2 ⟨Or.inl rfl, ih⟩

theorem matches_any (hn : s.Takes n) (hq : s.Takes q.length) :
    Matches "*" (s.selector (List.replicate n none)) (s.selector q) := by
  obtain rfl := hn.unique hq
  refine (Template.matches_format (format_length (by simpa using hq)) (format_length hq)).2 ?_
  refine List.rel_append (matches_self s.base) ?_
  rw [List.map_replicate]
  have hstars := matches_stars (l := q.map fun id => id.elim "*" display)
  rw [List.length_map] at hstars
  exact hstars

theorem get_query (hn : s.Takes n) (hq : s.Takes q.length) (z : Zenoh) :
    z.get (s.selector q) = (z.get (s.selector (List.replicate n none))).filter fun row =>
      Matches "*" (s.selector q) row.1 := by
  rw [Zenoh.get, Zenoh.get, Table.select, Table.select, List.filter_filter]
  apply List.filter_congr
  intro row _
  have : Matches "*" (s.selector q) row.1 →
      Matches "*" (s.selector (List.replicate n none)) row.1 := (matches_any hn hq).trans
  simpa using this

theorem matches_path {k : List Uuid} (ho : s.Owned) (hq : s.Takes q.length)
    (hk : s.Takes k.length) : Matches "*" (s.selector q) (s.path k) ↔ Fits q k := by
  refine ⟨fun h => (eq_of_matches ho hq hk h).2, fun h => ?_⟩
  refine (Template.matches_format (format_length hq) ?_).2
    (List.rel_append (matches_self s.base) (matches_query.2 h))
  rw [List.length_append, List.length_map]
  exact hk

theorem path_eq_iff {k k' : List Uuid} (ho : s.Owned) (hk : s.Takes k.length)
    (hk' : s.Takes k'.length) : s.path k = s.path k' ↔ k = k' :=
  ⟨fun h => (path_inj ho hk hk' h).2, fun h => h ▸ rfl⟩

theorem matches_all_path {k : List Uuid} (ho : s.Owned) (hn : s.Takes n)
    (hk : s.Takes k.length) :
    Matches "*" (s.selector (List.replicate n none)) (s.path k) := by
  refine (matches_path ho (by simpa using hn) hk).2 ?_
  obtain rfl := hn.unique hk
  clear hn hk
  induction k with
  | nil => exact List.Forall₂.nil
  | cons u k ih => exact List.Forall₂.cons (Or.inl rfl) ih

theorem Shelf.select (h : s.Shelf n ids z l) (ho : s.Owned) (hn : s.Takes n)
    (hq : s.Takes q.length) {p : α → Bool} (hp : ∀ a, p a = true ↔ Fits q (ids a)) :
    List.Forall₂ (s.Keeps ids) (z.get (s.selector q)) (l.filter p) := by
  rw [get_query hn hq]
  refine List.rel_filter (fun row a hrow => ?_) h
  show decide _ = true ↔ p a = true
  rw [hp, decide_eq_true_iff, hrow.path]
  exact matches_path ho hq hrow.takes

theorem keeps_single {rows : List (Path × Value)} (h : List.Forall₂ (s.Keeps ids) rows l) :
    (single rows >>= fun row => decode row.2) = single l := by
  rcases h with _ | ⟨ha, _ | ⟨hb, h⟩⟩
  · rfl
  · exact ha.decodes
  · rfl

theorem keeps_all {rows : List (Path × Value)} (h : List.Forall₂ (s.Keeps ids) rows l) :
    (rows.mapM fun row => decode row.2) = .ok l := by
  induction h with
  | nil => rfl
  | cons ha _ ih =>
    rw [List.mapM_cons, ha.decodes, ih]
    rfl

theorem Shelf.getOne (h : s.Shelf n ids z l) (ho : s.Owned) (hn : s.Takes n)
    (hq : s.Takes q.length) {p : α → Bool} (hp : ∀ a, p a = true ↔ Fits q (ids a)) :
    Zenoh.getOne (s.selector q) z = single (l.filter p) :=
  keeps_single (h.select ho hn hq hp)

theorem Shelf.getAll (h : s.Shelf n ids z l) (ho : s.Owned) (hn : s.Takes n)
    (hq : s.Takes q.length) {p : α → Bool} (hp : ∀ a, p a = true ↔ Fits q (ids a)) :
    Zenoh.getAll (s.selector q) z = .ok (l.filter p) :=
  keeps_all (h.select ho hn hq hp)

theorem Shelf.add (h : s.Shelf n ids z l) (ho : s.Owned) (hn : s.Takes n) {a : α}
    (ha : s.Takes (ids a).length) :
    s.Shelf n ids (Zenoh.add (s.path (ids a)) a z).2 (l.filter (fun b => ids b ≠ ids a) ++ [a]) := by
  obtain ⟨buf, hbuf, he⟩ := add_store (s.path (ids a)) a z
  rw [he, Shelf, Zenoh.get, Table.select_put (a := (s.path (ids a), Value.raw buf))
    (matches_all_path ho hn ha)]
  refine List.rel_append (List.rel_filter (fun row b hrow => ?_) h)
    (List.Forall₂.cons ⟨rfl, hbuf, ha⟩ List.Forall₂.nil)
  show decide _ = true ↔ decide _ = true
  rw [decide_eq_true_iff, decide_eq_true_iff, hrow.path, ne_eq, ne_eq,
    path_eq_iff ho hrow.takes ha]

theorem Shelf.erase (h : s.Shelf n ids z l) (ho : s.Owned) {k : List Uuid}
    (hk : s.Takes k.length) :
    s.Shelf n ids (z.erase (s.path k)) (l.filter fun b => ids b ≠ k) := by
  rw [Shelf, Zenoh.get, Table.select_erase]
  refine List.rel_filter (fun row b hrow => ?_) h
  show decide _ = true ↔ decide _ = true
  rw [decide_eq_true_iff, decide_eq_true_iff, hrow.path, ne_eq, ne_eq,
    path_eq_iff ho hrow.takes hk]

theorem not_matches_beside (hn : s.Takes n) (ho : s'.Owned) {k : List Uuid}
    (hk : s'.Takes k.length) (hne : s ≠ s') :
    ¬ Matches "*" (s.selector (List.replicate n none)) (s'.path k) :=
  fun hm => hne (eq_of_matches ho (by simpa using hn) hk hm).1

theorem Shelf.add_beside (h : s.Shelf n ids z l) (hn : s.Takes n) (ho : s'.Owned) {k : List Uuid}
    (hk : s'.Takes k.length) (hne : s ≠ s') (b : β) :
    s.Shelf n ids (Zenoh.add (s'.path k) b z).2 l := by
  obtain ⟨buf, -, he⟩ := add_store (s'.path k) b z
  rwa [he, Shelf, Zenoh.get, Table.select_put_of_not (a := (_, Value.raw buf))
    (not_matches_beside hn ho hk hne)]

theorem Shelf.erase_beside (h : s.Shelf n ids z l) (hn : s.Takes n) (ho : s'.Owned)
    {k : List Uuid} (hk : s'.Takes k.length) (hne : s ≠ s') :
    s.Shelf n ids (z.erase (s'.path k)) l := by
  rwa [Shelf, Zenoh.get, Table.select_erase_of_not (not_matches_beside hn ho hk hne)]

end Fog05.ZConnector.Space
