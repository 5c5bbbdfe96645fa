import Mathlib.Data.List.Induction
import Mathlib.Data.List.Nodup
import Mathlib.Data.Nat.Notation

/-! Tables: finite collections in which every row has a key of its own. A
selector is a predicate on keys and returns the rows it matches. -/

namespace Conc

variable {α κ : Type} {key : α → κ}

structure Table (key : α → κ) where
  rows : List α
  distinct : (rows.map key).Nodup

namespace Table

instance : Membership α (Table key) := ⟨fun t a => a ∈ t.rows⟩

theorem mem_def {t : Table key} {a : α} : a ∈ t ↔ a ∈ t.rows := Iff.rfl

def empty : Table key := ⟨[], List.nodup_nil⟩

def select (q : κ → Prop) [DecidablePred q] (t : Table key) : List α :=
  t.rows.filter fun a => q (key a)

theorem eq_of_key {t : Table key} {a b : α} (ha : a ∈ t) (hb : b ∈ t) (h : key a = key b) :
    a = b :=
  List.inj_on_of_nodup_map t.distinct ha hb h

@[simp] theorem mem_select {q : κ → Prop} [DecidablePred q] {t : Table key} {a : α} :
    a ∈ t.select q ↔ a ∈ t ∧ q (key a) := by
  simp [select, mem_def]

@[simp] theorem not_mem_empty (a : α) : a ∉ (empty : Table key) := List.not_mem_nil

theorem nodup_filter {t : Table key} (p : α → Bool) : ((t.rows.filter p).map key).Nodup :=
  t.distinct.sublist (List.filter_sublist.map key)

variable [DecidableEq κ]

def erase (t : Table key) (k : κ) : Table key :=
  ⟨t.rows.filter fun a => key a ≠ k, nodup_filter _⟩

/-- Add a row, in place of the one with the same key. -/
def put (t : Table key) (a : α) : Table key where
  rows := (t.rows.filter fun b => key b ≠ key a) ++ [a]
  distinct := by
    rw [List.map_append, List.nodup_append]
    refine ⟨nodup_filter _, by simp, fun k hk k' hk' => ?_⟩
    obtain ⟨b, hb, rfl⟩ := List.mem_map.1 hk
    obtain rfl : k' = key a := by simpa using hk'
    simpa using (List.mem_filter.1 hb).2

@[simp] theorem mem_erase {t : Table key} {k : κ} {a : α} :
    a ∈ t.erase k ↔ a ∈ t ∧ key a ≠ k := by
  simp [erase, mem_def]

@[simp] theorem mem_put {t : Table key} {a b : α} :
    b ∈ t.put a ↔ b = a ∨ b ∈ t ∧ key b ≠ key a := by
  simp [put, mem_def, or_comm]

theorem mem_put_self (t : Table key) (a : α) : a ∈ t.put a := mem_put.2 (Or.inl rfl)

theorem forall_put {P : α → Prop} {t : Table key} {a : α} (ha : P a) (ht : ∀ b ∈ t, P b) :
    ∀ b ∈ t.put a, P b := by
  intro b hb
  rcases mem_put.1 hb with rfl | ⟨hb, -⟩
  · exact ha
  · exact ht b hb

theorem exists_mem_put {t : Table key} {k : κ} (h : ∃ b ∈ t, key b = k) (a : α) :
    ∃ b ∈ t.put a, key b = k := by
  obtain ⟨b, hb, rfl⟩ := h
  by_cases ha : key b = key a
  · exact ⟨a, mem_put_self t a, ha.symm⟩
  · exact ⟨b, mem_put.2 (Or.inr ⟨hb, ha⟩), rfl⟩

theorem mem_of_mem_foldl_put {t : Table key} {l : List α} {a : α} (h : a ∈ l.foldl put t) :
    a ∈ l ∨ a ∈ t := by
  induction l generalizing t with
  | nil => exact Or.inr h
  | cons b l ih =>
    rcases ih h with ha | ha
    · exact Or.inl (List.mem_cons_of_mem _ ha)
    · rcases mem_put.1 ha with rfl | ⟨ha, -⟩
      · exact Or.inl List.mem_cons_self
      · exact Or.inr ha

theorem erase_eq_self {t : Table key} {k : κ} (h : ∀ a ∈ t, key a ≠ k) : t.erase k = t := by
  obtain ⟨rows, distinct⟩ := t
  simp only [erase, Table.mk.injEq]
  apply List.filter_eq_self.2
  intro a ha
  simpa using h a ha

variable {q : κ → Prop} [DecidablePred q] {t : Table key}

theorem select_put_of_not {a : α} (h : ¬ q (key a)) : (t.put a).select q = t.select q := by
  simp only [select, put, List.filter_append, List.filter_filter]
  rw [List.filter_singleton]
  simp only [h, decide_false, cond_false, List.append_nil]
  apply List.filter_congr
  intro b _
  have : q (key b) → key b ≠ key a := fun hb hk => h (hk ▸ hb)
  simpa using this

theorem select_put {a : α} (h : q (key a)) :
    (t.put a).select q = (t.select q).filter (fun b => key b ≠ key a) ++ [a] := by
  simp only [select, put, List.filter_append, List.filter_filter]
  rw [List.filter_singleton]
  simp only [h, decide_true, cond_true, List.append_cancel_right_eq]
  exact List.filter_congr fun b _ => Bool.and_comm _ _

theorem select_erase_of_not {k : κ} (h : ¬ q k) : (t.erase k).select q = t.select q := by
  simp only [select, erase, List.filter_filter]
  apply List.filter_congr
  intro b _
  have : q (key b) → key b ≠ k := fun hb hk => h (hk ▸ hb)
  simpa using this

theorem select_erase (k : κ) :
    (t.erase k).select q = (t.select q).filter fun b => key b ≠ k := by
  simp only [select, erase, List.filter_filter]
  exact List.filter_congr fun b _ => Bool.and_comm _ _

theorem select_put_of_single {a b : α} (h : t.select q = [b]) (hk : key b = key a) :
    (t.put a).select q = [a] := by
  have hq : q (key b) := (mem_select.1 (h ▸ List.mem_singleton_self b)).2
  rw [select_put (hk ▸ hq), h]
  simp [hk]

theorem select_put_of_nil {a : α} (h : t.select q = []) (hq : q (key a)) :
    (t.put a).select q = [a] := by
  rw [select_put hq, h]
  rfl

theorem select_put_congr {t' : Table key} (a : α) (h : t.select q = t'.select q) :
    (t.put a).select q = (t'.put a).select q := by
  by_cases ha : q (key a)
  · rw [select_put ha, select_put ha, h]
  · rw [select_put_of_not ha, select_put_of_not ha, h]

theorem select_foldl_put_congr {t' : Table key} (l : List α) (h : t.select q = t'.select q) :
    (l.foldl put t).select q = (l.foldl put t').select q := by
  induction l generalizing t t' with
  | nil => exact h
  | cons a l ih => exact ih (select_put_congr a h)

theorem select_foldl_put {t' : Table key} {l : List α} {k : κ} (h : ∃ a ∈ l, key a = k) :
    (l.foldl put t).select (· = k) = (l.foldl put t').select (· = k) := by
  induction l generalizing t t' with
  | nil => simp at h
  | cons a l ih =>
    by_cases ha : key a = k
    · subst ha
      apply select_foldl_put_congr l
      rw [select_put (q := (· = key a)) rfl, select_put (q := (· = key a)) rfl]
      simp [select, List.filter_filter]
    · exact ih (by simpa [ha] using h)

theorem select_foldl_put_empty (l : List α) (k : κ) :
    (l.foldl put empty : Table key).select (· = k) =
      (l.filter fun a => key a = k).getLast?.toList := by
  induction l using List.reverseRecOn with
  | nil => rfl
  | append_singleton l a ih =>
    rw [List.foldl_concat, List.filter_append, List.filter_singleton]
    by_cases ha : key a = k
    · subst ha
      rw [select_put (q := (· = key a)) rfl]
      simp [select, List.filter_filter]
    · rw [select_put_of_not (q := (· = k)) ha, ih]
      simp [ha]

theorem getLast_of_mem_foldl_put {l : List α} {a : α} (h : a ∈ (l.foldl put empty : Table key)) :
    (l.filter fun b => key b = key a).getLast? = some a := by
  have hmem : a ∈ (l.foldl put empty : Table key).select (· = key a) := mem_select.2 ⟨h, rfl⟩
  rw [select_foldl_put_empty] at hmem
  exact Option.mem_toList.1 hmem

theorem exists_mem_foldl_put {l : List α} {a : α} (h : a ∈ l) :
    ∃ b ∈ (l.foldl put empty : Table key), key b = key a := by
  have hlast : (l.foldl put empty : Table key).select (· = key a) = _ :=
    select_foldl_put_empty l (key a)
  cases hb : (l.filter fun b => key b = key a).getLast? with
  | none =>
    rw [List.getLast?_eq_none_iff] at hb
    exact absurd (hb ▸ List.mem_filter.2 ⟨h, decide_eq_true rfl⟩) List.not_mem_nil
  | some b =>
    have hmem : b ∈ (l.foldl put empty : Table key).select (· = key a) := by
      rw [hlast, hb]
      exact List.mem_singleton_self b
    exact ⟨b, mem_select.1 hmem⟩

end Table

end Conc
