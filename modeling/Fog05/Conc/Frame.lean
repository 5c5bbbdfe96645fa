import Fog05.Conc.Table
import Mathlib.Data.Set.Insert

/-! What a change of a table leaves alone, when new rows get keys not given out before, and
which rows are new since then. -/

namespace Conc

namespace Table

variable {α κ : Type} {key : α → κ}

/-- What may have become of the rows: one whose key is not among `touched` is still there,
and one whose key is among `issued` was there under that key. -/
structure Frame (t t' : Table key) (touched issued : List κ) : Prop where
  kept : ∀ a ∈ t, key a ∈ issued → key a ∉ touched → a ∈ t'
  old : ∀ a ∈ t', key a ∈ issued → ∃ b ∈ t, key b = key a

namespace Frame

variable {t t' t'' : Table key} {touched issued issued' : List κ}

theorem refl (t : Table key) : t.Frame t touched issued :=
  ⟨fun _ ha _ _ => ha, fun a ha _ => ⟨a, ha, rfl⟩⟩

theorem comp {touched' : List κ} (h : t.Frame t' touched issued)
    (h' : t'.Frame t'' touched' issued') (hissued : issued ⊆ issued')
    (htouched : ∀ k ∈ touched', k ∈ issued → k ∈ touched) : t.Frame t'' touched issued where
  kept a ha hk ht := h'.kept a (h.kept a ha hk ht) (hissued hk) fun hmem => ht (htouched _ hmem hk)
  old a ha hk := by
    obtain ⟨b, hb, hba⟩ := h'.old a ha (hissued hk)
    obtain ⟨c, hc, hcb⟩ := h.old b hb (hba ▸ hk)
    exact ⟨c, hc, hcb.trans hba⟩

theorem trans (h : t.Frame t' touched issued) (h' : t'.Frame t'' touched issued')
    (hissued : issued ⊆ issued') : t.Frame t'' touched issued :=
  h.comp h' hissued fun _ hk _ => hk

variable [DecidableEq κ] {a : α} {k : κ}

theorem put (ha : key a ∈ touched) (hold : key a ∈ issued → ∃ b ∈ t, key b = key a) :
    t.Frame (t.put a) touched issued where
  kept b hb _ ht := mem_put.2 (Or.inr ⟨hb, fun hk => ht (hk ▸ ha)⟩)
  old b hb hk := by
    rcases mem_put.1 hb with rfl | ⟨hb, -⟩
    · exact hold hk
    · exact ⟨b, hb, rfl⟩

theorem putNew (ha : key a ∉ issued) : t.Frame (t.put a) touched issued where
  kept b hb hk _ := mem_put.2 (Or.inr ⟨hb, fun hba => ha (hba ▸ hk)⟩)
  old b hb hk := by
    rcases mem_put.1 hb with rfl | ⟨hb, -⟩
    · exact absurd hk ha
    · exact ⟨b, hb, rfl⟩

theorem foldl_putNew {l : List α} (hl : ∀ a ∈ l, key a ∉ issued) :
    t.Frame (l.foldl Table.put t) touched issued := by
  induction l generalizing t with
  | nil => exact refl t
  | cons a l ih =>
    have hfirst : t.Frame (t.put a) touched issued := putNew (hl a List.mem_cons_self)
    exact hfirst.trans (ih fun b hb => hl b (List.mem_cons_of_mem _ hb)) (List.Subset.refl _)

theorem erase (hk : k ∈ touched) : t.Frame (t.erase k) touched issued where
  kept _ ha _ ht := mem_erase.2 ⟨ha, fun hak => ht (hak ▸ hk)⟩
  old a ha _ := ⟨a, (mem_erase.1 ha).1, rfl⟩

end Frame

/-- The keys of the rows that are new since `issued` had been given out. -/
def fresh (t : Table key) (issued : List κ) : Set κ := {k | k ∉ issued ∧ ∃ a ∈ t, key a = k}

section Fresh

variable {t t' : Table key} {issued : List κ}

theorem mem_fresh {k : κ} : k ∈ t.fresh issued ↔ k ∉ issued ∧ ∃ a ∈ t, key a = k := Iff.rfl

theorem fresh_eq_empty (ht : ∀ a ∈ t, key a ∈ issued) : t.fresh issued = ∅ := by
  ext k
  refine iff_of_false ?_ (Set.notMem_empty k)
  rintro ⟨hk, a, ha, rfl⟩
  exact hk (ht a ha)

variable [DecidableEq κ]

theorem fresh_put {a : α} (ha : key a ∉ issued) :
    (t.put a).fresh issued = insert (key a) (t.fresh issued) := by
  ext k
  rw [Set.mem_insert_iff, mem_fresh, mem_fresh]
  by_cases hk : k = key a
  · subst hk
    simp [ha]
  · simp only [hk, false_or]
    refine and_congr_right fun _ => ⟨?_, fun h => exists_mem_put h a⟩
    rintro ⟨b, hb, rfl⟩
    rcases mem_put.1 hb with rfl | ⟨hb, -⟩
    · exact absurd rfl hk
    · exact ⟨b, hb, rfl⟩

theorem fresh_put_old {a : α} (ha : ∃ b ∈ t, key b = key a) :
    (t.put a).fresh issued = t.fresh issued := by
  ext k
  rw [mem_fresh, mem_fresh]
  refine and_congr_right fun _ => ⟨?_, fun h => exists_mem_put h a⟩
  rintro ⟨b, hb, rfl⟩
  rcases mem_put.1 hb with rfl | ⟨hb, -⟩
  · exact ha
  · exact ⟨b, hb, rfl⟩

theorem fresh_erase (k : κ) : (t.erase k).fresh issued = t.fresh issued \ {k} := by
  ext l
  rw [Set.mem_sdiff, mem_fresh, mem_fresh, Set.mem_singleton_iff]
  constructor
  · rintro ⟨hl, a, ha, rfl⟩
    obtain ⟨ha, hak⟩ := mem_erase.1 ha
    exact ⟨⟨hl, a, ha, rfl⟩, hak⟩
  · rintro ⟨⟨hl, a, ha, rfl⟩, hak⟩
    exact ⟨hl, a, mem_erase.2 ⟨ha, hak⟩, rfl⟩

end Fresh

end Table

end Conc
