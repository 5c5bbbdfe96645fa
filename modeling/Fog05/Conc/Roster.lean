import Fog05.Conc.Table

/-! Rosters: a list of keys kept beside a table, of the rows that have some property. Each
link is stored twice, in the row and in the list, and both have to be changed together. -/

namespace Conc

namespace Table

variable {α κ : Type} {key : α → κ}

/-- `l` lists the rows with property `p`, each once, and nothing else. -/
structure Lists (t : Table key) (p : α → Prop) (l : List κ) : Prop where
  mem : ∀ a ∈ t, p a ↔ key a ∈ l
  once : l.Nodup
  stored : ∀ k ∈ l, ∃ a ∈ t, key a = k

namespace Lists

variable {t t' : Table key} {p : α → Prop} {l : List κ} {a b : α} {k : κ}

theorem nil (h : ∀ a ∈ t, ¬ p a) : t.Lists p [] where
  mem a ha := iff_of_false (h a ha) List.not_mem_nil
  once := List.nodup_nil
  stored _ hk := absurd hk List.not_mem_nil

theorem without_iff {gone : List κ} (h : t.Lists p l)
    (ht : ∀ a, a ∈ t' ↔ a ∈ t ∧ key a ∉ gone) : t'.Lists p l ↔ ∀ k ∈ gone, k ∉ l := by
  constructor
  · intro h' k hk hl
    obtain ⟨a, ha, rfl⟩ := h'.stored k hl
    exact ((ht a).1 ha).2 hk
  · intro hgone
    refine ⟨fun a ha => h.mem a ((ht a).1 ha).1, h.once, fun k hk => ?_⟩
    obtain ⟨a, ha, rfl⟩ := h.stored k hk
    exact ⟨a, (ht a).2 ⟨ha, fun hg => hgone _ hg hk⟩, rfl⟩

variable [DecidableEq κ]

theorem put_iff (h : t.Lists p l) : (t.put a).Lists p l ↔ (p a ↔ key a ∈ l) := by
  constructor
  · exact fun h' => h'.mem a (mem_put_self t a)
  · intro ha
    refine ⟨fun b hb => ?_, h.once, fun k hk => ?_⟩
    · rcases mem_put.1 hb with rfl | ⟨hb, -⟩
      · exact ha
      · exact h.mem b hb
    · obtain ⟨b, hb, rfl⟩ := h.stored k hk
      by_cases hba : key b = key a
      · exact ⟨a, mem_put_self t a, hba.symm⟩
      · exact ⟨b, mem_put.2 (Or.inr ⟨hb, hba⟩), rfl⟩

theorem replace (h : t.Lists p l) (hb : b ∈ t) (hkey : key a = key b) (hp : p a ↔ p b) :
    (t.put a).Lists p l := by
  apply h.put_iff.2
  rw [hkey, hp]
  exact h.mem b hb

theorem push_iff (h : t.Lists p l) : (t.put a).Lists p (l ++ [key a]) ↔ p a ∧ key a ∉ l := by
  constructor
  · intro h'
    refine ⟨(h'.mem a (mem_put_self t a)).2 (by simp), fun hmem => ?_⟩
    exact (List.nodup_append.1 h'.once).2.2 _ hmem _ (List.mem_singleton_self _) rfl
  · rintro ⟨hp, hnew⟩
    refine ⟨fun b hb => ?_, ?_, fun k hk => ?_⟩
    · rcases mem_put.1 hb with rfl | ⟨hb, hba⟩
      · simp [hp]
      · simp [h.mem b hb, hba]
    · rw [List.nodup_append]
      refine ⟨h.once, List.nodup_singleton _, fun k hk k' hk' hkk => hnew ?_⟩
      rwa [← List.mem_singleton.1 hk', ← hkk]
    · rcases List.mem_append.1 hk with hk | hk
      · obtain ⟨b, hb, rfl⟩ := h.stored k hk
        exact ⟨b, mem_put.2 (Or.inr ⟨hb, fun hba => hnew (hba ▸ hk)⟩), rfl⟩
      · exact ⟨a, mem_put_self t a, (List.mem_singleton.1 hk).symm⟩

theorem remove (h : t.Lists p l) (hp : ¬ p a) : (t.put a).Lists p (l.erase (key a)) := by
  refine ⟨fun b hb => ?_, h.once.erase _, fun k hk => ?_⟩
  · rcases mem_put.1 hb with rfl | ⟨hb, hba⟩
    · simp [hp, h.once.mem_erase_iff]
    · simp [h.mem b hb, h.once.mem_erase_iff, hba]
  · obtain ⟨hka, hk⟩ := h.once.mem_erase_iff.1 hk
    obtain ⟨b, hb, rfl⟩ := h.stored k hk
    exact ⟨b, mem_put.2 (Or.inr ⟨hb, hka⟩), rfl⟩

theorem without_remove_iff {gone : List κ} (h : t.Lists p l)
    (ht : ∀ a, a ∈ t' ↔ a ∈ t ∧ key a ∉ k :: gone) :
    t'.Lists p (l.erase k) ↔ ∀ k' ∈ gone, k' ≠ k → k' ∉ l := by
  constructor
  · intro h' k' hk' hne hl
    obtain ⟨a, ha, rfl⟩ := h'.stored k' (h.once.mem_erase_iff.2 ⟨hne, hl⟩)
    exact ((ht a).1 ha).2 (List.mem_cons_of_mem _ hk')
  · intro hgone
    refine ⟨fun a ha => ?_, h.once.erase _, fun k' hk' => ?_⟩
    · obtain ⟨ha, hout⟩ := (ht a).1 ha
      have hne : key a ≠ k := fun hak => hout (hak ▸ List.mem_cons_self)
      simp [h.mem a ha, h.once.mem_erase_iff, hne]
    · obtain ⟨hne, hk'⟩ := h.once.mem_erase_iff.1 hk'
      obtain ⟨a, ha, rfl⟩ := h.stored k' hk'
      refine ⟨a, (ht a).2 ⟨ha, fun hg => ?_⟩, rfl⟩
      rcases List.mem_cons.1 hg with hg | hg
      · exact hne hg
      · exact hgone _ hg hne hk'

theorem foldl_put (h : t.Lists p l) {as : List α} (has : ∀ a ∈ as, ¬ p a ∧ key a ∉ l) :
    (as.foldl put t).Lists p l := by
  induction as generalizing t with
  | nil => exact h
  | cons a as ih =>
    have ha := has a List.mem_cons_self
    exact ih (h.put_iff.2 (iff_of_false ha.1 ha.2)) fun b hb => has b (List.mem_cons_of_mem _ hb)

theorem foldl_push (h : t.Lists p l) {as : List α} (has : ∀ a ∈ as, p a ∧ key a ∉ l)
    (hkeys : (as.map key).Nodup) : (as.foldl put t).Lists p (l ++ as.map key) := by
  induction as generalizing t l with
  | nil => simpa using h
  | cons a as ih =>
    rw [List.map_cons, List.nodup_cons] at hkeys
    have hpush := h.push_iff.2 (has a List.mem_cons_self)
    have hrest := ih hpush (fun b hb => ⟨(has b (List.mem_cons_of_mem _ hb)).1, ?_⟩) hkeys.2
    · simpa using hrest
    · rw [List.mem_append, List.mem_singleton]
      rintro (hmem | hba)
      · exact (has b (List.mem_cons_of_mem _ hb)).2 hmem
      · exact hkeys.1 (List.mem_map.2 ⟨b, hb, hba⟩)

end Lists

end Table

end Conc
