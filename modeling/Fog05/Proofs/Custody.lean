import Fog05.Proofs.Guards

/-! Who has which guard, in every run of a node, and what the registry is meanwhile: it changes
only under the agent's guard to write, so each call on it is served as if at once. -/

namespace Fog05.Processes

open Conc

section Inner

variable {a : Inner} {name name' : String}

theorem Inner.client_put (p : Uuid) :
    Inner.client { a with hypervisors := a.hypervisors.put (name, p) } =
      Function.update a.client name (some p) := by
  funext name'
  by_cases hname : name' = name
  · subst hname
    have hnone : (a.hypervisors.select (· = name')).filter (fun b => b.1 ≠ name') = [] := by
      refine List.filter_eq_nil_iff.2 fun b hb => ?_
      simpa using (Table.mem_select.1 hb).2
    rw [Function.update_self, Inner.client, Table.select_put (q := (· = name')) rfl, hnone]
    rfl
  · rw [Function.update_of_ne hname, Inner.client,
      Table.select_put_of_not (q := (· = name')) (Ne.symm hname)]
    rfl

theorem Inner.client_erase :
    Inner.client { a with hypervisors := a.hypervisors.erase name } =
      Function.update a.client name none := by
  funext name'
  by_cases hname : name' = name
  · subst hname
    have hnone : (a.hypervisors.select (· = name')).filter (fun b => b.1 ≠ name') = [] := by
      refine List.filter_eq_nil_iff.2 fun b hb => ?_
      simpa using (Table.mem_select.1 hb).2
    rw [Function.update_self, Inner.client, Table.select_erase, hnone]
    rfl
  · rw [Function.update_of_ne hname, Inner.client,
      Table.select_erase_of_not (q := (· = name')) (Ne.symm hname)]
    rfl

theorem Inner.mem_names : name ∈ a.hypervisors.rows.map Prod.fst ↔ a.client name ≠ none := by
  rw [Inner.client, Ne, Option.map_eq_none_iff, List.head?_eq_none_iff]
  constructor
  · intro hname
    obtain ⟨b, hb, rfl⟩ := List.mem_map.1 hname
    exact List.ne_nil_of_mem (Table.mem_select.2 ⟨hb, by simp⟩)
  · intro hne
    obtain ⟨b, hb⟩ := List.exists_mem_of_ne_nil _ hne
    obtain ⟨hrow, hb⟩ := Table.mem_select.1 hb
    exact List.mem_map.2 ⟨b, hrow, hb⟩

end Inner

/-- The calls have been served one after the other, from a node without plugins, with these
answers, and have led to this registry. -/
inductive Served : List (RegistryCall × Except FError Uuid) → Registry → Prop
  | new : Served [] .new
  | call {l r} (c : RegistryCall) (f : Faults) : Served l r →
      Served (l ++ [(c, (c.serve f r).1)]) (c.serve f r).2

/-- The guard of this lock that it has. -/
def Entry.held (l : Lock) (q : Entry) : Option Mode :=
  match q.guard with
  | some (l', m) => if l' = l then some m else none
  | none => none

theorem Entry.held_eq_some {q : Entry} {l : Lock} {m : Mode} :
    q.held l = some m ↔ q.guard = some (l, m) := by
  unfold held
  cases q.guard with
  | none => simp
  | some x =>
    obtain ⟨l', m'⟩ := x
    by_cases hl : l' = l <;> simp [hl]

/-- The locks and their holders agree. -/
def Custody (qs : List Entry) (s : Node) : Prop := ∀ l, (s.locks l).Counts (qs.map (Entry.held l))

/-- What the holders of the agent's guards know of the registry, and what the others may expect
of it. -/
structure Books (qs : List Entry) (s : Node) : Prop where
  seen : ∀ q ∈ qs, ∀ m, q.guard = some (.agent, m) →
    s.registry = q.now ∧ Served s.served q.before ∧ (m = .read → q.before = q.now)
  rest : (∀ q ∈ qs, ∀ m, q.guard ≠ some (.agent, m)) → Served s.served s.registry
  reported : ∀ st, s.globalStatus = some st ∨ s.localStatus = some st →
    ∃ l r, l <+: s.served ∧ Served l r ∧ st.Reports r

section Steps

variable {qs : List Entry} {s s' : Node} {i j : ℕ} {q q' q₁ : Entry} {l : Lock} {m m' : Mode}

namespace Custody

theorem idle : Custody [] .new := fun _ => RwLock.counts_free

theorem add (h : Custody qs s) (hq : q.guard = none) : Custody (qs ++ [q]) s := fun l => by
  simpa [Entry.held, hq] using (h l).append

theorem drop (h : Custody qs s) (hi : qs[i]? = some q) (hq : q.guard = none) :
    Custody (qs.eraseIdx i) s := fun l => by
  rw [← List.eraseIdx_map]
  exact (h l).leave (by simp [hi, Entry.held, hq])

theorem same (h : Custody qs s) (hi : qs[i]? = some q) (hq : q'.guard = q.guard)
    (hs : s'.locks = s.locks) : Custody (qs.set i q') s' := fun l => by
  have hheld : q'.held l = q.held l := by rw [Entry.held, hq]; rfl
  rw [List.map_set, hheld, set_of_getElem? (by simp [hi]), hs]
  exact h l

theorem acquire (h : Custody qs s) (hi : qs[i]? = some q) (hq : q.guard = none) {x : RwLock}
    (hx : (s.locks l).acquire m = some x) (hq' : q'.guard = some (l, m)) :
    Custody (qs.set i q') (s.setLock l x) := fun l' => by
  have hnone : q.held l' = none := by rw [Entry.held, hq]
  rw [List.map_set]
  change (Function.update s.locks l x l').Counts _
  by_cases hl : l' = l
  · subst hl
    rw [Entry.held_eq_some.2 hq', Function.update_self]
    exact (h l').acquire (by simp [hi, hnone]) hx
  · have hnone' : q'.held l' = none := by simp [Entry.held, hq', Ne.symm hl]
    rw [hnone', ← hnone, Function.update_of_ne hl, set_of_getElem? (by simp [hi])]
    exact h l'

theorem release (h : Custody qs s) (hi : qs[i]? = some q) (hq : q.guard = some (l, m))
    (hq' : q'.guard = none) :
    Custody (qs.set i q') (s.setLock l ((s.locks l).release m)) := fun l' => by
  have hnone : q'.held l' = none := by rw [Entry.held, hq']
  rw [List.map_set, hnone]
  change (Function.update s.locks l _ l').Counts _
  by_cases hl : l' = l
  · subst hl
    rw [Function.update_self]
    exact (h l').release (by simp [hi, Entry.held_eq_some.2 hq])
  · have hnone' : q.held l' = none := by simp [Entry.held, hq, Ne.symm hl]
    rw [Function.update_of_ne hl, set_of_getElem? (by simp [hi, hnone'])]
    exact h l'

theorem alone (h : Custody qs s) (hi : qs[i]? = some q) (hq : q.guard = some (l, .write))
    (hij : j ≠ i) (hj : qs[j]? = some q₁) : q₁.guard ≠ some (l, m) := fun hm => by
  refine hij ((h l).exclusive (m := m) (i := i) (j := j) ?_ ?_)
  · simp [hi, Entry.held_eq_some.2 hq]
  · simp [hj, Entry.held_eq_some.2 hm]

theorem refuses (h : Custody qs s) (hi : qs[i]? = some q) (hq : q.guard = some (l, m'))
    (hm : m = .write ∨ m' = .write) : (s.locks l).acquire m = none :=
  (h l).refuses (j := i) (by simp [hi, Entry.held_eq_some.2 hq]) hm

theorem waits (h : Custody qs s) (hl : (s.locks l).acquire m = none) :
    ∃ (j : ℕ) (q : Entry) (m' : Mode), qs[j]? = some q ∧ q.guard = some (l, m') := by
  obtain ⟨j, m', hj, -⟩ := (h l).waits hl
  obtain ⟨q, hq, hheld⟩ : ∃ q, qs[j]? = some q ∧ q.held l = some m' := by simpa using hj
  exact ⟨j, q, m', hq, Entry.held_eq_some.1 hheld⟩

theorem no_writer (h : Custody qs s) (hl : (s.locks l).writer = false) :
    ∀ q ∈ qs, q.guard ≠ some (l, .write) := by
  intro q hq hwrite
  have hpos : 0 < (qs.map (Entry.held l)).count (some .write) :=
    List.count_pos_iff.2 (List.mem_map.2 ⟨q, hq, Entry.held_eq_some.2 hwrite⟩)
  rw [(h l).writer, hl] at hpos
  cases hpos

theorem no_writer_of_acquire (h : Custody qs s) {x : RwLock}
    (hx : (s.locks l).acquire m = some x) : ∀ q ∈ qs, q.guard ≠ some (l, .write) := by
  intro q hq hwrite
  obtain ⟨j, hj⟩ := List.getElem?_of_mem hq
  rw [h.refuses hj hwrite (Or.inr rfl)] at hx
  cases hx

end Custody

namespace Books

theorem idle : Books [] .new where
  seen _ hq := absurd hq List.not_mem_nil
  rest _ := .new
  reported _ h := by rcases h with h | h <;> cases h

theorem add (h : Books qs s) (hq : q.guard = none) : Books (qs ++ [q]) s where
  seen q₁ hq₁ m hm := by
    rcases List.mem_append.1 hq₁ with hq₁ | hq₁
    · exact h.seen q₁ hq₁ m hm
    · rw [List.mem_singleton.1 hq₁, hq] at hm
      cases hm
  rest hnone := h.rest fun q hq => hnone q (List.mem_append_left _ hq)
  reported := h.reported

theorem drop (h : Books qs s) (hi : qs[i]? = some q) (hq : q.guard = none) :
    Books (qs.eraseIdx i) s where
  seen q₁ hq₁ := h.seen q₁ (List.mem_of_mem_eraseIdx hq₁)
  rest hnone := by
    refine h.rest fun q₁ hq₁ m hm => ?_
    obtain ⟨j, hj⟩ := List.getElem?_of_mem hq₁
    by_cases hij : j = i
    · subst hij
      rw [← Option.some.inj (hi.symm.trans hj), hq] at hm
      cases hm
    · exact hnone q₁ (List.mem_eraseIdx_iff_getElem?.2 ⟨j, hij, hj⟩) m hm
  reported := h.reported

theorem outside (h : Books qs s) (hr : s'.registry = s.registry) (hs : s'.served = s.served)
    (hreported : ∀ st, s'.globalStatus = some st ∨ s'.localStatus = some st →
      ∃ l r, l <+: s.served ∧ Served l r ∧ st.Reports r) : Books qs s' where
  seen q hq m hm := by
    rw [hr, hs]
    exact h.seen q hq m hm
  rest hnone := by
    rw [hr, hs]
    exact h.rest hnone
  reported := by
    rw [hs]
    exact hreported

theorem same (h : Books qs s) (hi : qs[i]? = some q)
    (hguard : ∀ m, q'.guard = some (.agent, m) ↔ q.guard = some (.agent, m))
    (hbefore : q'.before = q.before) (hnow : q'.now = q.now) : Books (qs.set i q') s where
  seen := forall_mem_set h.seen (fun m hm => by
    rw [hbefore, hnow]
    exact h.seen q (List.mem_of_getElem? hi) m ((hguard m).1 hm)) i
  rest hnone := by
    refine h.rest fun q₁ hq₁ m hm => ?_
    obtain ⟨j, hj⟩ := List.getElem?_of_mem hq₁
    by_cases hij : j = i
    · subst hij
      rw [← Option.some.inj (hi.symm.trans hj)] at hm
      exact hnone q' (List.mem_set (List.getElem?_eq_some_iff.1 hi).1 _) m ((hguard m).2 hm)
    · exact hnone q₁ (List.mem_of_getElem? (i := j) (by rwa [List.getElem?_set_ne (Ne.symm hij)])) m hm
  reported := h.reported

theorem exists_served (h : Books qs s) : ∃ r, Served s.served r := by
  by_cases hall : ∀ q ∈ qs, ∀ m, q.guard ≠ some (.agent, m)
  · exact ⟨_, h.rest hall⟩
  · push Not at hall
    obtain ⟨q, hq, m, hm⟩ := hall
    exact ⟨_, (h.seen q hq m hm).2.1⟩

/-- Nobody writes: what has been answered has led to the registry as it is. -/
theorem settled (h : Books qs s) (hnone : ∀ q ∈ qs, q.guard ≠ some (.agent, .write)) :
    Served s.served s.registry := by
  by_cases hall : ∀ q ∈ qs, ∀ m, q.guard ≠ some (.agent, m)
  · exact h.rest hall
  · push Not at hall
    obtain ⟨q, hq, m, hm⟩ := hall
    obtain ⟨hseen, hserved, hread⟩ := h.seen q hq m hm
    cases m with
    | read =>
      rw [hseen, ← hread rfl]
      exact hserved
    | write => exact absurd hm (hnone q hq)

theorem lock (h : Books qs s) (hi : qs[i]? = some q)
    (hnone : ∀ q ∈ qs, q.guard ≠ some (.agent, .write)) (hq' : q'.guard = some (.agent, m))
    (hbefore : q'.before = s.registry) (hnow : q'.now = s.registry) : Books (qs.set i q') s where
  seen := forall_mem_set h.seen (fun m' hm => by
    rw [hbefore, hnow]
    exact ⟨rfl, h.settled hnone, fun _ => rfl⟩) i
  rest hnone' := absurd hq' (hnone' q' (List.mem_set (List.getElem?_eq_some_iff.1 hi).1 _) m)
  reported := h.reported

theorem unlock (h : Books qs s) (hi : qs[i]? = some q) (hq : q.guard = some (.agent, m))
    (hnow : q.before = q.now) (hq' : q'.guard = none) : Books (qs.set i q') s where
  seen := forall_mem_set h.seen (fun m' hm => by
    rw [hq'] at hm
    cases hm) i
  rest _ := by
    obtain ⟨hseen, hserved, -⟩ := h.seen q (List.mem_of_getElem? hi) m hq
    rw [hseen, ← hnow]
    exact hserved
  reported := h.reported

theorem write (h : Books qs s) (hi : qs[i]? = some q) (hq' : q'.guard = some (.agent, .write))
    (halone : ∀ j q₁ m, j ≠ i → qs[j]? = some q₁ → q₁.guard ≠ some (.agent, m))
    (hnow : s'.registry = q'.now) (hserved : Served s'.served q'.before)
    (hpre : s.served <+: s'.served) (hglobal : s'.globalStatus = s.globalStatus)
    (hlocal : s'.localStatus = s.localStatus) : Books (qs.set i q') s' where
  seen q₁ hq₁ m hm := by
    rcases Machine.eq_or_of_mem_set hq₁ with rfl | ⟨j, hij, hj⟩
    · refine ⟨hnow, hserved, fun hread => ?_⟩
      rw [hq', hread] at hm
      cases hm
    · exact absurd hm (halone j q₁ m hij hj)
  rest hnone := absurd hq' (hnone q' (List.mem_set (List.getElem?_eq_some_iff.1 hi).1 _) _)
  reported st hst := by
    rw [hglobal, hlocal] at hst
    obtain ⟨l, r, hl, hr⟩ := h.reported st hst
    exact ⟨l, r, hl.trans hpre, hr⟩

theorem publish (h : Books qs s) (hi : qs[i]? = some q) {st : NodeStatus}
    (hq : q.guard = some (.agent, .read) ∧ st.Reports q.now) :
    ∃ l r, l <+: s.served ∧ Served l r ∧ st.Reports r := by
  obtain ⟨-, hserved, hread⟩ := h.seen q (List.mem_of_getElem? hi) .read hq.1
  exact ⟨s.served, q.now, List.prefix_rfl, hread rfl ▸ hserved, hq.2⟩

end Books

end Steps

end Fog05.Processes
