import Fog05.Proofs.Boot
import Fog05.Proofs.Follows

/-! The trail of an instance: the record that the global store has, and after it the
changes of the instance that the monitoring task of its node has still to copy. What
a client may read later is on it, the last of it being what was written last. -/

namespace Fog05

open Conc M

def Store.trail (st : Store) (n u : Uuid) : List FDURecord :=
  (st.global.instances.select fun path => path.2 = u) ++
    (st.node n).changes.filter fun i => i.uuid = u

section Trail

variable {st st' : Store} {n m u f : Uuid} {r r' i : FDURecord} {R : FDURecord → FDURecord → Prop}

theorem Store.mem_trail : i ∈ st.trail n u ↔
    (i ∈ st.global.instances ∨ i ∈ (st.node n).changes) ∧ i.uuid = u := by
  simp only [Store.trail, List.mem_append, Table.mem_select, List.mem_filter, decide_eq_true_eq,
    FDURecord.path, or_and_right]

theorem select_of_path {path : Uuid × Uuid} (h : ∀ i ∈ st.global.instances, i.uuid = u → i.path = path) :
    (st.global.instances.select fun path => path.2 = u) = [] ∨
      ∃ i, (st.global.instances.select fun path => path.2 = u) = [i] := by
  rcases hl : st.global.instances.select fun path => path.2 = u with _ | ⟨i, l⟩
  · exact Or.inl hl
  · have hi := Table.mem_select.1 (hl ▸ List.mem_cons_self : i ∈ st.global.instances.select _)
    refine Or.inr ⟨i, single_eq_ok.1 ((single_select_eq_ok fun j hj hju => ?_).2 hi)⟩
    exact Table.eq_of_key hj hi.1 ((h j hj hju).trans (h i hi.1 hi.2).symm)

theorem getInstance_trail {path : Uuid × Uuid}
    (h : ∀ i ∈ st.global.instances, i.uuid = u → i.path = path)
    (hseen : ∃ i ∈ st.global.instances, i.uuid = u) :
    ∃ i, st.global.getInstance u = .ok i ∧
      st.trail n u = i :: (st.node n).changes.filter fun j => j.uuid = u := by
  rcases select_of_path h with hnil | ⟨i, hi⟩
  · obtain ⟨j, hj, hu⟩ := hseen
    have : j ∈ st.global.instances.select fun path => path.2 = u := Table.mem_select.2 ⟨hj, hu⟩
    rw [hnil] at this
    exact absurd this List.not_mem_nil
  · refine ⟨i, single_eq_ok.2 hi, ?_⟩
    rw [Store.trail, hi, List.singleton_append]

/-- A round of a monitoring task moves along the trail, or changes nothing in it. -/
theorem trail_monitor {path : Uuid × Uuid} (h : st.monitor m = some st')
    (hsame : ∀ i ∈ st.trail n u, i.path = path)
    (helse : m ≠ n → ∀ i ∈ (st.node m).changes, i.uuid ≠ u) :
    st'.trail n u <:+ st.trail n u ∧ (st.trail n u ≠ [] → st'.trail n u ≠ []) := by
  unfold Store.monitor at h
  split at h
  · cases h
  · next inst changes hch =>
    cases h
    have hglobal : ∀ i ∈ st.global.instances, i.uuid = u → i.path = path := fun i hi hu =>
      hsame i (Store.mem_trail.2 ⟨Or.inl hi, hu⟩)
    by_cases hu : inst.uuid = u
    · obtain rfl : m = n := by
        by_contra hm
        exact helse hm inst (hch ▸ List.mem_cons_self) hu
      have hpath : inst.path = path :=
        hsame inst (Store.mem_trail.2 ⟨Or.inr (hch ▸ List.mem_cons_self), hu⟩)
      have hput : ((st.global.instances.put inst).select fun path => path.2 = u) = [inst] := by
        rcases select_of_path hglobal with hnil | ⟨i, hi⟩
        · exact Table.select_put_of_nil hnil hu
        · have hi' := Table.mem_select.1 (hi ▸ List.mem_singleton_self i)
          exact Table.select_put_of_single hi ((hglobal i hi'.1 hi'.2).trans hpath.symm)
      simp only [Store.trail, Store.globalPut, Store.setNode, Function.update_self, hput, hch,
        List.filter_cons, hu, decide_true, if_true]
      exact ⟨List.suffix_append _ _, fun _ => List.cons_ne_nil _ _⟩
    · have hput : ((st.global.instances.put inst).select fun path : Uuid × Uuid => path.2 = u) =
          st.global.instances.select fun path => path.2 = u :=
        Table.select_put_of_not (q := fun path : Uuid × Uuid => path.2 = u) hu
      have hsame : Store.trail ((st.setNode m { st.node m with changes }).globalPut inst) n u =
          st.trail n u := by
        by_cases hm : n = m
        · subst hm
          simp [Store.trail, Store.globalPut, Store.setNode, hput, hch, hu]
        · simp [Store.trail, Store.globalPut, Store.setNode, hput, Function.update_of_ne hm]
      rw [hsame]
      exact ⟨List.suffix_rfl, id⟩

theorem seen_monitor (h : st.monitor m = some st') (hseen : ∃ i ∈ st.global.instances, i.uuid = u) :
    ∃ i ∈ st'.global.instances, i.uuid = u := by
  unfold Store.monitor at h
  split at h
  · cases h
  · next inst changes hch =>
    cases h
    obtain ⟨i, hi, rfl⟩ := hseen
    by_cases hp : i.path = inst.path
    · exact ⟨inst, Table.mem_put_self _ _, (congrArg Prod.snd hp).symm⟩
    · exact ⟨i, Table.mem_put.2 (Or.inr ⟨hi, hp⟩), rfl⟩

theorem exists_drained {z : Session} {ok : Choice → Prop} (s : Fos) (n : Uuid) :
    ∃ s₁, Relation.ReflTransGen (system z ok).env s s₁ ∧ (s₁.node n).changes = [] := by
  generalize hl : (s.node n).changes = l
  induction l generalizing s with
  | nil => exact ⟨s, .refl, hl⟩
  | cons inst l ih =>
    have hm : ∃ st, s.toStore.monitor n = some st ∧ (st.node n).changes = l := by
      refine ⟨(s.toStore.setNode n { s.node n with changes := l }).globalPut inst,
        by simp only [Store.monitor, hl], ?_⟩
      simp [Store.globalPut, Store.setNode]
    obtain ⟨st, hst, hch⟩ := hm
    obtain ⟨s₁, henv, hnil⟩ := ih { s with toStore := st } hch
    exact ⟨s₁, .head ⟨n, by simp [machine, hst]⟩ henv, hnil⟩

theorem trail_localPut (hu : r'.uuid = u) :
    (st.localPut n r').trail n u = st.trail n u ++ [r'] := by
  simp [Store.trail, Store.localPut, Store.setNode, List.filter_append, hu]

theorem trail_localPut_of_ne (hu : r'.uuid ≠ u) : (st.localPut m r').trail n u = st.trail n u := by
  by_cases hm : n = m
  · subst hm
    simp [Store.trail, Store.localPut, Store.setNode, List.filter_append, hu]
  · simp [Store.trail, Store.localPut, Store.setNode, Function.update_of_ne hm]

theorem trail_localDelete {v : Uuid} : (st.localDelete m f v).trail n u = st.trail n u := by
  by_cases hm : n = m
  · subst hm
    simp [Store.trail, Store.localDelete, Store.setNode]
  · simp [Store.trail, Store.localDelete, Store.setNode, Function.update_of_ne hm]

theorem last_monitor (h : st.monitor m = some st') (hsame : ∀ i ∈ st.trail n u, i.path = r.path)
    (helse : m ≠ n → ∀ i ∈ (st.node m).changes, i.uuid ≠ u)
    (hlast : (st.trail n u).getLast? = some r) : (st'.trail n u).getLast? = some r := by
  obtain ⟨hsuffix, hne⟩ := trail_monitor h hsame helse
  have hnil : st.trail n u ≠ [] := fun hnil => by rw [hnil] at hlast; cases hlast
  obtain ⟨l, hl⟩ := hsuffix
  rw [← hlast, ← hl, List.getLast?_append]
  exact (Option.or_of_isSome (List.getLast?_isSome.2 (hne hnil))).symm

/-- Instance `r` lives on node `n`, which can dispatch to its plugin. Its trail ends
with `r`, the record written last, and follows the order `R`. -/
structure Trail (R : FDURecord → FDURecord → Prop) (n : Uuid) (r : FDURecord) (st : Store) : Prop where
  home : r.node = n
  able : ∃ d p, st.global.getFdu r.fduUuid = .ok d ∧ (st.node n).hypervisors d.hypervisor = some p
  elsewhere : ∀ m, m ≠ n → ∀ i ∈ (st.node m).changes, i.uuid ≠ r.uuid
  same : ∀ i ∈ st.trail n r.uuid, i.path = r.path ∧ i.node = n ∧ ∀ e, i.status ≠ .error e
  last : (st.trail n r.uuid).getLast? = some r
  ordered : (st.trail n r.uuid).Pairwise R

namespace Trail

theorem stored (h : Trail R n r st) (hi : i ∈ st.global.instances) (hu : i.uuid = r.uuid) :
    i.path = r.path :=
  (h.same i (Store.mem_trail.2 ⟨Or.inl hi, hu⟩)).1

theorem monitor (h : Trail R n r st) (hm : st.monitor m = some st') : Trail R n r st' := by
  have hmoves := monitor_moves hm
  have hsame : ∀ i ∈ st.trail n r.uuid, i.path = r.path := fun i hi => (h.same i hi).1
  obtain ⟨hsuffix, -⟩ := trail_monitor hm hsame fun hmn => h.elsewhere m hmn
  refine ⟨h.home, ?_, fun k hk i hi => h.elsewhere k hk i (hmoves.pending k i hi),
    fun i hi => h.same i (hsuffix.subset hi), ?_, h.ordered.sublist hsuffix.sublist⟩
  · have hcopied : ∀ k, (st'.node k).hypervisors = (st.node k).hypervisors := hmoves.hypervisors
    rw [Global.getFdu, hmoves.fdus, hcopied]
    exact h.able
  · exact last_monitor hm hsame (fun hmn => h.elsewhere m hmn) h.last

theorem localPut (h : Trail R n r st) (hpath : r'.path = r.path) (hnode : r'.node = r.node)
    (hlegal : ∀ e, r'.status ≠ .error e) (hR : ∀ i ∈ st.trail n r.uuid, R i r') :
    Trail R n r' (st.localPut n r') := by
  have hu : r'.uuid = r.uuid := congrArg Prod.snd hpath
  have hf : r'.fduUuid = r.fduUuid := congrArg Prod.fst hpath
  have htrail : (st.localPut n r').trail n r.uuid = st.trail n r.uuid ++ [r'] := trail_localPut hu
  refine ⟨hnode.trans h.home, ?_, fun m hm i hi => ?_, ?_, ?_, ?_⟩
  · obtain ⟨d, p, hd, hp⟩ := h.able
    rw [localPut_hypervisors]
    exact ⟨d, p, hf ▸ hd, hp⟩
  · rw [hu]
    simp only [Store.localPut, Store.setNode, Function.update_of_ne hm] at hi
    exact h.elsewhere m hm i hi
  · rw [hu, htrail]
    intro i hi
    rcases List.mem_append.1 hi with hi | hi
    · exact hpath ▸ h.same i hi
    · obtain rfl := List.mem_singleton.1 hi
      exact ⟨rfl, hnode.trans h.home, hlegal⟩
  · rw [hu, htrail, List.getLast?_append]
    rfl
  · rw [hu, htrail, List.pairwise_append]
    refine ⟨h.ordered, List.pairwise_singleton _ _, fun i hi j hj => ?_⟩
    exact List.mem_singleton.1 hj ▸ hR i hi

theorem localDelete (h : Trail R n r st) : Trail R n r (st.localDelete n f u) := by
  have hnode : ∀ m, ((st.localDelete n f u).node m).hypervisors = (st.node m).hypervisors ∧
      ((st.localDelete n f u).node m).changes = (st.node m).changes := by
    intro m
    by_cases hm : m = n
    · subst hm
      simp [Store.localDelete, Store.setNode]
    · simp [Store.localDelete, Store.setNode, Function.update_of_ne hm]
  refine ⟨h.home, ?_, fun m hm => ?_, ?_, ?_, ?_⟩
  · rw [(hnode n).1]
    exact h.able
  · rw [(hnode m).2]
    exact h.elsewhere m hm
  · rw [trail_localDelete]
    exact h.same
  · rw [trail_localDelete]
    exact h.last
  · rw [trail_localDelete]
    exact h.ordered

end Trail

end Trail

end Fog05
