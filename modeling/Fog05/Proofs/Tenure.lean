import Fog05.Proofs.Crossing

/-! A plugin that is running keeps its place: from the answer to its registration until it asks
to be unregistered, the client under its kind is its own, whatever other plugins come and go and
whatever accesses to the store fail. -/

namespace Fog05.Processes

open Conc Registry

/-- The place of a plugin is its own until it has asked to leave. -/
structure Tenure (l : List (RegistryCall × Except FError Uuid)) (r : Registry) : Prop where
  recorded : ∀ i ∈ r.plugins, .leave i.uuid ∉ asks l → r.slot i.kind = some i.uuid
  placed : ∀ p kind u, (.register p kind, .ok u) ∈ l → .leave p ∉ asks l →
    r.slot kind = some p ∧ ∃ i ∈ r.plugins, i.uuid = p ∧ i.kind = kind

section Tenure

variable {l : List (RegistryCall × Except FError Uuid)} {r : Registry} {p : Uuid}
  {kind : PluginKind} {f : Faults} {c : RegistryCall}

theorem Tenure.refused (h : Tenure l r) (e : FError) : Tenure (l ++ [(c, .error e)]) r where
  recorded i hi hleave := by
    rw [asks_append] at hleave
    exact h.recorded i hi fun hl => hleave (List.mem_append_left _ hl)
  placed p kind u hp hleave := by
    rw [asks_append] at hleave
    rcases List.mem_append.1 hp with hp | hp
    · exact h.placed p kind u hp fun hl => hleave (List.mem_append_left _ hl)
    · cases List.mem_singleton.1 hp

theorem Tenure.register (h : Tenure l r) (hnew : .join p ∉ asks l) :
    Tenure (l ++ [(.register p kind, (r.registerPlugin f p kind).1)])
      (r.registerPlugin f p kind).2 := by
  rcases register_cases r f p kind with ⟨e, he⟩ | ⟨r₁, info, hfree, hpl, rfl, rfl, hset, he⟩
  · rw [he]
    exact h.refused e
  have hother : ∀ {k p'}, r.slot k = some p' → (r₁.addPlugin f info).2.slot k = some p' := by
    intro k p' hk
    rw [slot_addPlugin, hset, if_neg, hk]
    rintro rfl
    rw [hfree] at hk
    cases hk
  have hself : (r₁.addPlugin f info).2.slot info.kind = some info.uuid := by
    rw [slot_addPlugin, hset, if_pos rfl]
  rw [he]
  constructor
  · intro i hi hleave
    rw [asks_append] at hleave
    rcases mem_addPlugin hi with rfl | hi
    · exact hself
    · exact hother (h.recorded i (hpl ▸ hi) fun hl => hleave (List.mem_append_left _ hl))
  · intro p kind u hp hleave
    rw [asks_append] at hleave
    rcases List.mem_append.1 hp with hp | hp
    · obtain ⟨hslot, i, hi, rfl, rfl⟩ :=
        h.placed p kind u hp fun hl => hleave (List.mem_append_left _ hl)
      refine ⟨hother hslot, i, ?_, rfl, rfl⟩
      have hne : i.uuid ≠ info.uuid := fun hu => hnew (List.mem_map.2 ⟨_, hp, congrArg Ask.join hu⟩)
      cases hw : f.write with
      | none =>
        simp only [addPlugin, hw]
        exact Table.mem_put.2 (Or.inr ⟨hpl ▸ hi, hne⟩)
      | some e =>
        simp only [addPlugin, hw]
        exact hpl ▸ hi
    · obtain ⟨hc, ho⟩ := Prod.mk.inj (List.mem_singleton.1 hp)
      obtain ⟨rfl, rfl⟩ := RegistryCall.register.inj hc
      refine ⟨hself, info, ?_, rfl, rfl⟩
      cases hw : f.write with
      | none =>
        simp only [addPlugin, hw]
        exact Table.mem_put_self _ _
      | some e =>
        simp only [addPlugin, hw] at ho
        cases ho

theorem Tenure.unregister (h : Tenure l r) (hnew : .leave p ∉ asks l) :
    Tenure (l ++ [(.unregister p, (r.unregisterPlugin f p).1)]) (r.unregisterPlugin f p).2 := by
  rcases unregister_cases r f p with ⟨e, he⟩ | ⟨r₁, info, hinfo, rfl, hpl, hset, he⟩
  · rw [he]
    exact h.refused e
  have hown := h.recorded info hinfo hnew
  have hother : ∀ {k p'}, p' ≠ info.uuid → r.slot k = some p' →
      (r₁.removePlugin f info.uuid).2.slot k = some p' := by
    intro k p' hne hk
    rw [slot_removePlugin, hset, if_neg, hk]
    rintro rfl
    exact hne (Option.some.inj (hk.symm.trans hown))
  rw [he]
  constructor
  · intro i hi hleave
    rw [asks_append] at hleave
    have hne : i.uuid ≠ info.uuid := fun hu => hleave (by simp [Ask.of, hu])
    exact hother hne (h.recorded i (hpl ▸ mem_removePlugin hi) fun hl =>
      hleave (List.mem_append_left _ hl))
  · intro p kind u hp hleave
    rw [asks_append] at hleave
    have hne : p ≠ info.uuid := fun hu => hleave (by simp [Ask.of, hu])
    rcases List.mem_append.1 hp with hp | hp
    · obtain ⟨hslot, i, hi, rfl, rfl⟩ :=
        h.placed p kind u hp fun hl => hleave (List.mem_append_left _ hl)
      refine ⟨hother hne hslot, i, ?_, rfl, rfl⟩
      cases hw : f.write with
      | none =>
        simp only [removePlugin, hw]
        exact Table.mem_erase.2 ⟨hpl ▸ hi, hne⟩
      | some e =>
        simp only [removePlugin, hw]
        exact hpl ▸ hi
    · cases (Prod.mk.inj (List.mem_singleton.1 hp)).1

theorem Served.tenure (h : Served l r) (honce : (asks l).Nodup) : Tenure l r := by
  induction h with
  | new => exact ⟨fun i hi => absurd hi (Table.not_mem_empty i), fun _ _ _ h => absurd h List.not_mem_nil⟩
  | @call l r c f _ ih =>
    rw [asks_append, List.nodup_append] at honce
    obtain ⟨hold, -, hnew⟩ := honce
    have hfirst : Ask.of c ∉ asks l := fun hc => hnew _ hc _ (List.mem_singleton_self _) rfl
    cases c with
    | register p kind => exact (ih hold).register hfirst
    | unregister p => exact (ih hold).unregister hfirst

end Tenure

section Runs

variable {w : Threads}

/-- In a registry that the answered calls make, a running plugin has its place. -/
theorem Orderly.placed {qs : List Entry} (h : Orderly qs w.state)
    (hqs : w.Ledger guards (fun _ _ q => q.Over) (fun p q => q.role = p.role) qs) {r : Registry}
    (hserved : Served w.state.served r) {i : ℕ} {kind : PluginKind} {p : Uuid}
    (hrole : w.role i = some (.plugin kind p)) (hup : w.upcoming i = some (.recv p)) :
    (∃ q : Entry, qs[i]? = some q ∧ q.known = some p) ∧ r.slot kind = some p ∧
      ∃ info ∈ r.plugins, info.uuid = p ∧ info.kind = kind := by
  have hcount : ∀ a, (asks w.state.served).count a ≤ (w.state.sent.map Call.ask).count (some a) := by
    intro a
    have ha := h.mail.balance a
    omega
  have htenure := hserved.tenure
    (List.nodup_iff_count_le_one.2 fun a => (hcount a).trans (h.standing.once a))
  obtain ⟨q, hq, ⟨-, -, hstage⟩, hrole'⟩ := entry_of_upcoming hqs hup
  have hplugin : q.role = .plugin kind p := (Option.some.inj (hrole.symm.trans hrole')).symm
  have hst := h.standing.stands q (List.mem_of_getElem? hq) kind p hplugin
  rw [hstage] at hst
  obtain ⟨u, hu⟩ := hst.joined (Or.inl rfl)
  refine ⟨⟨q, hq, Entry.known_of_stage hplugin fun hb => by rw [hstage] at hb; cases hb⟩,
    htenure.placed p kind u hu fun hleave => ?_⟩
  have hsent := hst.leave (fun hb => by cases hb) fun hb => by cases hb
  have hle := hcount (.leave p)
  rw [List.count_eq_zero.2 hsent] at hle
  exact absurd (List.count_pos_iff.2 hleave) (by omega)

/-- Over every run, whatever fails: a plugin that is running is the client under its kind, and is
on record, unless a call on the registry is under way; and no other of its kind is running. -/
theorem running_placed (hreach : machine.Reach Begins (Pool.idle Node.new) w) {i : ℕ}
    {kind : PluginKind} {p : Uuid} (hrole : w.role i = some (.plugin kind p))
    (hup : w.upcoming i = some (.recv p)) :
    ((w.state.locks .agent).writer = false → w.state.registry.slot kind = some p ∧
      ∃ info ∈ w.state.registry.plugins, info.uuid = p ∧ info.kind = kind) ∧
    ∀ j p', w.role j = some (.plugin kind p') → w.upcoming j = some (.recv p') → j = i := by
  obtain ⟨qs, hqs, h⟩ := orderly_of_reach hreach
  refine ⟨fun hfree => ?_, fun j p' hrole' hup' => ?_⟩
  · exact (h.placed hqs (h.books.settled (h.custody.no_writer hfree)) hrole hup).2
  · -- one place for each kind, also while a call works on the registry
    obtain ⟨r, hserved⟩ := h.books.exists_served
    obtain ⟨⟨q, hq, hknown⟩, hslot, -⟩ := h.placed hqs hserved hrole hup
    obtain ⟨⟨q', hq', hknown'⟩, hslot', -⟩ := h.placed hqs hserved hrole' hup'
    obtain rfl := Option.some.inj (hslot.symm.trans hslot')
    exact h.standing.own hq hknown hq' hknown'

/-- A second plugin of the same kind is refused, and the first one keeps its place. -/
theorem running_placed_second : ∃ w : Threads, machine.Reach Begins (Pool.idle Node.new) w ∧
    w.state.sent = [.registry (.register 7 (.hypervisor "dummy")),
      .registry (.register 8 (.hypervisor "dummy"))] ∧
    w.state.registry.inner.hypervisors "dummy" = some 7 ∧
    ∀ j p, w.role j = some (.plugin (.hypervisor "dummy") p) → w.upcoming j = some (.recv p) →
      j = 0 := by
  have hrun : (play (joins 7 ++ [.start (.plugin (.hypervisor "dummy") 8)] ++ fires 1 8 ++ [.launch] ++
      fires 2 6 ++ fires 1 3)).any (fun w =>
        w.role 0 == some (.plugin (.hypervisor "dummy") 7) && (w.upcoming 0).bind Op.stops == some 7 &&
        !(w.state.locks .agent).writer && w.state.sent ==
          [.registry (.register 7 (.hypervisor "dummy")),
            .registry (.register 8 (.hypervisor "dummy"))]) = true := by
    decide +kernel
  obtain ⟨w, hw, hend⟩ := (Option.any_eq_true _ _).1 hrun
  simp only [Bool.and_eq_true, beq_iff_eq, Bool.not_eq_true'] at hend
  obtain ⟨⟨⟨hrole, hstops⟩, hfree⟩, hsent⟩ := hend
  have hup := upcoming_of_bind (fun _ _ => Op.eq_of_stops) hstops
  obtain ⟨hplaced, hsole⟩ := running_placed (reach_of_play hw) hrole hup
  exact ⟨w, reach_of_play hw, hsent, (hplaced hfree).1, hsole⟩

end Runs

end Fog05.Processes
