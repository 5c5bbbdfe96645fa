import Fog05.Model.Registry

/-! The registry and the plugin records. Within one life of the agent the two agree
after every call. Across restarts they need not: a record may outlive its client,
and `unregister_plugin` removes whatever client goes by the recorded name. -/

namespace Fog05

open Conc

variable {r r' : Registry} {p q : Uuid} {k kind : PluginKind} {f : Faults}

namespace Registry

/-- The client in memory that goes by this kind. -/
def slot (r : Registry) : PluginKind → Option Uuid
  | .hypervisor name => r.inner.hypervisors name
  | .networking => r.inner.networking
  | _ => none

@[simp] theorem slot_setHypervisor (name : String) (c : Option Uuid) :
    (r.setHypervisor name c).slot k = if k = .hypervisor name then c else r.slot k := by
  cases k with
  | hypervisor h => simp [slot, setHypervisor, Function.update_apply]
  | _ => simp [slot, setHypervisor]

@[simp] theorem slot_setNetworking (c : Option Uuid) :
    (r.setNetworking c).slot k = if k = .networking then c else r.slot k := by
  cases k <;> simp [slot, setNetworking]

@[simp] theorem slot_restart : r.restart.slot k = none := by
  cases k <;> rfl

/-- A registration is refused, or takes a free slot and writes the record. -/
theorem register_cases (r : Registry) (f : Faults) (p : Uuid) (kind : PluginKind) :
    (∃ e, r.registerPlugin f p kind = (.error e, r)) ∨
      ∃ (r₁ : Registry) (info : PluginInfo), r.slot kind = none ∧ r₁.plugins = r.plugins ∧ info.uuid = p ∧ info.kind = kind ∧
        (∀ k, r₁.slot k = if k = kind then some p else r.slot k) ∧
        r.registerPlugin f p kind = r₁.addPlugin f info := by
  cases kind with
  | hypervisor hv =>
    cases h : r.inner.hypervisors hv with
    | some c => exact Or.inl ⟨.alreadyPresent, by simp only [registerPlugin, h]⟩
    | none =>
      exact Or.inr ⟨r.setHypervisor hv (some p), ⟨p, .hypervisor hv, hv ++ "Plugin"⟩, h, rfl, rfl, rfl, fun k => slot_setHypervisor _ _,
        by simp only [registerPlugin, h]; rfl⟩
  | networking =>
    cases h : r.inner.networking with
    | some c => exact Or.inl ⟨.alreadyPresent, by simp only [registerPlugin, h]⟩
    | none =>
      exact Or.inr ⟨r.setNetworking (some p), ⟨p, .networking, "NETWORKINGPlugin"⟩, h, rfl, rfl, rfl, fun k => slot_setNetworking _,
        by simp only [registerPlugin, h]; rfl⟩
  | _ => exact Or.inl ⟨_, rfl⟩

/-- An unregistration is refused, or frees the slot that the record names and
deletes the record. -/
theorem unregister_cases (r : Registry) (f : Faults) (p : Uuid) :
    (∃ e, r.unregisterPlugin f p = (.error e, r)) ∨
      ∃ (r₁ : Registry) (info : PluginInfo), info ∈ r.plugins ∧ info.uuid = p ∧ r₁.plugins = r.plugins ∧
        (∀ k, r₁.slot k = if k = info.kind then none else r.slot k) ∧
        r.unregisterPlugin f p = r₁.removePlugin f p := by
  cases h : r.getPlugin f p with
  | error e => exact Or.inl ⟨e, by simp only [unregisterPlugin, h]⟩
  | ok info =>
    obtain ⟨hmem, hp⟩ : info ∈ r.plugins ∧ info.uuid = p := by
      cases hread : f.read with
      | some e => simp [getPlugin, hread] at h
      | none =>
        simp only [getPlugin, hread, Option.elim_none] at h
        exact single_select_key h
    cases hk : info.kind with
    | hypervisor hv =>
      exact Or.inr ⟨r.setHypervisor hv none, info, hmem, hp, rfl,
        fun k => by rw [hk]; exact slot_setHypervisor _ _, by simp only [unregisterPlugin, h, hk]⟩
    | networking =>
      exact Or.inr ⟨r.setNetworking none, info, hmem, hp, rfl,
        fun k => by rw [hk]; exact slot_setNetworking _, by simp only [unregisterPlugin, h, hk]⟩
    | _ => exact Or.inl ⟨.unimplemented, by simp only [unregisterPlugin, h, hk]⟩

/-- What the calls leave behind, one after the other and with no failure. -/
def serveAll (calls : List RegistryCall) : Registry :=
  calls.foldl (fun r c => (c.serve Faults.none r).2) new

end Registry

open Registry

/-- The clients in memory are those of the plugins on record, one for each name. -/
structure Agrees (r : Registry) : Prop where
  hypervisors : ∀ name p, r.inner.hypervisors name = some p ↔
    ∃ i ∈ r.plugins, i.uuid = p ∧ i.kind = .hypervisor name
  networking : ∀ p, r.inner.networking = some p ↔
    ∃ i ∈ r.plugins, i.uuid = p ∧ i.kind = .networking
  single : ∀ i ∈ r.plugins, ∀ j ∈ r.plugins, i.kind = j.kind → i.uuid = j.uuid

/-- The invariant: every record is of its plugin's kind, and its slot is taken by it. -/
structure Recorded (kindOf : Uuid → PluginKind) (r : Registry) : Prop where
  kinds : ∀ i ∈ r.plugins, i.kind = kindOf i.uuid
  slots : ∀ k p, r.slot k = some p ↔ ∃ i ∈ r.plugins, i.uuid = p ∧ i.kind = k

theorem Recorded.agrees {kindOf : Uuid → PluginKind} (h : Recorded kindOf r) : Agrees r where
  hypervisors name p := h.slots (.hypervisor name) p
  networking p := h.slots .networking p
  single i hi j hj hk := by
    have hi' := (h.slots i.kind i.uuid).2 ⟨i, hi, rfl, rfl⟩
    have hj' := (h.slots i.kind j.uuid).2 ⟨j, hj, rfl, hk.symm⟩
    exact Option.some.inj (hi'.symm.trans hj')

theorem Recorded.register {kindOf : Uuid → PluginKind} (h : Recorded kindOf r) {r₁ : Registry}
    {info : PluginInfo} (hkind : info.kind = kindOf info.uuid) (hfree : r.slot info.kind = none)
    (hplugins : r₁.plugins = r.plugins)
    (hslot : ∀ k, r₁.slot k = if k = info.kind then some info.uuid else r.slot k) :
    Recorded kindOf { r₁ with plugins := r₁.plugins.put info } := by
  rw [hplugins]
  refine ⟨fun i hi => ?_, fun k q => ?_⟩
  · rcases Table.mem_put.1 hi with rfl | ⟨hi, -⟩
    · exact hkind
    · exact h.kinds i hi
  change r₁.slot k = some q ↔ _
  rw [hslot]
  constructor
  · split
    · next hk =>
      intro hq
      exact ⟨info, Table.mem_put_self _ _, Option.some.inj hq, hk.symm⟩
    · next hk =>
      intro hq
      obtain ⟨i, hi, rfl, rfl⟩ := (h.slots k q).1 hq
      refine ⟨i, Table.mem_put.2 (Or.inr ⟨hi, fun hu => hk ?_⟩), rfl, rfl⟩
      rw [hkind, h.kinds i hi, hu]
  · rintro ⟨i, hi, rfl, rfl⟩
    rcases Table.mem_put.1 hi with rfl | ⟨hi, -⟩
    · exact if_pos rfl
    · have htaken := (h.slots i.kind i.uuid).2 ⟨i, hi, rfl, rfl⟩
      rw [if_neg, htaken]
      intro hk
      rw [hk, hfree] at htaken
      cases htaken

theorem Recorded.unregister {kindOf : Uuid → PluginKind} (h : Recorded kindOf r) {r₁ : Registry}
    {info : PluginInfo} (hmem : info ∈ r.plugins) (hplugins : r₁.plugins = r.plugins)
    (hslot : ∀ k, r₁.slot k = if k = info.kind then none else r.slot k) :
    Recorded kindOf { r₁ with plugins := r₁.plugins.erase info.uuid } := by
  rw [hplugins]
  refine ⟨fun i hi => h.kinds i (Table.mem_erase.1 hi).1, fun k q => ?_⟩
  change r₁.slot k = some q ↔ _
  rw [hslot]
  constructor
  · split
    · exact nofun
    · next hk =>
      intro hq
      obtain ⟨i, hi, rfl, rfl⟩ := (h.slots k q).1 hq
      refine ⟨i, Table.mem_erase.2 ⟨hi, fun hu => hk ?_⟩, rfl, rfl⟩
      rw [Table.eq_of_key hi hmem hu]
  · rintro ⟨i, hi, rfl, rfl⟩
    obtain ⟨hi, hu⟩ := Table.mem_erase.1 hi
    rw [if_neg, (h.slots i.kind i.uuid).2 ⟨i, hi, rfl, rfl⟩]
    exact fun hk => hu (h.agrees.single i hi info hmem hk)

/-- Without failures a call is refused and changes nothing, or changes both sides. -/
theorem Recorded.serve {kindOf : Uuid → PluginKind} (h : Recorded kindOf r) {c : RegistryCall}
    (hc : ∀ p kind, c = .register p kind → kind = kindOf p) :
    Recorded kindOf (c.serve Faults.none r).2 ∧
      ∀ e, (c.serve Faults.none r).1 = .error e → (c.serve Faults.none r).2 = r := by
  cases c with
  | register p kind =>
    obtain rfl := hc p kind rfl
    rcases register_cases r Faults.none p (kindOf p) with
      ⟨e, he⟩ | ⟨r₁, info, hfree, hpl, rfl, hk, hslot, he⟩
    · rw [RegistryCall.serve, he]
      exact ⟨h, fun _ _ => rfl⟩
    · rw [RegistryCall.serve, he]
      exact ⟨h.register hk (hk ▸ hfree) hpl (hk ▸ hslot), nofun⟩
  | unregister p =>
    rcases unregister_cases r Faults.none p with ⟨e, he⟩ | ⟨r₁, info, hmem, rfl, hpl, hslot, he⟩
    · rw [RegistryCall.serve, he]
      exact ⟨h, fun _ _ => rfl⟩
    · rw [RegistryCall.serve, he]
      exact ⟨h.unregister hmem hpl hslot, nofun⟩

/-- The registry and the records agree after every sequence of calls in which each
plugin is registered under one kind, and a call that is refused changes nothing. -/
theorem registry_agrees {kindOf : Uuid → PluginKind} {calls : List RegistryCall}
    (hcalls : ∀ p kind, .register p kind ∈ calls → kind = kindOf p) :
    Agrees (serveAll calls) ∧ ∀ (c : RegistryCall) e, (∀ p kind, c = .register p kind → kind = kindOf p) →
      (c.serve Faults.none (serveAll calls)).1 = .error e →
      (c.serve Faults.none (serveAll calls)).2 = serveAll calls := by
  have key : ∀ (calls : List RegistryCall) (r : Registry), (∀ p kind, .register p kind ∈ calls → kind = kindOf p) →
      Recorded kindOf r → Recorded kindOf (calls.foldl (fun r c => (c.serve Faults.none r).2) r) := by
    intro calls
    induction calls with
    | nil => exact fun _ _ h => h
    | cons c calls ih =>
      intro r hcalls h
      refine ih _ (fun p kind hp => hcalls p kind (List.mem_cons_of_mem _ hp)) (h.serve ?_).1
      rintro p kind rfl
      exact hcalls p kind List.mem_cons_self
  have hnew : Recorded kindOf new :=
    ⟨fun i hi => absurd hi (Table.not_mem_empty i), fun k p => by
      cases k <;> simp [slot, new, AgentInner.new]⟩
  have h : Recorded kindOf (serveAll calls) := key calls new hcalls hnew
  exact ⟨h.agrees, fun c e hc he => (h.serve hc).2 e he⟩

/-- Two hypervisors and a network plugin, one of them refused and one removed. -/
theorem registry_agrees_three : Agrees (serveAll [.register 1 (.hypervisor "kvm"),
    .register 2 .networking, .register 3 (.hypervisor "kvm"), .unregister 1]) := by
  refine (@registry_agrees (fun p => if p = 2 then .networking else .hypervisor "kvm") _ ?_).1
  intro p kind h
  simp only [List.mem_cons, RegistryCall.register.injEq, List.not_mem_nil, or_false, reduceCtorEq] at h
  rcases h with ⟨rfl, rfl⟩ | ⟨rfl, rfl⟩ | ⟨rfl, rfl⟩ <;> rfl

/-- The call takes the client of plugin `q` away. -/
def Disconnects (r r' : Registry) (q : Uuid) : Prop :=
  (∃ name, r.inner.hypervisors name = some q ∧ r'.inner.hypervisors name ≠ some q) ∨
    r.inner.networking = some q ∧ r'.inner.networking ≠ some q

/-- The agents' lives: what is reached by events that all meet `G`. -/
inductive Registry.Reach (G : RegistryEvent → Registry → Prop) : Registry → Prop
  | new : Reach G Registry.new
  | next {r e} : Reach G r → G e r → Reach G (e.next r)

/-- A registration that takes a free slot finds no record of another plugin under
that kind. -/
def Unclaimed : RegistryEvent → Registry → Prop
  | .call (.register p kind) _, r => r.slot kind = none → ∀ i ∈ r.plugins, i.kind = kind → i.uuid = p
  | _, _ => True

/-- What a record names is free or taken by its own plugin. -/
def Stale (r : Registry) : Prop :=
  ∀ i ∈ r.plugins, r.slot i.kind = none ∨ r.slot i.kind = some i.uuid

theorem slot_addPlugin {info : PluginInfo} : (r.addPlugin f info).2.slot k = r.slot k := by
  cases h : f.write <;> simp only [addPlugin, h] <;> rfl

theorem mem_addPlugin {info i : PluginInfo} (hi : i ∈ (r.addPlugin f info).2.plugins) :
    i = info ∨ i ∈ r.plugins := by
  cases h : f.write with
  | none =>
    simp only [addPlugin, h] at hi
    exact (Table.mem_put.1 hi).imp_right And.left
  | some e =>
    simp only [addPlugin, h] at hi
    exact Or.inr hi

theorem slot_removePlugin : (r.removePlugin f p).2.slot k = r.slot k := by
  cases h : f.write <;> simp only [removePlugin, h] <;> rfl

theorem mem_removePlugin {i : PluginInfo} (hi : i ∈ (r.removePlugin f p).2.plugins) :
    i ∈ r.plugins := by
  cases h : f.write with
  | none =>
    simp only [removePlugin, h] at hi
    exact (Table.mem_erase.1 hi).1
  | some e =>
    simp only [removePlugin, h] at hi
    exact hi

theorem Stale.next {e : RegistryEvent} (h : Stale r) (hg : Unclaimed e r) : Stale (e.next r) := by
  intro i hi
  cases e with
  | restart => exact Or.inl slot_restart
  | call c f =>
    cases c with
    | register p kind =>
      rcases register_cases r f p kind with ⟨e, he⟩ | ⟨r₁, info, hfree, hpl, rfl, rfl, hslot, he⟩
      · simp only [RegistryEvent.next, RegistryCall.serve, he] at hi ⊢
        exact h i hi
      · simp only [RegistryEvent.next, RegistryCall.serve, he] at hi ⊢
        rw [slot_addPlugin, hslot]
        split
        · next hk =>
          right
          rcases mem_addPlugin hi with rfl | hi
          · rfl
          · rw [hg hfree i (hpl ▸ hi) hk]
        · next hk =>
          rcases mem_addPlugin hi with rfl | hi
          · exact absurd rfl hk
          · exact h i (hpl ▸ hi)
    | unregister p =>
      rcases unregister_cases r f p with ⟨e, he⟩ | ⟨r₁, info, hmem, rfl, hpl, hslot, he⟩
      · simp only [RegistryEvent.next, RegistryCall.serve, he] at hi ⊢
        exact h i hi
      · simp only [RegistryEvent.next, RegistryCall.serve, he] at hi ⊢
        rw [slot_removePlugin, hslot]
        split
        · exact Or.inl rfl
        · exact h i (hpl ▸ mem_removePlugin hi)

theorem stale_of_reach (h : Registry.Reach Unclaimed r) : Stale r := by
  induction h with
  | new => exact fun i hi => absurd hi (Table.not_mem_empty i)
  | next _ hg ih => exact ih.next hg

theorem Disconnects.slot (h : Disconnects r r' q) : ∃ k, r.slot k = some q ∧ r'.slot k ≠ some q := by
  rcases h with ⟨name, hq, hq'⟩ | ⟨hq, hq'⟩
  · exact ⟨.hypervisor name, hq, hq'⟩
  · exact ⟨.networking, hq, hq'⟩

/-- Where registrations meet no record of another plugin under their kind, no
unregistration takes the client of another plugin away. -/
theorem unregister_own (h : Registry.Reach Unclaimed r)
    (hq : Disconnects r (r.unregisterPlugin f p).2 q) : q = p := by
  obtain ⟨k, hslot, hslot'⟩ := hq.slot
  rcases unregister_cases r f p with ⟨e, he⟩ | ⟨r₁, info, hmem, rfl, -, hfreed, he⟩
  · rw [he] at hslot'
    exact absurd hslot hslot'
  · rw [he, slot_removePlugin, hfreed] at hslot'
    split at hslot'
    · next hk =>
      subst hk
      rcases stale_of_reach h info hmem with hnone | hown
      · rw [hslot] at hnone
        cases hnone
      · exact Option.some.inj (hslot.symm.trans hown)
    · exact absurd hslot hslot'

/-- Plugin `p` registers as the hypervisor "kvm". -/
def kvm (p : Uuid) : RegistryEvent := .call (.register p (.hypervisor "kvm")) Faults.none

/-- Plugin 1 registers, the agent restarts, and plugin `p` registers. -/
def takenOver (p : Uuid) : Registry := (kvm p).next (RegistryEvent.restart.next ((kvm 1).next new))

theorem unregister_own_again :
    Disconnects (takenOver 1) ((takenOver 1).unregisterPlugin Faults.none 1).2 1 ∧
      ∀ q, Disconnects (takenOver 1) ((takenOver 1).unregisterPlugin Faults.none 1).2 q → q = 1 := by
  have hfirst : Registry.Reach Unclaimed ((kvm 1).next new) :=
    .next .new fun _ i hi => absurd hi (Table.not_mem_empty i)
  have hrestart : Registry.Reach Unclaimed (RegistryEvent.restart.next ((kvm 1).next new)) :=
    hfirst.next trivial
  have hclaimed : Unclaimed (kvm 1) (RegistryEvent.restart.next ((kvm 1).next new)) := by
    intro _ i hi _
    obtain rfl := List.mem_singleton.1 hi
    rfl
  have hreach : Registry.Reach Unclaimed (takenOver 1) := hrestart.next hclaimed
  exact ⟨Or.inl ⟨"kvm", rfl, by decide +kernel⟩, fun q hq => unregister_own hreach hq⟩

/-- The record of plugin 1 outlives its client, and plugin 2 takes the name. -/
theorem unregister_other : ∃ r, Registry.Reach (fun _ _ => True) r ∧
    Disconnects r (r.unregisterPlugin Faults.none 1).2 2 := by
  have hreach : Registry.Reach (fun _ _ => True) (takenOver 2) :=
    Registry.Reach.next (e := kvm 2) (.next (e := .restart) (.next (e := kvm 1) .new trivial) trivial)
      trivial
  exact ⟨takenOver 2, hreach, Or.inl ⟨"kvm", rfl, by decide +kernel⟩⟩

/-- An error leaves the clients and the records as they were, so that the call can be
repeated. -/
structure RegistryCall.Atomic (c : RegistryCall) (f : Faults) (r : Registry) : Prop where
  unchanged : ∀ e, (c.serve f r).1 = .error e → (c.serve f r).2 = r
  again : ∀ e, (c.serve f r).1 = .error e →
    (c.serve Faults.none (c.serve f r).2).1 = (c.serve Faults.none r).1

/-- The call puts a client into a free slot, or takes one away, before it gets to the
record. -/
def RegistryCall.Touches (f : Faults) (r : Registry) : RegistryCall → Prop
  | .register _ kind => (kind = .networking ∨ ∃ hv, kind = .hypervisor hv) ∧ r.slot kind = none
  | .unregister p => ∃ info, r.getPlugin f p = .ok info ∧ r.slot info.kind ≠ none

section Atomic

variable {c : RegistryCall} {e : FError}

theorem addPlugin_failed (hw : f.write = some e) (r : Registry) (info : PluginInfo) :
    r.addPlugin f info = (.error e, r) := by
  simp [addPlugin, hw]

theorem removePlugin_failed (hw : f.write = some e) (r : Registry) (p : Uuid) :
    r.removePlugin f p = (.error e, r) := by
  simp [removePlugin, hw]

theorem setHypervisor_none {name : String} (h : r.slot (.hypervisor name) = none) :
    r.setHypervisor name none = r := by
  have hname : r.inner.hypervisors name = none := h
  simp [setHypervisor, ← hname]

theorem setNetworking_none (h : r.slot .networking = none) : r.setNetworking none = r := by
  have hnet : r.inner.networking = none := h
  simp [setNetworking, ← hnet]

/-- The write of the record comes after the change of the clients. -/
theorem serve_failed (hw : f.write = some e) (ht : c.Touches f r) :
    (c.serve f r).1 = .error e ∧ (c.serve f r).2 ≠ r := by
  -- another client goes by the kind afterwards
  have hslot : ∀ {r₁ : Registry} {k : PluginKind}, r₁.slot k ≠ r.slot k → r₁ ≠ r := by
    rintro r₁ k hk rfl
    exact hk rfl
  cases c with
  | register p kind =>
    obtain ⟨rfl | ⟨hv, rfl⟩, hfree⟩ := ht
    · have hnet : r.inner.networking = none := hfree
      simp only [RegistryCall.serve, registerPlugin, hnet, addPlugin_failed hw, true_and]
      exact hslot (k := .networking) (by simp [hfree])
    · have hname : r.inner.hypervisors hv = none := hfree
      simp only [RegistryCall.serve, registerPlugin, hname, addPlugin_failed hw, true_and]
      exact hslot (k := .hypervisor hv) (by simp [hfree])
  | unregister p =>
    obtain ⟨info, hget, htaken⟩ := ht
    cases hk : info.kind with
    | networking =>
      rw [hk] at htaken
      simp only [RegistryCall.serve, unregisterPlugin, hget, hk, removePlugin_failed hw, true_and]
      exact hslot (k := .networking) (by simpa using htaken.symm)
    | hypervisor hv =>
      rw [hk] at htaken
      simp only [RegistryCall.serve, unregisterPlugin, hget, hk, removePlugin_failed hw, true_and]
      exact hslot (k := .hypervisor hv) (by simpa using htaken.symm)
    | _ => exact absurd (by rw [hk]; rfl) htaken

theorem serve_undone (h : f.write = none ∨ ¬ c.Touches f r) (he : (c.serve f r).1 = .error e) :
    (c.serve f r).2 = r := by
  -- a call that has got to the record fails only by its write
  have hadd : ∀ {r₁ : Registry} {info}, f.write = none → (r₁.addPlugin f info).1 ≠ .error e :=
    fun hw h => by simp [addPlugin, hw] at h
  have hremove : ∀ {r₁ : Registry} {p}, f.write = none → (r₁.removePlugin f p).1 ≠ .error e :=
    fun hw h => by simp [removePlugin, hw] at h
  cases c with
  | register p kind =>
    cases kind with
    | networking =>
      cases hslot : r.inner.networking with
      | some q => simp only [RegistryCall.serve, registerPlugin, hslot]
      | none =>
        simp only [RegistryCall.serve, registerPlugin, hslot] at he
        exact absurd he (hadd (h.resolve_right (not_not_intro ⟨Or.inl rfl, hslot⟩)))
    | hypervisor hv =>
      cases hslot : r.inner.hypervisors hv with
      | some q => simp only [RegistryCall.serve, registerPlugin, hslot]
      | none =>
        simp only [RegistryCall.serve, registerPlugin, hslot] at he
        exact absurd he (hadd (h.resolve_right (not_not_intro ⟨Or.inr ⟨hv, rfl⟩, hslot⟩)))
    | _ => rfl
  | unregister p =>
    cases hget : r.getPlugin f p with
    | error e' => simp only [RegistryCall.serve, unregisterPlugin, hget]
    | ok info =>
      cases hw : f.write with
      | none =>
        simp only [RegistryCall.serve, unregisterPlugin, hget] at he ⊢
        split at he
        · exact absurd he (hremove hw)
        · exact absurd he (hremove hw)
        · rfl
      | some e' =>
        have hfree : r.slot info.kind = none := by
          by_contra htaken
          rcases h with h | h
          · cases hw.symm.trans h
          · exact h ⟨info, hget, htaken⟩
        simp only [RegistryCall.serve, unregisterPlugin, hget]
        split
        · next hv hk => rw [removePlugin_failed hw, setHypervisor_none (hk ▸ hfree)]
        · next hk => rw [removePlugin_failed hw, setNetworking_none (hk ▸ hfree)]
        · rfl

/-- A call is atomic but for a failure of the write that follows the change of the
clients. -/
theorem atomic_iff : c.Atomic f r ↔ f.write = none ∨ ¬ c.Touches f r := by
  constructor
  · intro h
    by_contra hnot
    obtain ⟨hwrite, htouches⟩ := not_or.1 hnot
    obtain ⟨e, hw⟩ := Option.ne_none_iff_exists'.1 hwrite
    obtain ⟨herr, hne⟩ := serve_failed hw (not_not.1 htouches)
    exact hne (h.unchanged e herr)
  · intro h
    exact ⟨fun e he => serve_undone h he, fun e he => by rw [serve_undone h he]⟩

/-- The write of the record of plugin 1 fails; the plugin can not register any more. -/
theorem failed_registration_stays : ∃ c f r, ¬ RegistryCall.Atomic c f r ∧
    (c.serve f r).1 = .error (.zError "timeout") ∧
    (c.serve Faults.none (c.serve f r).2).1 = .error .alreadyPresent := by
  refine ⟨.register 1 (.hypervisor "kvm"), ⟨none, some (.zError "timeout")⟩, new, fun h => ?_, rfl, rfl⟩
  cases h.again _ rfl

end Atomic

end Fog05
