import Fog05.Proofs.Resurrection

/-! Referential integrity of the catalog: no instance without a descriptor, as long
as descriptors are deleted only when there is nothing of the FDU anywhere. The
check in `offload_fdu` comes before the deletion, and things may change in between. -/

namespace Fog05

open Conc

variable {z : Session} {f : Uuid} {s s' : Fos} {c : Cmd} {ch : Choice} {r : c.Ans}

/-- The catalog has a descriptor of FDU `f`. -/
def Fos.Knows (s : Fos) (f : Uuid) : Prop := ∃ d ∈ s.global.fdus, d.uuid = some f

/-- Every record that is stored or on its way has a descriptor. -/
structure Catalogued (s : Fos) : Prop where
  stored : ∀ i ∈ s.global.instances, s.Knows i.fduUuid
  copies : ∀ n, ∀ i ∈ (s.node n).instances, s.Knows i.fduUuid
  pending : ∀ n, ∀ i ∈ (s.node n).changes, s.Knows i.fduUuid

/-- There is nothing of FDU `f` when the `i`-th call is about to delete its
descriptor: no record anywhere, and no other call that could still put one without
reading the descriptor or a record again. -/
structure Unused (f : Uuid) (i : ℕ) (w : Calls) : Prop where
  stored : ∀ j ∈ w.state.global.instances, j.fduUuid ≠ f
  copies : ∀ n, ∀ j ∈ (w.state.node n).instances, j.fduUuid ≠ f
  pending : ∀ n, ∀ j ∈ (w.state.node n).changes, j.fduUuid ≠ f
  others : OthersUnheld (.fdu f) i w

/-- The steps of calls on FDUs at any agent, and of the monitoring tasks. -/
def OnFdus : Label Proc Choice Uuid → Prop
  | .start p => p.OnFdu
  | .launch => False
  | _ => True

/-- Those in which only descriptors of unused FDUs are deleted. -/
structure Careful (l : Label Proc Choice Uuid) (w : Calls) : Prop where
  calls : OnFdus l
  unused : ∀ i f, l = .fire i .go → w.upcoming i = some (.access (.deleteFdu f)) → Unused f i w

section Steps

variable {w w' : Calls} {l : Label Proc Choice Uuid}

theorem exec_knows (hx : exec c ch s = some (r, s')) (h : s.Knows f) :
    s'.Knows f ∨ ch = .go ∧ c = .access (.deleteFdu f) := by
  cases c with
  | access a =>
    rcases exec_access hx with ⟨rfl, hr⟩ | ⟨e, -, -, rfl⟩
    · obtain ⟨-, rfl⟩ := Prod.mk.inj hr
      cases a with
      | putFdu d =>
        obtain ⟨d', hd', hf⟩ := h
        by_cases hd : d'.uuid = d.uuid
        · exact Or.inl ⟨d, Table.mem_put_self _ _, hd ▸ hf⟩
        · exact Or.inl ⟨d', Table.mem_put.2 (Or.inr ⟨hd', hd⟩), hf⟩
      | deleteFdu g =>
        by_cases hg : g = f
        · exact Or.inr ⟨rfl, by rw [hg]⟩
        · obtain ⟨d', hd', hf⟩ := h
          exact Or.inl ⟨d', Table.mem_erase.2 ⟨hd', by rw [hf]; simpa using Ne.symm hg⟩, hf⟩
      | _ => exact Or.inl h
    · exact Or.inl h
  | _ =>
    have hst := (exec_internal (fun _ h => by cases h) hx).1
    exact Or.inl (by unfold Fos.Knows; rw [hst]; exact h)

theorem knows_step (hs : (machine z).Step l w w') (hlaunch : l ≠ .launch) (h : w.state.Knows f) :
    w'.state.Knows f ∨ ∃ i, l = .fire i .go ∧ w.upcoming i = some (.access (.deleteFdu f)) := by
  cases hs with
  | @act _ i ch p c k r s hi hx =>
    apply (exec_knows hx h).imp_right
    rintro ⟨rfl, rfl⟩
    exact ⟨i, rfl, Pool.upcoming_eq_some.2 ⟨p, k, hi⟩⟩
  | env hm =>
    obtain ⟨st, hst, rfl⟩ := Option.map_eq_some_iff.1 hm
    apply Or.inl
    obtain ⟨d, hd, hf⟩ := h
    exact ⟨d, (monitor_moves hst).fdus ▸ hd, hf⟩
  | launch => exact absurd rfl hlaunch
  | _ => exact Or.inl h

/-- Either the descriptor is there, or there is nothing of the FDU. -/
structure Covered (f : Uuid) (w : Calls) : Prop where
  holding : w.Follows (Holding (.fdu f)) (fun _ _ _ => True) fun _ _ _ => True
  knows : w.state.Knows f ∨ Gone (.fdu f) w

theorem OnFdus.starts {p : Proc} (hg : OnFdus l) (hl : l = .start p) : p.OnFdu := by
  subst hl; exact hg

theorem OnFdus.not_launch (hg : OnFdus l) : l ≠ .launch := by
  rintro rfl; exact hg

theorem Covered.step (h : Covered f w) (hg : Careful l w) (hs : (machine z).Step l w w') :
    Covered f w' := by
  refine ⟨holding_step hs h.holding (fun p => hg.calls.starts) hg.calls.not_launch, ?_⟩
  by_cases hf : w'.state.Knows f
  · exact Or.inl hf
  have hspent : (Subject.fdu f).Spent w'.state := fun d hd hfd => hf ⟨d, hd, hfd⟩
  apply Or.inr
  rcases h.knows with hknows | hgone
  · rcases knows_step hs hg.calls.not_launch hknows with hf' | ⟨i, rfl, hc⟩
    · exact absurd hf' hf
    have hunused := hg.unused i f rfl hc
    apply gone_of_deletes hs h.holding hc trivial hunused.others
    obtain ⟨p, k, r, s, -, hx, rfl⟩ := hs.of_upcoming hc
    cases hx
    exact ⟨hunused.stored, hunused.pending, fun _ => hunused.copies, hspent⟩
  · exact hgone.step hs (fun p => hg.calls.starts) hg.calls.not_launch hspent

end Steps

/-- In every careful run, every record has a descriptor in every state. -/
theorem catalogued {s₀ : Fos} {w : Calls} (h₀ : Catalogued s₀)
    (hreach : (machine z).Reach Careful (Pool.idle s₀) w) : Catalogued w.state := by
  have hinv : ∀ f, Covered f w := by
    intro f
    refine hreach.inv (Covered f) ⟨Pool.follows_idle s₀, ?_⟩ fun l w w' h hg hs => h.step hg hs
    by_cases hf : s₀.Knows f
    · exact Or.inl hf
    · refine Or.inr ⟨⟨?_, ?_, ?_, fun d hd hfd => hf ⟨d, hd, hfd⟩⟩, fun t ht => absurd ht List.not_mem_nil⟩
      · rintro i hi rfl
        exact hf (h₀.stored i hi)
      · rintro n i hi rfl
        exact hf (h₀.pending n i hi)
      · rintro - n i hi rfl
        exact hf (h₀.copies n i hi)
  refine ⟨fun i hi => ?_, fun n i hi => ?_, fun n i hi => ?_⟩
  · exact (hinv i.fduUuid).knows.resolve_right fun hg => hg.absent.stored i hi rfl
  · exact (hinv i.fduUuid).knows.resolve_right fun hg => hg.absent.copies (by simp) n i hi rfl
  · exact (hinv i.fduUuid).knows.resolve_right fun hg => hg.absent.pending n i hi rfl

theorem AtOwner.onFdus {n : Uuid} {l : Label Proc Choice Uuid} (h : AtOwner z n l) : OnFdus l := by
  cases l with
  | start p => exact Proc.ServedBy.onFdu h
  | _ => exact h

/-- A check that lets descriptors be deleted by the only call there is, when neither the
global store nor node `n` has anything of the FDU. -/
def sparing (z : Session) (n : Uuid) (l : Label Proc Choice Uuid) (w : Calls) : Bool :=
  atOwner z n l && match l with
    | .fire i _ =>
      match w.upcoming i with
      | some (.access (.deleteFdu f)) => w.threads.length ≤ 1 ∧ i = 0 ∧
          (∀ j ∈ w.state.global.instances.rows, j.fduUuid ≠ f) ∧
          (∀ j ∈ (w.state.node n).changes, j.fduUuid ≠ f) ∧
          ∀ j ∈ (w.state.node n).instances.rows, j.fduUuid ≠ f
      | _ => true
    | _ => true

theorem sparing_sound {n u : Uuid} {l : Label Proc Choice Uuid} {w : Calls}
    (hhome : Homed n u w.state) (h : sparing z n l w = true) : Careful l w := by
  obtain ⟨howner, h⟩ := Bool.and_eq_true_iff.1 h
  refine ⟨(atOwner_sound howner).onFdus, ?_⟩
  rintro i f rfl hc
  simp only [hc] at h
  obtain ⟨hlen, rfl, hstored, hpending, hcopies⟩ := of_decide_eq_true h
  refine ⟨hstored, fun m j hj => ?_, fun m j hj => ?_, fun j t hj ht => ?_⟩
  · obtain ⟨rfl, -⟩ := hhome.copies m j hj
    exact hcopies j hj
  · obtain ⟨rfl, -⟩ := hhome.pending m j hj
    exact hpending j hj
  · have := (List.getElem?_eq_some_iff.1 ht).1
    omega

theorem boot_catalogued (sites : List Site) (fdus : List FDUDescriptor)
    (entities : List EntityDescriptor) : Catalogued (boot sites fdus entities) :=
  ⟨fun i h => absurd h (Table.not_mem_empty i), fun _ i h => absurd h (Table.not_mem_empty i),
    fun _ _ h => absurd h List.not_mem_nil⟩

def offloaded (f : Uuid) : ((p : Proc) × Except Exn p.Ret) → Bool
  | ⟨.agent _ (.offloadFdu g), .ok _⟩ => g = f
  | _ => false

/-- An FDU is onboarded, instantiated and, when its instance is gone, offloaded; then
another one is onboarded and instantiated. -/
def offloadBetween : List (Turn Proc Uuid) :=
  [.start (.agent 100 (.onboardFdu (.plain 50)))] ++ fires 0 2 ++
    [.start (.agent 100 (.defineFdu 50))] ++ fires 0 12 ++ [.env 0] ++ fires 0 2 ++
    [.start (.agent 100 (.undefineFdu 0))] ++ fires 0 16 ++
    [.start (.agent 100 (.offloadFdu 50))] ++ fires 0 4 ++
    [.start (.agent 100 (.onboardFdu (.plain 51)))] ++ fires 0 2 ++
    [.start (.agent 100 (.defineFdu 51))] ++ fires 0 12 ++ [.env 0]

theorem catalogued_onboarded : ∃ w, (machine (Site.session oneSite)).Reach Careful
    (Pool.idle (boot oneSite [] [])) w ∧ Catalogued w.state ∧ w.done.any (offloaded 50) = true ∧
    ∃ i, i ∈ w.state.global.instances := by
  have hrun : ((machine (Site.session oneSite)).script resolve (sparing (Site.session oneSite) 0)
      offloadBetween (Pool.idle (boot oneSite [] []))).any (fun w => w.done.any (offloaded 50) &&
        !w.state.global.instances.rows.isEmpty) = true := by decide +kernel
  obtain ⟨w, hplay, hend⟩ := Machine.exists_script hrun
  obtain ⟨hoffloaded, hend⟩ := Bool.and_eq_true_iff.1 hend
  have hreach : (machine (Site.session oneSite)).Reach Careful (Pool.idle (boot oneSite [] [])) w :=
    (Machine.reach_of_script (fun _ _ h => h) hplay).sharpen fun l v hv h =>
      sparing_sound (homed_of_reach (u := 0) (boot_homed _ _ _)
        (hv.mono fun l w h => atOwner_sound (Bool.and_eq_true_iff.1 h).1)) h
  refine ⟨w, hreach, catalogued (boot_catalogued _ _ _) hreach, hoffloaded, ?_⟩
  exact List.exists_mem_of_ne_nil _ (by simpa using hend)

/-- `define_fdu` has read the descriptor when `offload_fdu`, which finds no instance,
deletes it. All calls end, nothing is on its way, and the instance is there. -/
def defineOffload : List (Turn Proc Uuid) :=
  [.start (.agent 100 (.defineFdu 50))] ++ fires 0 1 ++ [.start (.agent 100 (.offloadFdu 50))] ++
    fires 1 4 ++ fires 0 11 ++ [.env 0] ++ fires 0 2

theorem offloaded_with_instance : ∃ w, (machine (Site.session oneSite)).Reach (fun l _ => OnFdus l)
    (Pool.idle (boot oneSite [.plain 50] [])) w ∧ w.threads = [] ∧
    (∀ n, (w.state.node n).changes = []) ∧
    ∃ i ∈ w.state.global.instances, ¬ w.state.Knows i.fduUuid := by
  have hrun : ((machine (Site.session oneSite)).script resolve
      (fun l _ => atOwner (Site.session oneSite) 0 l) defineOffload
      (Pool.idle (boot oneSite [.plain 50] []))).any (fun w => w.threads.isEmpty &&
        ((w.state.node 0).changes.isEmpty && w.state.global.instances.rows.any fun i =>
          w.state.global.fdus.rows.all fun d => d.uuid ≠ some i.fduUuid)) = true := by decide +kernel
  obtain ⟨w, hplay, hend⟩ := Machine.exists_script hrun
  obtain ⟨hthreads, hend⟩ := Bool.and_eq_true_iff.1 hend
  obtain ⟨hchanges, hend⟩ := Bool.and_eq_true_iff.1 hend
  have hhome : Homed 0 0 w.state := homed_of_reach (boot_homed _ _ _)
    (Machine.reach_of_script (fun _ _ h => atOwner_sound h) hplay)
  refine ⟨w, Machine.reach_of_script (fun _ _ h => (atOwner_sound h).onFdus) hplay,
    List.isEmpty_iff.1 hthreads, fun n => ?_, ?_⟩
  · apply List.eq_nil_iff_forall_not_mem.2
    intro i hi
    obtain ⟨rfl, -⟩ := hhome.pending n i hi
    rw [List.isEmpty_iff.1 hchanges] at hi
    exact absurd hi List.not_mem_nil
  · obtain ⟨i, hi, hall⟩ := List.any_eq_true.1 hend
    refine ⟨i, hi, fun ⟨d, hd, hf⟩ => ?_⟩
    exact of_decide_eq_true (List.all_eq_true.1 hall d hd) hf

end Fog05
