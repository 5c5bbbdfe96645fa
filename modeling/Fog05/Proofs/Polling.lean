import Fog05.Proofs.Identity
import Fog05.Proofs.Resurrection
import Fog05.Proofs.Trail

/-! What a polling loop waits for. A call polls for the status that its plugin has put,
which is the last one put as long as no other call changes the instance meanwhile; the
monitoring task then brings it to the global store. Otherwise the loop may miss it. -/

namespace Fog05

open Conc M

variable {z : Session} {n u v f : Uuid} {awaited : FDUState}

/-- The status of `u` that a call has put last and not taken back. -/
def Cmd.leaves (u : Uuid) (q : Option FDUState) : (c : Cmd) → c.Ans → Option FDUState
  | .access (.localPutInstance _ i), .ok _ => if i.uuid = u then some i.status else q
  | .access (.deleteInstance _ v), .ok _ => if v = u then none else q
  | _, _ => q

/-- To poll `u` for the status only that one has put last. -/
def Awaiting (u : Uuid) : Discipline Cmd.Ans Proc.Ret Exn (Option FDUState) where
  allows _ _ := True
  next q c r q' := q' = c.leaves u q r ∧ c.Honest r
  calls q p := p.OnFdu ∧ ∀ awaited, p = .poll u awaited → q = some awaited
  back _ _ _ _ := True

/-- The plugin calls of `move`, and the status that the agent polls for after each. -/
def PluginRequest.Awaits (u : Uuid) (awaited : FDUState) : PluginRequest → Prop
  | .configureFdu v | .stopFdu v => v = u ∧ awaited = .configured
  | .cleanFdu v => v = u ∧ awaited = .defined
  | .startFdu v => v = u ∧ awaited = .running
  | _ => False

section Follows

variable {α : Type} {a : Agent} {p svc : Uuid} {q : Option FDUState}

theorem awaiting_of_within {b : M α}
    (h : b.Within (fun _ => True) fun p => p.OnFdu ∧ ∀ v awaited, p ≠ .poll v awaited) :
    b.Follows (Awaiting u) (fun _ _ => True) q :=
  h.allowed (D := Awaiting u) (fun _ _ _ => trivial)
    fun _ _ hp => ⟨hp.1, fun awaited h => absurd h (hp.2 u awaited)⟩

theorem awaiting_bind {β : Type} {b : M α} {k : α → M β} {P : β → Option FDUState → Prop}
    (hb : b.Within (fun _ => True) fun p => p.OnFdu ∧ ∀ v awaited, p ≠ .poll v awaited)
    (hk : ∀ x q, (k x).Follows (Awaiting u) (fun o q' => ∀ y, o = .ok y → P y q') q) :
    (b >>= k).Follows (Awaiting u) (fun o q' => ∀ y, o = .ok y → P y q') q :=
  follows_bind (awaiting_of_within hb) (fun x q' _ => hk x q') fun _ _ _ _ => nofun

theorem remote_awaiting {r : Rpc} {b : M r.Ret} {P : r.Ret → Option FDUState → Prop}
    (hb : ∀ q, b.Follows (Awaiting u) (fun o q' => ∀ x, o = .ok x → P x q') q) :
    (remote z r b).Follows (Awaiting u) (fun o q' => ∀ x, o = .ok x → P x q') q := by
  refine follows_remote trivial (fun _ q₁ _ => (hb q₁).mono fun o q₂ h => ?_) fun _ _ _ _ => nofun
  refine ⟨trivial, fun y q₃ hn x hy => ?_⟩
  obtain ⟨rfl, hhonest⟩ := hn
  cases y with
  | error e => cases hy
  | ok y =>
    cases hy
    exact h x (received_eq_ok.1 hhonest)

theorem withLock_awaiting {b : M α} {P : α → Option FDUState → Prop}
    (hb : ∀ q, b.Follows (Awaiting u) (fun o q' => ∀ x, o = .ok x → P x q') q) :
    (DummyHypervisor.withLock p b).Follows (Awaiting u) (fun o q' => ∀ x, o = .ok x → P x q') q := by
  refine follows_withLock trivial fun _ q₁ _ => (hb q₁).mono fun o q₂ h => ⟨trivial, ?_⟩
  rintro _ _ ⟨rfl, -⟩
  exact h

theorem store_awaiting {r : FDURecord} :
    (DummyHypervisor.store n p r).Follows (Awaiting u)
      (fun o q' => ∀ x, o = .ok x → r.uuid = u → q' = some r.status) q := by
  refine follows_ask_bind trivial (fun _ q₁ h₁ => ?_) fun _ _ _ _ => nofun
  refine ⟨trivial, fun _ q₂ h₂ _ _ hu => ?_⟩
  obtain ⟨rfl, -⟩ := h₁
  obtain ⟨rfl, -⟩ := h₂
  exact if_pos hu

theorem transition_awaiting {before : FDUState} {work : FDURecord → M Unit}
    (hwork : ∀ inst q, inst.uuid = v → (work inst).Follows (Awaiting u)
      (fun o q' => ∀ x, o = .ok x → v = u → q' = some awaited) q) :
    (DummyHypervisor.transition z n p before v work).Follows (Awaiting u)
      (fun o q' => ∀ x, o = .ok x → v = u → q' = some awaited) q := by
  refine awaiting_bind (DummyHypervisor.within_getNodeUuid fun _ _ => trivial) fun _ q => ?_
  refine follows_ask_bind trivial (fun inst q₁ h₁ => ?_) fun _ _ _ _ => nofun
  split
  · refine withLock_awaiting fun q₂ => follows_bind (hwork inst q₂ h₁.2) (fun _ q₃ h₃ => ?_)
      fun _ _ _ _ => nofun
    exact fun _ _ => h₃ () rfl
  · exact fun _ => nofun

theorem call_awaiting {r : PluginRequest} (hr : r.Awaits v awaited) :
    (DummyHypervisor.call z n p r).Follows (Awaiting u)
      (fun o q' => ∀ x, o = .ok x → v = u → q' = some awaited) q := by
  have hstore : ∀ {inst r' : FDURecord} {q : Option FDUState}, inst.uuid = v → r'.uuid = inst.uuid →
      r'.status = awaited → (DummyHypervisor.store n p r').Follows (Awaiting u)
        (fun o q' => ∀ x, o = .ok x → v = u → q' = some awaited) q := by
    rintro inst r' q rfl hu rfl
    exact store_awaiting.mono fun o q' h x ho hv => h x ho (hu.trans hv)
  have hplain : ∀ c : Cmd, c.Plain → True := fun _ _ => trivial
  apply remote_awaiting
  intro q
  cases r with
  | configureFdu w =>
    obtain ⟨rfl, rfl⟩ := hr
    apply transition_awaiting
    intro inst q hu
    apply awaiting_bind (DummyHypervisor.within_fduInfo hplain)
    intro d q
    apply awaiting_bind (within_callNet trivial)
    intro ns q
    apply awaiting_bind (DummyHypervisor.within_createConnectionPoints hplain _ _)
    intro cps q
    apply awaiting_bind (DummyHypervisor.within_createInterfaces hplain _ _ _ _)
    intro ifs q
    exact hstore hu rfl rfl
  | cleanFdu w =>
    obtain ⟨rfl, rfl⟩ := hr
    apply transition_awaiting
    intro inst q hu
    apply awaiting_bind (DummyHypervisor.within_decodeSpecific _)
    intro ns q
    apply awaiting_bind (DummyHypervisor.within_callAll hplain _)
    intro _ q
    exact hstore hu rfl rfl
  | startFdu w =>
    obtain ⟨rfl, rfl⟩ := hr
    exact transition_awaiting fun inst q hu => hstore hu rfl rfl
  | stopFdu w =>
    obtain ⟨rfl, rfl⟩ := hr
    exact transition_awaiting fun inst q hu => hstore hu rfl rfl
  | _ => exact hr.elim

theorem moving_awaiting {r : PluginRequest} (hr : r.Awaits v awaited) {forward : Uuid → M FDURecord}
    (hforward : ∀ svc, (forward svc).Within (fun _ => True) fun p =>
      p.OnFdu ∧ ∀ v awaited, p ≠ .poll v awaited) :
    (Agent.dispatch a v (fun _ => Agent.move z a r awaited v) forward).Follows (Awaiting u)
      (fun _ _ => True) q := by
  refine follows_ask_bind trivial (fun inst q₁ _ => ?_) fun _ _ _ => trivial
  split
  · refine follows_ask_bind trivial (fun d q₂ _ => ?_) fun _ _ _ => trivial
    refine follows_issue_bind trivial fun hv q₃ _ => follows_okOr_bind (fun p _ => ?_) fun _ => trivial
    refine follows_bind (call_awaiting hr) (fun x q₄ h₄ => ?_) fun _ _ _ => trivial
    refine follows_invoke ⟨trivial, fun awaited' hp => ?_⟩ fun _ _ _ => trivial
    obtain ⟨rfl, rfl⟩ := Proc.poll.inj hp
    exact h₄ x rfl rfl
  · exact follows_ask_bind trivial (fun _ _ _ => awaiting_of_within (hforward _)) fun _ _ _ => trivial

theorem defineFdu_awaiting {f : Uuid} :
    (Agent.defineFdu z a f).Follows (Awaiting u) (fun _ _ => True) q := by
  refine follows_ask_bind trivial (fun d q₁ _ => ?_) fun _ _ _ => trivial
  refine follows_issue_bind trivial fun hv q₂ _ => follows_okOr_bind (fun p _ => ?_) fun _ => trivial
  have hcall : (DummyHypervisor.call z a.nodeUuid p (.defineFdu d)).Follows (Awaiting u)
      (fun o q' => ∀ i, o = .ok i → i.uuid = u → q' = some .defined) q₂ := by
    apply remote_awaiting (r := .plugin p (.defineFdu d))
    intro q
    refine awaiting_bind (DummyHypervisor.within_getNodeUuid fun _ _ => trivial) fun m q => ?_
    refine withLock_awaiting fun q => awaiting_bind (within_issue trivial) fun w q => ?_
    apply awaiting_bind within_unwrap
    intro f q
    refine follows_bind store_awaiting (fun x q' h => ?_) fun _ _ _ _ => nofun
    rintro _ ⟨⟩ hu
    exact h x rfl hu
  refine follows_bind hcall (fun i q₃ h₃ => ?_) fun _ _ _ => trivial
  refine follows_invoke ⟨trivial, fun awaited hp => ?_⟩ fun _ _ _ => trivial
  obtain ⟨hu, rfl⟩ := Proc.poll.inj hp
  exact h₃ i rfl hu

theorem awaiting_sound : (Awaiting u).Sound (body z) := by
  have hrpc : ∀ svc (r : Request), r.OnFdu → (rpc z svc r).Within (fun _ => True)
      fun p => p.OnFdu ∧ ∀ v awaited, p ≠ .poll v awaited := fun _ _ hr =>
    within_remote (within_invoke ⟨hr, fun _ _ h => by cases h⟩) trivial fun _ => trivial
  rintro q p ⟨hp, hq⟩
  cases p with
  | poll v awaited =>
    refine Prog.follows_retry trivial (fun r q' hn => ?_) fun _ _ _ _ _ => trivial
    obtain ⟨rfl, -⟩ := hn
    exact follows_invoke ⟨trivial, hq⟩ fun _ _ _ => trivial
  | task t => exact hp.elim
  | agent svc r =>
    simp only [body]
    split
    · next m _ =>
      cases r with
      | onboardFdu fdu => exact awaiting_of_within (Agent.within_onboardFdu fdu trivial fun _ => trivial)
      | offloadFdu f => exact awaiting_of_within (Agent.within_offloadFdu (fun _ _ => trivial) trivial)
      | defineFdu f => exact defineFdu_awaiting
      | configureFdu v =>
        exact moving_awaiting (r := .configureFdu v) ⟨rfl, rfl⟩ fun svc => hrpc svc (.configureFdu v) trivial
      | startFdu v =>
        exact moving_awaiting (r := .startFdu v) ⟨rfl, rfl⟩ fun svc => hrpc svc (.startFdu v) trivial
      | stopFdu v =>
        exact moving_awaiting (r := .stopFdu v) ⟨rfl, rfl⟩ fun svc => hrpc svc (.stopFdu v) trivial
      | cleanFdu v =>
        exact moving_awaiting (r := .cleanFdu v) ⟨rfl, rfl⟩ fun svc => hrpc svc (.cleanFdu v) trivial
      | undefineFdu v =>
        exact awaiting_of_within (Agent.within_undefineFdu (fun _ _ => trivial) fun _ =>
          ⟨trivial, fun _ _ h => by cases h⟩)
      | _ => exact hp.elim
    · trivial

end Follows

/-- The record that has been put last on the trail has this status. -/
def Store.Due (st : Store) (n u : Uuid) (awaited : FDUState) : Prop :=
  ∃ r, (st.trail n u).getLast? = some r ∧ r.status = awaited

/-- A get finds the instance with this status, or with an error, or a change to this
status is on its way. -/
def Store.Offers (st : Store) (n u : Uuid) (awaited : FDUState) : Prop :=
  (∃ i, st.global.getInstance u = .ok i ∧ (i.status = awaited ∨ ∃ e, i.status = .error e)) ∨
    ∃ i ∈ (st.node n).changes, i.uuid = u ∧ i.status = awaited

/-- The records of instance `u` are under one path, and come from one node only. -/
structure Rooted (n u : Uuid) (st : Store) : Prop where
  same : ∀ i ∈ st.trail n u, ∀ j ∈ st.trail n u, i.path = j.path
  elsewhere : ∀ m, m ≠ n → ∀ i ∈ (st.node m).changes, i.uuid ≠ u

section Store

variable {st st' : Store} {s s' : Fos} {c : Cmd} {ch : Choice} {r : c.Ans} {m : Uuid}

theorem Store.Due.offers (h : st.Due n u awaited) (hst : Rooted n u st) : st.Offers n u awaited := by
  obtain ⟨r, hlast, hr⟩ := h
  have hmem : r ∈ st.trail n u := List.mem_of_getLast? hlast
  rw [Store.trail, List.getLast?_append] at hlast
  cases hp : ((st.node n).changes.filter fun i => i.uuid = u).getLast? with
  | some i =>
    obtain rfl : i = r := by simpa [hp] using hlast
    obtain ⟨hi, hu⟩ := List.mem_filter.1 (List.mem_of_getLast? hp)
    exact Or.inr ⟨i, hi, of_decide_eq_true hu, hr⟩
  | none =>
    rw [hp, Option.none_or] at hlast
    have hstored := Table.mem_select.1 (List.mem_of_getLast? hlast)
    refine Or.inl ⟨r, (single_select_eq_ok fun j hj hu => ?_).2 hstored, Or.inl hr⟩
    exact Table.eq_of_key hj hstored.1 (hst.same j (Store.mem_trail.2 ⟨Or.inl hj, hu⟩) r hmem)

/-- A round of a monitoring task leaves the record that has been put last. -/
theorem Rooted.last {i : FDURecord} (h : Rooted n u st) (hlast : (st.trail n u).getLast? = some i)
    (hm : st.monitor m = some st') : (st'.trail n u).getLast? = some i :=
  last_monitor hm (fun j hj => h.same j hj i (List.mem_of_getLast? hlast)) (h.elsewhere m) hlast

theorem Rooted.monitor {i : FDURecord} (h : Rooted n u st) (hi : i ∈ st.trail n u)
    (hm : st.monitor m = some st') : Rooted n u st' := by
  obtain ⟨hsuffix, -⟩ := trail_monitor hm (fun j hj => h.same j hj i hi) (h.elsewhere m)
  exact ⟨fun j hj k hk => h.same j (hsuffix.subset hj) k (hsuffix.subset hk),
    fun k hk j hj => h.elsewhere k hk j ((monitor_moves hm).pending k j hj)⟩

def Cmd.Marks (u : Uuid) : Cmd → Prop
  | .access (.localPutInstance _ i) => i.uuid = u
  | .access (.deleteInstance _ v) => v = u
  | _ => False

theorem exec_unmarked (hx : exec c ch s = some (r, s')) (hc : ch = .go → ¬ c.Marks u)
    (q : Option FDUState) : c.leaves u q r = q ∧ s'.trail n u = s.trail n u := by
  cases c with
  | access a =>
    rcases exec_access hx with ⟨rfl, hr⟩ | ⟨e, -, rfl, rfl⟩
    · obtain ⟨rfl, rfl⟩ := Prod.mk.inj hr
      cases a with
      | localPutInstance m i => exact ⟨if_neg (hc rfl), trail_localPut_of_ne (hc rfl)⟩
      | localDeleteInstance m f v => exact ⟨rfl, trail_localDelete⟩
      | deleteInstance f v =>
        refine ⟨if_neg (hc rfl), ?_⟩
        exact congrArg (· ++ _) (Table.select_erase_of_not (hc rfl))
      | _ => exact ⟨rfl, rfl⟩
    · cases a <;> exact ⟨rfl, rfl⟩
  | _ => exact ⟨rfl, by rw [(exec_internal (fun _ h => by cases h) hx).1]⟩

end Store

inductive Polls (z : Session) (u : Uuid) (awaited : FDUState) : Thread Cmd.Ans Proc.Ret Exn → Prop
  | round {p k} : Polls z u awaited ⟨p, .call (.poll u awaited) k⟩
  | look {p k} : Polls z u awaited ⟨p, (body z (.poll u awaited)).bindE k⟩

def OthersAwait (u : Uuid) (left : Option FDUState) (i : ℕ) (w : Calls) : Prop :=
  ∀ j t, j ≠ i → w.threads[j]? = some t → t.prog.Follows (Awaiting u) (fun _ _ => True) left

/-- The steps of clients' calls at the owner in which no record of `u` is put while
another call waits for another status, and none is deleted while another call waits and
no change is on its way. -/
structure Undisturbed (z : Session) (n u : Uuid) (l : Label Proc Choice Uuid) (w : Calls) : Prop where
  served : AtOwner z n l
  client : FromClients l
  put : ∀ i m inst, l = .fire i .go → w.upcoming i = some (.access (.localPutInstance m inst)) →
    inst.uuid = u → OthersAwait u (some inst.status) i w
  deleted : ∀ i f, l = .fire i .go → w.upcoming i = some (.access (.deleteInstance f u)) →
    (∃ j ∈ (w.state.node n).changes, j.uuid = u) ∨ OthersAwait u none i w

/-- Every call polls for what is due. -/
abbrev Attending (n u : Uuid) (w : Calls) : Prop :=
  w.Follows (Awaiting u) (fun _ _ _ => True) fun _ q s =>
    ∀ awaited, q = some awaited → s.toStore.Due n u awaited

section Steps

variable {w w' : Calls} {l : Label Proc Choice Uuid}

theorem Attending.due (h : Attending n u w) {t : Thread Cmd.Ans Proc.Ret Exn} (ht : t ∈ w.threads)
    (hp : Polls z u awaited t) : w.state.toStore.Due n u awaited := by
  obtain ⟨q, hq, hdue⟩ := h.threads t ht
  cases hp with
  | round => exact hdue awaited (hq.1.2 awaited rfl)
  | look =>
    -- a look that finds nothing leads to another round
    have hagain := hq.2 (.error .notFound) q ⟨rfl, trivial⟩
    exact hdue awaited (hagain.1.2 awaited rfl)

theorem awaiting_start {p : Proc} (hl : AtOwner z n (.start p)) (hclient : FromClients (.start p)) :
    (body z p).Follows (Awaiting u) (fun _ _ => True) none := by
  refine awaiting_sound none p ⟨Proc.ServedBy.onFdu hl, fun awaited hp => ?_⟩
  subst hp
  exact hclient.elim

theorem Attending.step_unmarked (h : Attending n u w) (hst : Rooted n u w.state.toStore)
    (hl : AtOwner z n l) (hclient : FromClients l) (hs : (machine z).Step l w w')
    (hc : ∀ i c, l = .fire i .go → w.upcoming i = some c → ¬ c.Marks u) : Attending n u w' := by
  have hdue : ∀ awaited, w.state.toStore.Due n u awaited → w'.state.toStore.Due n u awaited := by
    intro awaited hd
    cases hs with
    | @act _ i ch p c k r s hi hx =>
      have hun : ch = .go → ¬ c.Marks u := fun hgo =>
        hc i c (by rw [hgo]) (Pool.upcoming_eq_some.2 ⟨p, k, hi⟩)
      obtain ⟨i, hlast, hi⟩ := hd
      exact ⟨i, (exec_unmarked hx hun none).2 ▸ hlast, hi⟩
    | env hm =>
      obtain ⟨st, hst', rfl⟩ := Option.map_eq_some_iff.1 hm
      obtain ⟨i, hlast, hi⟩ := hd
      exact ⟨i, hst.last hlast hst', hi⟩
    | launch hlaunch => exact absurd rfl hl.not_launch
    | _ => exact hd
  refine hs.follows awaiting_sound h (fun p hp => ?_) (fun p s hlaunch _ => absurd hlaunch hl.not_launch)
    (fun i ch p q c r s hfire hup hq _ hx => ?_) fun p q hq awaited ha => hdue awaited (hq awaited ha)
  · subst hp
    exact ⟨none, awaiting_start hl hclient, nofun⟩
  · subst hfire
    have hun : ch = .go → ¬ c.Marks u := fun hgo => hc i c (by rw [hgo]) hup
    obtain ⟨hleaves, htrail⟩ := exec_unmarked (n := n) hx hun q
    refine ⟨q, ⟨hleaves.symm, exec_honest hx⟩, fun awaited ha => ?_⟩
    obtain ⟨i, hlast, hi⟩ := hq awaited ha
    exact ⟨i, htrail ▸ hlast, hi⟩

/-- A record that is put is due from then on; nobody waits for another status. -/
theorem Attending.step_put (h : Attending n u w) {i : ℕ} {inst : FDURecord}
    (hs : (machine z).Step (.fire i .go) w w')
    (hc : w.upcoming i = some (.access (.localPutInstance n inst))) (hu : inst.uuid = u)
    (hothers : OthersAwait u (some inst.status) i w) : Attending n u w' := by
  have hdue : w'.state.toStore.Due n u inst.status := by
    obtain ⟨p, k, r, s, hi, hx, rfl⟩ := hs.of_upcoming hc
    cases hx
    refine ⟨inst, ?_, rfl⟩
    change ((w.state.toStore.localPut n inst).trail n u).getLast? = some inst
    rw [trail_localPut hu, List.getLast?_concat]
  refine hs.follows_beside hc h (fun p q r s _ _ hx hs' => ?_)
    (fun j t hj ht => ⟨some inst.status, hothers j t hj ht, ?_⟩) fun x _ => ⟨none, trivial, nofun⟩
  · have hx : exec (.access (.localPutInstance n inst)) .go w.state = some (r, s) := hx
    refine ⟨some inst.status, ⟨?_, exec_honest hx⟩, ?_⟩
    · cases hx
      exact (if_pos hu).symm
    · rintro awaited ⟨⟩
      exact hs' ▸ hdue
  · rintro awaited ⟨⟩
    exact hdue

/-- Nor does anybody wait any more when the record is deleted, or the change is still to come. -/
theorem Attending.step_delete (h : Attending n u w) {i : ℕ} (hs : (machine z).Step (.fire i .go) w w')
    (hc : w.upcoming i = some (.access (.deleteInstance f u)))
    (hothers : (∃ j ∈ (w.state.node n).changes, j.uuid = u) ∨ OthersAwait u none i w) :
    Attending n u w' := by
  have hown : ∀ (q : Option FDUState) {r s}, exec (.access (.deleteInstance f u)) .go w.state = some (r, s) →
      ∃ q', (Awaiting u).next q (.access (.deleteInstance f u)) r q' ∧
        ∀ awaited, q' = some awaited → s.toStore.Due n u awaited := by
    intro q r s hx
    refine ⟨none, ⟨?_, exec_honest hx⟩, nofun⟩
    cases hx
    exact (if_pos rfl).symm
  rcases hothers with ⟨j, hj, hju⟩ | hothers
  · have hlast : (w'.state.trail n u).getLast? = (w.state.trail n u).getLast? := by
      obtain ⟨p, k, r, s, hi, hx, rfl⟩ := hs.of_upcoming hc
      cases hx
      have hpend : ((w.state.node n).changes.filter fun i => i.uuid = u).getLast?.isSome :=
        List.getLast?_isSome.2 (List.ne_nil_of_mem (List.mem_filter.2 ⟨hj, decide_eq_true hju⟩))
      simp only [Store.trail, List.getLast?_append]
      exact (Option.or_of_isSome hpend).trans (Option.or_of_isSome hpend).symm
    refine hs.follows_beside hc h (fun p q r s _ _ hx _ => hown q hx) (fun j t _ ht => ?_)
      fun x _ => ⟨none, trivial, nofun⟩
    obtain ⟨q, hq, hdue⟩ := h.threads t (List.mem_of_getElem? ht)
    refine ⟨q, hq, fun awaited ha => ?_⟩
    obtain ⟨r, hr, hst⟩ := hdue awaited ha
    exact ⟨r, hlast.trans hr, hst⟩
  · exact hs.follows_beside hc h (fun p q r s _ _ hx _ => hown q hx)
      (fun j t hj ht => ⟨none, hothers j t hj ht, nofun⟩) fun x _ => ⟨none, trivial, nofun⟩

end Steps

section Runs

variable {sites : List Site} {fdus : List FDUDescriptor} {entities : List EntityDescriptor} {w : Calls}

theorem rooted_of_reach (hreach : (machine z).Reach (fun l _ => AtOwner z n l ∧ FromClients l)
    (Pool.idle (boot sites fdus entities)) w) : Rooted n u w.state.toStore := by
  have hhome : Homed n u w.state := homed_of_reach (boot_homed _ _ _) (hreach.mono fun _ _ => And.left)
  obtain ⟨T, -, hT⟩ := accounted_of_reach (boot_accounted sites fdus entities)
    (hreach.mono fun _ _ => And.right)
  have hholds : ∀ i ∈ w.state.trail n u, i.datum.Holds T ∧ i.uuid = u := by
    intro i hi
    obtain ⟨hi | hi, hu⟩ := Store.mem_trail.1 hi
    · exact ⟨hT.state.shown _ (.stored hi), hu⟩
    · exact ⟨hT.state.shown _ (.pending hi), hu⟩
  refine ⟨fun i hi j hj => ?_, fun m hm i hi => absurd (hhome.pending m i hi).1 hm⟩
  obtain ⟨hi, hiu⟩ := hholds i hi
  obtain ⟨hj, hju⟩ := hholds j hj
  exact same_path hi hj (hiu.trans hju.symm)

theorem attending_of_reach (hreach : (machine z).Reach (Undisturbed z n u)
    (Pool.idle (boot sites fdus entities)) w) : Attending n u w := by
  induction hreach with
  | refl => exact Pool.follows_idle _
  | @snoc w w' l hr hg hs ih =>
    have hrun : (machine z).Reach (fun l _ => AtOwner z n l ∧ FromClients l)
        (Pool.idle (boot sites fdus entities)) w := hr.mono fun _ _ h => ⟨h.served, h.client⟩
    have hstep := Machine.step_cases hs
    by_cases hmark : ∃ i c, l = .fire i .go ∧ w.upcoming i = some c ∧ c.Marks u
    · obtain ⟨i, c, rfl, hup, hm⟩ := hmark
      unfold Cmd.Marks at hm
      split at hm
      · next m inst =>
        -- at the owner, the record is put there
        have hhome := homed_of_reach (u := u) (boot_homed sites fdus entities)
          ((hrun.mono fun _ _ => And.left).snoc hg.served hs)
        obtain ⟨p, k, r, s, hi, hx, hw'⟩ := hstep.of_upcoming hup
        obtain rfl : m = n := by
          refine (hhome.pending m inst ?_).1
          rw [hw']
          cases hx
          simp [Store.localPut, Store.setNode]
        exact ih.step_put hstep hup hm (hg.put i m inst rfl hup hm)
      · next f v =>
        subst hm
        exact ih.step_delete hstep hup (hg.deleted i f rfl hup)
      · exact hm.elim
    · apply ih.step_unmarked (rooted_of_reach hrun) hg.served hg.client hstep
      intro i c hl hup hm
      exact hmark ⟨i, c, hl, hup, hm⟩

/-- In every run at the owner in which no other call changes the instance while one
waits, each polling loop finds its status, or the monitoring task still has to copy it. -/
theorem poll_served (hreach : (machine z).Reach (Undisturbed z n u)
    (Pool.idle (boot sites fdus entities)) w) :
    ∀ t ∈ w.threads, ∀ awaited, Polls z u awaited t → w.state.toStore.Offers n u awaited := by
  intro t ht awaited hp
  have hst : Rooted n u w.state.toStore :=
    rooted_of_reach (hreach.mono fun _ _ h => ⟨h.served, h.client⟩)
  exact ((attending_of_reach hreach).due ht hp).offers hst

/-- And if another call does change it, the monitoring task can copy all changes before
the loop looks again: then it has missed its status. -/
theorem poll_missed (hreach : (machine z).Reach (fun l _ => AtOwner z n l ∧ FromClients l)
    (Pool.idle (boot sites fdus entities)) w) {i j : ℕ} {t : Thread Cmd.Ans Proc.Ret Exn}
    {inst : FDURecord} (ht : w.threads[j]? = some t) (hij : i ≠ j)
    (hc : w.upcoming i = some (.access (.localPutInstance n inst))) (hu : inst.uuid = u)
    (hst : inst.status ≠ awaited) (hlegal : ∀ e, inst.status ≠ .error e) :
    ∃ w', (machine z).Reach (fun l _ => AtOwner z n l ∧ FromClients l) w w' ∧
      w'.threads[j]? = some t ∧ ¬ w'.state.toStore.Offers n u awaited := by
  obtain ⟨p, k, hi⟩ := Pool.upcoming_eq_some.1 hc
  let w₁ : Calls := { w with
    state := { w.state with toStore := w.state.toStore.localPut n inst }
    threads := w.threads.set i ⟨p, k (.ok ())⟩ }
  have hstep : (machine z).step (.fire i .go) w = some w₁ := by
    simp only [Machine.step, hi]
    rfl
  have hgo : AtOwner z n (.fire i .go) ∧ FromClients (.fire i .go) := ⟨trivial, trivial⟩
  have hput : (machine z).Reach (fun l _ => AtOwner z n l ∧ FromClients l) w w₁ :=
    Machine.Reach.refl.snoc hgo hstep
  have hstable : Stable fun s => Rooted n u s.toStore ∧ (s.trail n u).getLast? = some inst :=
    fun s m st h hm => ⟨h.1.monitor (List.mem_of_getLast? h.2) hm, h.1.last h.2 hm⟩
  obtain ⟨s, henv, hnil⟩ : ∃ s, Relation.ReflTransGen (system z Unreliable).env w₁.state s ∧
      (s.node n).changes = [] := exists_drained w₁.state n
  obtain ⟨-, hlast⟩ := hstable.env ⟨rooted_of_reach (hreach.trans hput), by
    change ((w.state.toStore.localPut n inst).trail n u).getLast? = some inst
    rw [trail_localPut hu, List.getLast?_concat]⟩ henv
  have hdrain : (machine z).Reach (fun l _ => AtOwner z n l ∧ FromClients l) w₁ { w₁ with state := s } :=
    Machine.Reach.envs (fun _ _ => ⟨trivial, trivial⟩) henv
  refine ⟨_, hput.trans hdrain, ?_, ?_⟩
  · exact (List.getElem?_set_ne hij).trans ht
  · rintro (⟨r, hr, hoffer⟩ | ⟨r, hr, -⟩)
    · -- what the loop finds is the record that was put last
      obtain rfl : r = inst := by
        have hstored : s.toStore.trail n u = [r] := by
          rw [Store.trail, hnil, single_eq_ok.1 hr]
          rfl
        rw [hstored] at hlast
        exact Option.some.inj hlast
      rcases hoffer with h | ⟨e, he⟩
      · exact hst h
      · exact hlegal e he
    · rw [hnil] at hr
      cases hr

end Runs

/-- A check that lets an instance be changed only while no other call is under way. -/
def undisturbed (z : Session) (n u : Uuid) (l : Label Proc Choice Uuid) (w : Calls) : Bool :=
  atOwner z n l && decide (FromClients l) && match l with
    | .fire i _ =>
      match w.upcoming i with
      | some (.access (.localPutInstance _ inst)) => inst.uuid ≠ u ∨ w.threads.length ≤ 1
      | some (.access (.deleteInstance _ v)) => v ≠ u ∨ w.threads.length ≤ 1
      | _ => true
    | _ => true

theorem undisturbed_sound {l : Label Proc Choice Uuid} {w : Calls} (h : undisturbed z n u l w = true) :
    Undisturbed z n u l w := by
  obtain ⟨hstart, h⟩ := Bool.and_eq_true_iff.1 h
  obtain ⟨howner, hclient⟩ := Bool.and_eq_true_iff.1 hstart
  -- two calls are one too many
  have halone : ∀ {i : ℕ} {c : Cmd} {left : Option FDUState}, w.upcoming i = some c →
      w.threads.length ≤ 1 → OthersAwait u left i w := by
    intro i c left hc hlen j t hj ht
    obtain ⟨p, k, hi⟩ := Pool.upcoming_eq_some.1 hc
    have := (List.getElem?_eq_some_iff.1 ht).1
    have := (List.getElem?_eq_some_iff.1 hi).1
    omega
  refine ⟨atOwner_sound howner, of_decide_eq_true hclient, ?_, ?_⟩
  · rintro i m inst rfl hc hu
    simp only [hc] at h
    exact halone hc ((of_decide_eq_true h).resolve_left (not_not_intro hu))
  · rintro i f rfl hc
    simp only [hc] at h
    exact Or.inr (halone hc ((of_decide_eq_true h).resolve_left (not_not_intro rfl)))

def polling (u : Uuid) (awaited : FDUState) : Thread Cmd.Ans Proc.Ret Exn → Bool
  | ⟨_, .call (.poll v a) _⟩ => v = u ∧ a = awaited
  | _ => false

theorem polling_sound {t : Thread Cmd.Ans Proc.Ret Exn} (h : polling u awaited t = true) :
    Polls z u awaited t := by
  unfold polling at h
  split at h
  · obtain ⟨rfl, rfl⟩ := of_decide_eq_true h
    exact .round
  · cases h

/-- An instance is defined and configured, and a `start_fdu` has come to its polling loop. -/
def starting : List (Turn Proc Uuid) :=
  [.start (.agent 100 (.defineFdu 50))] ++ fires 0 12 ++ [.env 0] ++ fires 0 2 ++
    [.start (.agent 100 (.configureFdu 0))] ++ fires 0 17 ++ [.env 0] ++ fires 0 2 ++
    [.start (.agent 100 (.startFdu 0))] ++ fires 0 12

theorem poll_served_starting : ∃ w t, (machine (Site.session oneSite)).Reach
    (Undisturbed (Site.session oneSite) 0 0) (Pool.idle (boot oneSite [.plain 50] [])) w ∧
    t ∈ w.threads ∧ Polls (Site.session oneSite) 0 .running t ∧
    w.state.toStore.Offers 0 0 .running := by
  have hrun : ((machine (Site.session oneSite)).script resolve (undisturbed (Site.session oneSite) 0 0)
      starting (Pool.idle (boot oneSite [.plain 50] []))).any
      (fun w => w.threads.any (polling 0 .running)) = true := by decide +kernel
  obtain ⟨w, hplay, hend⟩ := Machine.exists_script hrun
  obtain ⟨t, ht, hpoll⟩ := List.any_eq_true.1 hend
  have hreach := Machine.reach_of_script (fun _ _ h => undisturbed_sound h) hplay
  exact ⟨w, t, hreach, ht, polling_sound hpoll, poll_served hreach t ht _ (polling_sound hpoll)⟩

/-- A `stop_fdu` changes the instance that `start_fdu` waits for, and the monitoring task
copies both changes before `start_fdu` has looked. -/
def startStop : List (Turn Proc Uuid) :=
  starting ++ [.start (.agent 100 (.stopFdu 0))] ++ fires 1 9 ++ [.env 0, .env 0]

theorem status_missed : ∃ w t, (machine (Site.session oneSite)).Reach
    (fun l _ => AtOwner (Site.session oneSite) 0 l ∧ FromClients l)
    (Pool.idle (boot oneSite [.plain 50] [])) w ∧ t ∈ w.threads ∧
    Polls (Site.session oneSite) 0 .running t ∧ ¬ w.state.toStore.Offers 0 0 .running := by
  have hrun : ((machine (Site.session oneSite)).script resolve
      (fun l _ => atOwner (Site.session oneSite) 0 l && decide (FromClients l)) startStop
      (Pool.idle (boot oneSite [.plain 50] []))).any (fun w => w.threads.any (polling 0 .running) &&
        (w.state.node 0).changes.isEmpty && (w.state.global.getInstance 0).toOption.any
          fun i => decide (i.status = .configured)) = true := by decide +kernel
  obtain ⟨w, hplay, hend⟩ := Machine.exists_script hrun
  obtain ⟨hend, hstored⟩ := Bool.and_eq_true_iff.1 hend
  obtain ⟨hthread, hnone⟩ := Bool.and_eq_true_iff.1 hend
  obtain ⟨t, ht, hpoll⟩ := List.any_eq_true.1 hthread
  have hreach : (machine (Site.session oneSite)).Reach
      (fun l _ => AtOwner (Site.session oneSite) 0 l ∧ FromClients l) _ w :=
    Machine.reach_of_script (fun _ _ h => ⟨atOwner_sound (Bool.and_eq_true_iff.1 h).1,
      of_decide_eq_true (Bool.and_eq_true_iff.1 h).2⟩) hplay
  refine ⟨w, t, hreach, ht, polling_sound hpoll, ?_⟩
  rintro (⟨i, hi, hst⟩ | ⟨i, hi, -⟩)
  · rw [hi] at hstored
    have hconf : i.status = .configured := of_decide_eq_true hstored
    rw [hconf] at hst
    rcases hst with hst | ⟨e, hst⟩ <;> cases hst
  · rw [List.isEmpty_iff.1 hnone] at hi
    cases hi

end Fog05
