import Fog05.Proofs.Registry
import Fog05.Proofs.Turns

/-! How the processes of a node come to a halt: a call has the agent's guard while the plugin is
to serve it, and the plugin, told to stop, has its own while the agent is to unregister it. There
is no other way, and no way out of it but that one of the two is no longer waited for. -/

namespace Fog05.Processes

open Conc Registry

/-- Request `n` of a call waits for the guard of plugin `p`, which waits for the reply to its
request `n'`, which waits for the guard of the agent, which the call has. -/
structure Crossed (w : Threads) (p : Uuid) (n n' : ℕ) : Prop where
  call : ∃ i, w.role i = some .caller ∧ w.upcoming i = some (.reply n)
  enters : ∃ i, w.role i = some (.server n (.transition p)) ∧
    w.upcoming i = some (.lock (.plugin p) .write)
  plugin : ∃ i kind, w.role i = some (.plugin kind p) ∧ w.upcoming i = some (.reply n')
  leaves : ∃ i, w.role i = some (.server n' (.registry (.unregister p))) ∧
    w.upcoming i = some (.lock .agent .write)

/-- Thread `i` cannot make a step, unless it waits for a reply and gives up. -/
def Stuck (w : Threads) (i : ℕ) : Prop :=
  ∀ ch, (∀ n e, w.upcoming i = some (.reply n) → ch ≠ .fault e) →
    machine.step (.fire i ch) w = none

/-- Neither of the two replies is given up. -/
def Patient (n n' : ℕ) (lab : Label Proc Chance Uuid) (w : Threads) : Prop :=
  Begins lab w ∧ ∀ i e, lab = .fire i (.fault e) →
    w.upcoming i ≠ some (.reply n) ∧ w.upcoming i ≠ some (.reply n')

theorem exec_ready (c : Op) (s : Node) (hlock : ∀ l m, c = .lock l m → (s.locks l).acquire m ≠ none)
    (hreply : ∀ n, c = .reply n → n ∈ s.replies.map Prod.fst)
    (hrecv : ∀ p, c = .recv p → s.stopping p = true) :
    ∃ ch r s', exec c ch s = some (r, s') ∧ ∀ n e, c = .reply n → ch ≠ .fault e := by
  cases c with
  | lock l m =>
    obtain ⟨x, hx⟩ := Option.ne_none_iff_exists'.1 (hlock l m rfl)
    exact ⟨.go, (), s.setLock l x, by simp [exec, hx], fun _ _ _ h => by cases h⟩
  | reply n =>
    obtain ⟨a, ha, hn⟩ := List.mem_map.1 (hreply n rfl)
    have hsome : (s.replies.find? fun a => a.1 = n).isSome := by
      rw [List.find?_isSome]
      exact ⟨a, ha, by simpa using hn⟩
    obtain ⟨b, hb⟩ := Option.isSome_iff_exists.1 hsome
    exact ⟨.go, b.2, s, by simp [exec, hb], fun _ _ _ h => by cases h⟩
  | recv p => exact ⟨.go, (), s, if_pos (hrecv p rfl), fun _ _ h => by cases h⟩
  | connect p => exact ⟨.fault .notFound, _, _, rfl, fun _ _ h => by cases h⟩
  | owned => exact ⟨.answer true, _, _, rfl, fun _ _ h => by cases h⟩
  | verifyServer p => exact ⟨.answer true, _, _, rfl, fun _ _ h => by cases h⟩
  | hypervisors => exact ⟨.keys _, _, _, if_pos (List.Perm.refl _), fun _ _ h => by cases h⟩
  | _ => exact ⟨.go, _, _, rfl, fun _ _ h => by cases h⟩

theorem exec_keeps {q : Entry} {c : Op} {ch : Chance} {r : c.Ans} {s s' : Node}
    (hc : q.Allows c) (hq : q.guard ≠ some (.agent, .write)) (hx : exec c ch s = some (r, s')) :
    s'.registry = s.registry ∧ s'.served = s.served := by
  cases c with
  | lock l m =>
    cases ch with
    | go =>
      obtain ⟨x, -, heq⟩ := Option.map_eq_some_iff.1 hx
      cases heq
      exact ⟨rfl, rfl⟩
    | _ => cases hx
  | reply n =>
    cases ch with
    | go =>
      obtain ⟨x, -, heq⟩ := Option.map_eq_some_iff.1 hx
      cases heq
      exact ⟨rfl, rfl⟩
    | fault e => cases hx; exact ⟨rfl, rfl⟩
    | _ => cases hx
  | answered => exact absurd hc.1 hq
  | insertHypervisor | removeHypervisor | setNetworking | getPlugin | addPlugin | removePlugin =>
    exact absurd hc hq
  | connect p | recv p | hypervisors =>
    cases ch <;> simp only [exec] at hx <;> try split at hx
    all_goals cases hx <;> exact ⟨rfl, rfl⟩
  | _ => cases ch <;> cases hx <;> exact ⟨rfl, rfl⟩

theorem Served.joined {l : List (RegistryCall × Except FError Uuid)} {r : Registry} (h : Served l r)
    {name : String} {p : Uuid} (hp : r.inner.hypervisors name = some p) :
    Ask.join p ∈ asks l := by
  have hback : ∀ (c : RegistryCall) (f : Faults) (r : Registry),
      (c.serve f r).2.slot (.hypervisor name) = some p →
      r.slot (.hypervisor name) = some p ∨ Ask.of c = .join p := by
    intro c f r hslot
    cases c with
    | register p' kind =>
      rcases register_cases r f p' kind with ⟨e, he⟩ | ⟨r₁, info, -, -, rfl, rfl, hset, he⟩
      · rw [RegistryCall.serve, he] at hslot
        exact Or.inl hslot
      · rw [RegistryCall.serve, he, slot_addPlugin, hset] at hslot
        split at hslot
        · exact Or.inr (congrArg Ask.join (Option.some.inj hslot))
        · exact Or.inl hslot
    | unregister p' =>
      rcases unregister_cases r f p' with ⟨e, he⟩ | ⟨r₁, info, -, -, -, hset, he⟩
      · rw [RegistryCall.serve, he] at hslot
        exact Or.inl hslot
      · rw [RegistryCall.serve, he, slot_removePlugin, hset] at hslot
        split at hslot
        · cases hslot
        · exact Or.inl hslot
  induction h with
  | new => cases hp
  | @call l r c f _ ih =>
    rw [asks_append]
    rcases hback c f r hp with hold | hc
    · exact List.mem_append_left _ (ih hold)
    · exact List.mem_append_right _ (by simp [hc])

section Pools

variable {w w' : Threads} {qs : List Entry} {i j n n' : ℕ} {p : Uuid} {l : Lock} {m : Mode}
  {q : Entry} {c : Call}

theorem stuck_cases (hi : i < w.threads.length) (h : Stuck w i) :
    (∃ l m, w.upcoming i = some (.lock l m) ∧ (w.state.locks l).acquire m = none) ∨
      (∃ n, w.upcoming i = some (.reply n) ∧ n ∉ w.state.replies.map Prod.fst) ∨
      ∃ p, w.upcoming i = some (.recv p) ∧ w.state.stopping p = false := by
  obtain ⟨⟨x, b⟩, hx⟩ : ∃ t, w.threads[i]? = some t := ⟨_, List.getElem?_eq_getElem hi⟩
  have hgo : ∀ n e, w.upcoming i = some (.reply n) → Chance.go ≠ .fault e := fun _ _ _ h => by cases h
  cases b with
  | ret a => have hs := h .go hgo; simp [Machine.step, hx] at hs
  | err e => have hs := h .go hgo; simp [Machine.step, hx] at hs
  | call y k => have hs := h .go hgo; simp [Machine.step, hx] at hs
  | act c k =>
    have hup : w.upcoming i = some c := Pool.upcoming_eq_some.2 ⟨x, k, hx⟩
    by_contra hnot
    push Not at hnot
    obtain ⟨hlock, hreply, hrecv⟩ := hnot
    obtain ⟨ch, r, s', hexec, hch⟩ := exec_ready c w.state (fun l m hc => hlock l m (hc ▸ hup))
      (fun n hc => hreply n (hc ▸ hup)) fun p hc => by simpa using hrecv p (hc ▸ hup)
    have hs := h ch fun n e hn => hch n e (Option.some.inj (hup.symm.trans hn))
    have hexec' : machine.exec c ch w.state = some (r, s') := hexec
    simp [Machine.step, hx, hexec'] at hs

theorem stuck_of_refused (hup : w.upcoming i = some (.lock l m))
    (hl : (w.state.locks l).acquire m = none) : Stuck w i := by
  intro ch _
  cases hs : machine.step (.fire i ch) w with
  | none => rfl
  | some w' =>
    obtain ⟨x, k, r, s, -, hx, -⟩ := (Machine.step_cases hs).of_upcoming hup
    have hx : exec (.lock l m) ch w.state = some (r, s) := hx
    cases ch with
    | go =>
      simp only [exec, hl, Option.map_none] at hx
      cases hx
    | _ => cases hx

theorem stuck_of_unanswered (hup : w.upcoming i = some (.reply n))
    (hn : n ∉ w.state.replies.map Prod.fst) : Stuck w i := by
  intro ch hch
  cases hs : machine.step (.fire i ch) w with
  | none => rfl
  | some w' =>
    obtain ⟨x, k, r, s, -, hx, -⟩ := (Machine.step_cases hs).of_upcoming hup
    have hx : exec (.reply n) ch w.state = some (r, s) := hx
    cases ch with
    | go =>
      obtain ⟨a, ha, -⟩ := Option.map_eq_some_iff.1 hx
      have hfst : a.1 = n := by simpa using List.find?_some ha
      exact absurd (List.mem_map.2 ⟨a, List.mem_of_find?_eq_some ha, hfst⟩) hn
    | fault e => exact absurd rfl (hch n e hup)
    | _ => cases hx

variable (hqs : w.Ledger guards (fun _ _ q => q.Over) (fun p q => q.role = p.role) qs)
  (h : Orderly qs w.state)
include hqs h

theorem waits_of_guard (hall : ∀ i, w.role i ≠ some .task → Stuck w i) (hi : qs[i]? = some q)
    (hq : q.guard ≠ none) : ∃ n, w.upcoming i = some (.reply n) ∧
      n ∉ w.state.replies.map Prod.fst ∧ q.Allows (.reply n) := by
  obtain ⟨hlt, hrole⟩ := role_of_entry hqs hi
  have htask : w.role i ≠ some .task := fun ht => by
    rw [hrole] at ht
    exact hq (h.tasks q (List.mem_of_getElem? hi) (Option.some.inj ht))
  have hentry : ∀ {c}, w.upcoming i = some c → q.Allows c := fun hup => by
    obtain ⟨q', hq', hallows, -⟩ := entry_of_upcoming hqs hup
    rwa [Option.some.inj (hi.symm.trans hq')]
  rcases stuck_cases hlt (hall i htask) with ⟨l, m, hup, -⟩ | ⟨n, hup, hn⟩ | ⟨p, hup, -⟩
  · exact absurd (hentry hup).unguarded hq
  · exact ⟨n, hup, hn, hentry hup⟩
  · exact absurd (hentry hup).1 hq

theorem server_waits (hall : ∀ i, w.role i ≠ some .task → Stuck w i) (htasks : w.state.tasks = [])
    (hc : w.state.sent[n]? = some c) (hn : n ∉ w.state.replies.map Prod.fst) :
    ∃ i l m, w.role i = some (.server n c) ∧ w.upcoming i = some (.lock l m) ∧
      (w.state.locks l).acquire m = none ∧
      ((l = .agent ∧ m = .write ∧ ∃ r, c = .registry r) ∨
        ∃ p, l = .plugin p ∧ m = .write ∧ c = .transition p) := by
  have hdelivery := h.mail.delivery n
  rw [if_pos (List.getElem?_eq_some_iff.1 hc).1, htasks, List.count_eq_zero.2 hn] at hdelivery
  have hpos : 0 < (qs.map Entry.serving).count (some n) := by
    simp only [List.map_nil, List.count_nil] at hdelivery
    omega
  obtain ⟨q, hq, hserving⟩ := List.mem_map.1 (List.count_pos_iff.1 hpos)
  obtain ⟨c', hrole, -⟩ := Entry.role_of_serving hserving
  obtain rfl := Option.some.inj ((h.mail.servers q hq n c' hrole).symm.trans hc)
  obtain ⟨i, hi⟩ := List.getElem?_of_mem hq
  obtain ⟨hlt, hrole'⟩ := role_of_entry hqs hi
  rw [hrole] at hrole'
  have hstuck := hall i fun ht => by rw [ht] at hrole'; cases hrole'
  have hentry : ∀ {c}, w.upcoming i = some c → q.Allows c := fun hup => by
    obtain ⟨q', hq', hallows, -⟩ := entry_of_upcoming hqs hup
    rwa [Option.some.inj (hi.symm.trans hq')]
  rcases stuck_cases hlt hstuck with ⟨l, m, hup, hl⟩ | ⟨n', hup, -⟩ | ⟨p, hup, -⟩
  · refine ⟨i, l, m, hrole', hup, hl, ?_⟩
    have hallows := hentry hup
    cases l with
    | agent =>
      cases m with
      | read =>
        have hcaller : q.role = .caller := hallows.2
        rw [hrole] at hcaller
        cases hcaller
      | write =>
        obtain ⟨-, -, n', r, hr⟩ := hallows
        rw [hrole] at hr
        exact Or.inl ⟨rfl, rfl, r, (Role.server.inj hr).2⟩
    | plugin p =>
      cases m with
      | read =>
        obtain ⟨-, kind, hr⟩ := hallows
        rw [hrole] at hr
        cases hr
      | write =>
        obtain ⟨-, ⟨n', hr, -⟩ | ⟨kind, hr⟩⟩ := hallows <;> rw [hrole] at hr
        · exact Or.inr ⟨p, rfl, rfl, (Role.server.inj hr).2⟩
        · cases hr
  · rcases hentry hup with ⟨hr, -⟩ | ⟨kind, p, hr, -⟩ <;> rw [hrole] at hr <;> cases hr
  · obtain ⟨-, ⟨kind, hr⟩, -⟩ := hentry hup
    rw [hrole] at hr
    cases hr

theorem not_joining {name : String} {kind : PluginKind} (hi : qs[i]? = some q)
    (hguard : q.guard = some (.agent, .read)) (hname : q.now.inner.hypervisors name = some p)
    (hrole : w.role j = some (.server n (.registry (.register p kind))))
    (hup : w.upcoming j = some (.lock .agent .write)) : False := by
  obtain ⟨-, hserved, hread⟩ := h.books.seen q (List.mem_of_getElem? hi) _ hguard
  rw [hread rfl] at hserved
  have hjoined : 0 < (asks w.state.served).count (.join p) :=
    List.count_pos_iff.2 (hserved.joined hname)
  obtain ⟨q', hq', ⟨-, hstage, -⟩, hrole'⟩ := entry_of_upcoming hqs hup
  have hpending : q'.pending = some (.join p) := by
    rw [hrole] at hrole'
    rw [Entry.pending, ← Option.some.inj hrole', hstage]
    rfl
  have hwaiting : 0 < (qs.map Entry.pending).count (some (.join p)) :=
    List.count_pos_iff.2 (List.mem_map.2 ⟨q', List.mem_of_getElem? hq', hpending⟩)
  have hbalance := h.mail.balance (.join p)
  have honce := h.standing.once (.join p)
  omega

/-- A call that waits for its reply waits for a plugin that waits to be unregistered. -/
theorem crossed_of_call (hall : ∀ i, w.role i ≠ some .task → Stuck w i) (htasks : w.state.tasks = [])
    (hi : qs[i]? = some q) (hrole : q.role = .caller) (hup : w.upcoming i = some (.reply n))
    (hn : n ∉ w.state.replies.map Prod.fst) : ∃ p n', Crossed w p n n' := by
  have hrole' : w.role i = some .caller := hrole ▸ (role_of_entry hqs hi).2
  obtain ⟨q', hq', hallows, -⟩ := entry_of_upcoming hqs hup
  obtain rfl := Option.some.inj (hi.symm.trans hq')
  rcases hallows with ⟨-, hguard, p, hawaits, name, hname⟩ | ⟨kind, p, hplugin, -⟩
  · have hsent := h.mail.awaits q (List.mem_of_getElem? hi) n _ hawaits
    obtain ⟨k, l, m, hserver, hlock, hl, hcase⟩ := server_waits hqs h hall htasks hsent hn
    obtain ⟨rfl, rfl⟩ : l = .plugin p ∧ m = .write := by
      rcases hcase with ⟨-, -, r, hr⟩ | ⟨p', rfl, rfl, hp⟩
      · cases hr
      · cases hp
        exact ⟨rfl, rfl⟩
    -- the guard of the plugin is the plugin's own
    obtain ⟨j, q₁, m', hj, hguard₁⟩ := h.custody.waits hl
    obtain ⟨n', hup₁, hn', hallows₁⟩ := waits_of_guard hqs h hall hj fun hnone => by
      rw [hguard₁] at hnone
      cases hnone
    have hrole₁ := (role_of_entry hqs hj).2
    rcases hallows₁ with ⟨-, hagent, -⟩ | ⟨kind, p', hplugin, hown, hask⟩
    · rw [hguard₁] at hagent
      cases hagent
    · obtain rfl : p = p' := by
        rw [hguard₁] at hown
        cases hown
        rfl
      rw [hplugin] at hrole₁
      obtain ⟨r, hawaits₁, hr⟩ : ∃ r, q₁.awaits = some (n', .registry r) ∧
          (r = .register p kind ∨ r = .unregister p) := by
        rcases hask with ⟨ha, -⟩ | ⟨ha, -⟩
        · exact ⟨_, ha, Or.inl rfl⟩
        · exact ⟨_, ha, Or.inr rfl⟩
      have hsent₁ := h.mail.awaits q₁ (List.mem_of_getElem? hj) n' _ hawaits₁
      obtain ⟨k', l, m, hserver', hlock', -, hcase⟩ := server_waits hqs h hall htasks hsent₁ hn'
      obtain ⟨rfl, rfl⟩ : l = .agent ∧ m = .write := by
        rcases hcase with ⟨rfl, rfl, -⟩ | ⟨p', -, -, hp⟩
        · exact ⟨rfl, rfl⟩
        · cases hp
      rcases hr with rfl | rfl
      · exact (not_joining hqs h hi hguard hname hserver' hlock').elim
      · exact ⟨p, n', ⟨i, hrole', hup⟩, ⟨k, hserver, hlock⟩, ⟨j, kind, hrole₁, hup₁⟩,
          ⟨k', hserver', hlock'⟩⟩
  · rw [hrole] at hplugin
    cases hplugin

theorem crossed_of_agent (hall : ∀ i, w.role i ≠ some .task → Stuck w i) (htasks : w.state.tasks = [])
    (hl : (w.state.locks .agent).acquire m = none) : ∃ p n n', Crossed w p n n' := by
  obtain ⟨j, q, m', hj, hguard⟩ := h.custody.waits hl
  obtain ⟨n, hup, hn, hallows⟩ := waits_of_guard hqs h hall hj fun hnone => by
    rw [hguard] at hnone
    cases hnone
  rcases hallows with ⟨hrole, -⟩ | ⟨kind, p, -, hplugin, -⟩
  · obtain ⟨p, n', hcrossed⟩ := crossed_of_call hqs h hall htasks hj hrole hup hn
    exact ⟨p, n, n', hcrossed⟩
  · rw [hguard] at hplugin
    cases hplugin

theorem crossed_of_reply (hall : ∀ i, w.role i ≠ some .task → Stuck w i) (htasks : w.state.tasks = [])
    (hup : w.upcoming i = some (.reply n)) (hn : n ∉ w.state.replies.map Prod.fst) :
    ∃ p n n', Crossed w p n n' := by
  obtain ⟨q, hq, hallows, -⟩ := entry_of_upcoming hqs hup
  rcases hallows with ⟨hrole, -⟩ | ⟨kind, p, -, -, hask⟩
  · obtain ⟨p, n', hcrossed⟩ := crossed_of_call hqs h hall htasks hq hrole hup hn
    exact ⟨p, n, n', hcrossed⟩
  · obtain ⟨r, hawaits⟩ : ∃ r, q.awaits = some (n, .registry r) := by
      rcases hask with ⟨ha, -⟩ | ⟨ha, -⟩ <;> exact ⟨_, ha⟩
    have hsent := h.mail.awaits q (List.mem_of_getElem? hq) n _ hawaits
    obtain ⟨k, l, m, -, -, hl, ⟨rfl, rfl, -⟩ | ⟨p', -, -, hp⟩⟩ :=
      server_waits hqs h hall htasks hsent hn
    · exact crossed_of_agent hqs h hall htasks hl
    · cases hp

/-- Where nothing goes on, one waits to be told to stop, or two wait for each other. -/
theorem crossed_of_stuck (hall : ∀ i, w.role i ≠ some .task → Stuck w i) (htasks : w.state.tasks = [])
    (hi : i < w.threads.length) (htask : w.role i ≠ some .task) :
    (∃ p n n', Crossed w p n n') ∨
      ∃ p, w.upcoming i = some (.recv p) ∧ w.state.stopping p = false := by
  rcases stuck_cases hi (hall i htask) with ⟨l, m, hup, hl⟩ | ⟨n, hup, hn⟩ | hrecv
  · obtain ⟨j, q, m', hj, hguard⟩ := h.custody.waits hl
    obtain ⟨n, hup', hn, -⟩ := waits_of_guard hqs h hall hj fun hnone => by
      rw [hguard] at hnone
      cases hnone
    exact Or.inl (crossed_of_reply hqs h hall htasks hup' hn)
  · exact Or.inl (crossed_of_reply hqs h hall htasks hup hn)
  · exact Or.inr hrecv

theorem unanswered (hrole : w.role i = some (.server n c)) (hup : w.upcoming i = some (.lock l .write)) :
    w.state.sent[n]? = some c ∧ n ∉ w.state.replies.map Prod.fst := by
  obtain ⟨q, hq, hallows, hrole'⟩ := entry_of_upcoming hqs hup
  have hmem := List.mem_of_getElem? hq
  have hserver : q.role = .server n c := (Option.some.inj (hrole.symm.trans hrole')).symm
  have hstage : q.stage = .begun := by
    cases l with
    | agent => exact hallows.2.1
    | plugin p =>
      obtain ⟨-, ⟨-, -, hstage⟩ | ⟨kind, hr⟩⟩ := hallows
      · exact hstage
      · rw [hserver] at hr
        cases hr
  have hsent := h.mail.servers q hmem n c hserver
  refine ⟨hsent, List.count_eq_zero.1 ?_⟩
  have hserving := Entry.serving_of_server hserver fun hr => by rw [hstage] at hr; cases hr
  have hpos : 0 < (qs.map Entry.serving).count (some n) :=
    List.count_pos_iff.2 (List.mem_map.2 ⟨q, hmem, hserving⟩)
  have hdelivery := h.mail.delivery n
  rw [if_pos (List.getElem?_eq_some_iff.1 hsent).1] at hdelivery
  omega

theorem Crossed.holding (hc : Crossed w p n n') :
    (∃ (i : ℕ) (q : Entry), qs[i]? = some q ∧ q.guard = some (.agent, .read)) ∧
      (∃ (j : ℕ) (q : Entry), qs[j]? = some q ∧ q.guard = some (.plugin p, .read)) ∧
      w.state.stopping p = true := by
  obtain ⟨i, hrole, hup⟩ := hc.call
  obtain ⟨j, kind, hrole₁, hup₁⟩ := hc.plugin
  obtain ⟨k, hrole₂, hup₂⟩ := hc.leaves
  obtain ⟨q, hq, hallows, hrole'⟩ := entry_of_upcoming hqs hup
  obtain ⟨q₁, hq₁, hallows₁, hrole₁'⟩ := entry_of_upcoming hqs hup₁
  have hcaller := Option.some.inj (hrole.symm.trans hrole')
  have hplugin := Option.some.inj (hrole₁.symm.trans hrole₁')
  refine ⟨⟨i, q, hq, ?_⟩, ?_⟩
  · rcases hallows with ⟨-, hguard, -⟩ | ⟨kind, p, hr, -⟩
    · exact hguard
    · rw [← hcaller] at hr
      cases hr
  · rcases hallows₁ with ⟨hr, -⟩ | ⟨kind', p', hr, hguard, hask⟩
    · rw [← hplugin] at hr
      cases hr
    · rw [← hplugin] at hr
      obtain ⟨rfl, rfl⟩ := Role.plugin.inj hr
      refine ⟨⟨j, q₁, hq₁, hguard⟩, ?_⟩
      have hmem := List.mem_of_getElem? hq₁
      have hsent := (unanswered hqs h hrole₂ hup₂).1
      rcases hask with ⟨hawaits, -⟩ | ⟨-, hstage⟩
      · rw [h.mail.awaits q₁ hmem n' _ hawaits] at hsent
        cases hsent
      · exact (h.standing.stands q₁ hmem kind p hplugin.symm).told (Or.inr hstage)

theorem found_again {lab : Label Proc Chance Uuid} (hbegins : Begins lab w)
    (hs : machine.step lab w = some w') {c : Op} (hup : w.upcoming i = some c)
    (hne : ∀ ch, lab ≠ .fire i ch) :
    w'.role (lab.place w w' i) = w.role i ∧ w'.upcoming (lab.place w w' i) = some c := by
  obtain ⟨qs', -, -, hkeep⟩ := hqs.step orderly hbegins h (Machine.step_cases hs)
  obtain ⟨x, k, hx⟩ := Pool.upcoming_eq_some.1 hup
  have hsame := (hkeep i hne (List.getElem?_eq_some_iff.1 hx).1).2
  refine ⟨?_, ?_⟩
  · rw [Threads.role, hsame]
    rfl
  · rw [Pool.upcoming, hsame]
    exact hup

theorem registry_of_reader (hi : qs[i]? = some q) (hguard : q.guard = some (.agent, .read))
    {lab : Label Proc Chance Uuid} (hs : machine.step lab w = some w') :
    w'.state.registry = w.state.registry ∧ w'.state.served = w.state.served := by
  cases Machine.step_cases hs with
  | start => exact ⟨rfl, rfl⟩
  | launch hl =>
    change launch w.state = some _ at hl
    unfold launch at hl
    split at hl
    · cases hl
    · cases hl; exact ⟨rfl, rfl⟩
  | env hm => cases hm; exact ⟨rfl, rfl⟩
  | @act _ k ch x c f r s hk hx =>
    obtain ⟨q', hq', hallows, -⟩ := entry_of_upcoming hqs (Pool.upcoming_eq_some.2 ⟨x, f, hk⟩)
    refine exec_keeps hallows (fun hwrite => ?_) hx
    by_cases hik : i = k
    · subst hik
      rw [← Option.some.inj (hi.symm.trans hq'), hguard] at hwrite
      cases hwrite
    · exact h.custody.alone hq' hwrite hik hi hguard
  | call => exact ⟨rfl, rfl⟩
  | done => exact ⟨rfl, rfl⟩

/-- While both replies are waited for, nothing changes for the two, and nothing is registered. -/
theorem Crossed.step (hc : Crossed w p n n') {lab : Label Proc Chance Uuid}
    (hpatient : Patient n n' lab w) (hs : machine.step lab w = some w') :
    Crossed w' p n n' ∧ w'.state.registry = w.state.registry ∧ w'.state.served = w.state.served := by
  obtain ⟨⟨i, q, hq, hguard⟩, ⟨j, q₁, hq₁, hguard₁⟩, -⟩ := hc.holding hqs h
  -- none of the four threads is the one that moves
  have hlocked : ∀ {i l}, w.upcoming i = some (.lock l .write) →
      (w.state.locks l).acquire .write = none → ∀ ch, lab ≠ .fire i ch := by
    intro i l hup hl ch hlab
    have hnone := stuck_of_refused hup hl ch fun n e hn => by rw [hup] at hn; cases hn
    rw [hlab, hnone] at hs
    cases hs
  have hwaiting : ∀ {i m}, w.upcoming i = some (.reply m) → m ∉ w.state.replies.map Prod.fst →
      m = n ∨ m = n' → ∀ ch, lab ≠ .fire i ch := by
    intro i m hup hm hmn ch hlab
    have hnone := stuck_of_unanswered hup hm ch fun n₁ e hn₁ hch => by
      obtain ⟨hne, hne'⟩ := hpatient.2 i e (hch ▸ hlab)
      rcases hmn with rfl | rfl
      · exact hne hup
      · exact hne' hup
    rw [hlab, hnone] at hs
    cases hs
  obtain ⟨i₁, hrole, hup⟩ := hc.call
  obtain ⟨i₂, hrole₂, hup₂⟩ := hc.enters
  obtain ⟨i₃, kind, hrole₃, hup₃⟩ := hc.plugin
  obtain ⟨i₄, hrole₄, hup₄⟩ := hc.leaves
  have hown := h.custody.refuses (m := .write) hq₁ hguard₁ (Or.inl rfl)
  have hagent := h.custody.refuses (m := .write) hq hguard (Or.inl rfl)
  have hn := (unanswered hqs h hrole₂ hup₂).2
  have hn' := (unanswered hqs h hrole₄ hup₄).2
  obtain ⟨hr, hu⟩ := found_again hqs h hpatient.1 hs hup (hwaiting hup hn (Or.inl rfl))
  obtain ⟨hr₂, hu₂⟩ := found_again hqs h hpatient.1 hs hup₂ (hlocked hup₂ hown)
  obtain ⟨hr₃, hu₃⟩ := found_again hqs h hpatient.1 hs hup₃ (hwaiting hup₃ hn' (Or.inr rfl))
  obtain ⟨hr₄, hu₄⟩ := found_again hqs h hpatient.1 hs hup₄ (hlocked hup₄ hagent)
  exact ⟨⟨⟨_, hr.trans hrole, hu⟩, ⟨_, hr₂.trans hrole₂, hu₂⟩, ⟨_, kind, hr₃.trans hrole₃, hu₃⟩,
    ⟨_, hr₄.trans hrole₄, hu₄⟩⟩, registry_of_reader hqs h hq hguard hs⟩

end Pools

section Runs

variable {w w' : Threads} {p : Uuid} {n n' : ℕ}

theorem Crossed.reach (hreach : machine.Reach Begins (Pool.idle Node.new) w) (hc : Crossed w p n n')
    (hw : machine.Reach (Patient n n') w w') : Crossed w' p n n' ∧
      w'.state.registry = w.state.registry ∧ w'.state.served = w.state.served := by
  induction hw with
  | refl => exact ⟨hc, rfl, rfl⟩
  | snoc hv hpatient hs ih =>
    obtain ⟨hc', hr, hserved⟩ := ih
    obtain ⟨qs, hqs, h⟩ := orderly_of_reach (hreach.trans (hv.mono fun _ _ h => h.1))
    obtain ⟨hc'', hr', hserved'⟩ := hc'.step hqs h hpatient hs
    exact ⟨hc'', hr'.trans hr, hserved'.trans hserved⟩

/-- Over every run: where no call, plugin or server goes on any more, unless one gives up a reply,
they all wait to be told to stop, or a call and the plugin it goes to wait for each other. It
comes to that only when the plugin has been told to stop, and it stays so as long as both replies
are waited for: nothing is registered or unregistered meanwhile. -/
theorem halts_crossed (hreach : machine.Reach Begins (Pool.idle Node.new) w) :
    (machine.step .launch w = none → (∀ i, w.role i ≠ some .task → Stuck w i) →
      (∃ p n n', Crossed w p n n') ∨ ∀ i < w.threads.length, w.role i ≠ some .task →
        ∃ p, w.upcoming i = some (.recv p) ∧ w.state.stopping p = false) ∧
    ∀ p n n', Crossed w p n n' → w.state.stopping p = true ∧
      ∀ w', machine.Reach (Patient n n') w w' → Crossed w' p n n' ∧
        w'.state.registry = w.state.registry ∧ w'.state.served = w.state.served := by
  obtain ⟨qs, hqs, h⟩ := orderly_of_reach hreach
  refine ⟨fun hlaunch hall => ?_, fun p n n' hc => ⟨(hc.holding hqs h).2.2, fun w' hw' =>
    hc.reach hreach hw'⟩⟩
  have htasks : w.state.tasks = [] := by
    cases ht : w.state.tasks with
    | nil => rfl
    | cons x tasks =>
      have hlaunch' : machine.launch w.state = none := by
        simpa [Machine.step] using hlaunch
      change launch w.state = none at hlaunch'
      rw [launch, ht] at hlaunch'
      cases hlaunch'
  by_cases hcrossed : ∃ p n n', Crossed w p n n'
  · exact Or.inl hcrossed
  · exact Or.inr fun i hi htask =>
      (crossed_of_stuck hqs h hall htasks hi htask).resolve_left hcrossed

/-- An instance is started while the plugin of its hypervisor is stopped. -/
theorem halts_crossed_move : ∃ w : Threads, machine.Reach Begins (Pool.idle Node.new) w ∧
    Crossed w 7 1 2 ∧ w.state.stopping 7 = true ∧
    ∀ w', machine.Reach (Patient 1 2) w w' → Crossed w' 7 1 2 := by
  have hrun : (play (joins 7 ++ [.start (.move "dummy")] ++ fires 1 6 ++ [.launch] ++ fires 2 1 ++
      [.env 7] ++ fires 0 4 ++ [.launch])).any (fun w =>
        w.role 1 == some .caller && (w.upcoming 1).bind Op.waits == some 1 &&
        w.role 2 == some (.server 1 (.transition 7)) &&
        (w.upcoming 2).bind Op.takes == some (.plugin 7, .write) &&
        w.role 0 == some (.plugin (.hypervisor "dummy") 7) &&
        (w.upcoming 0).bind Op.waits == some 2 &&
        w.role 3 == some (.server 2 (.registry (.unregister 7))) &&
        (w.upcoming 3).bind Op.takes == some (.agent, .write)) = true := by
    decide +kernel
  obtain ⟨w, hw, hend⟩ := (Option.any_eq_true _ _).1 hrun
  simp only [Bool.and_eq_true, beq_iff_eq] at hend
  obtain ⟨⟨⟨⟨⟨⟨⟨hcall, hwaits⟩, henters⟩, htakes⟩, hplugin⟩, hwaits'⟩, hleaves⟩, htakes'⟩ := hend
  have hc : Crossed w 7 1 2 := {
    call := ⟨1, hcall, upcoming_of_bind (fun _ _ => Op.eq_of_waits) hwaits⟩
    enters := ⟨2, henters, upcoming_of_bind (fun _ _ => Op.eq_of_takes) htakes⟩
    plugin := ⟨0, _, hplugin, upcoming_of_bind (fun _ _ => Op.eq_of_waits) hwaits'⟩
    leaves := ⟨3, hleaves, upcoming_of_bind (fun _ _ => Op.eq_of_takes) htakes'⟩ }
  obtain ⟨hstop, hlasts⟩ := (halts_crossed (reach_of_play hw)).2 7 1 2 hc
  exact ⟨w, reach_of_play hw, hc, hstop, fun w' hw' => (hlasts w' hw').1⟩

end Runs

end Fog05.Processes
