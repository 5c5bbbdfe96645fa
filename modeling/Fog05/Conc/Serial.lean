import Fog05.Conc.Ledger
import Mathlib.Data.Fintype.EquivFin
import Mathlib.Data.List.Induction
import Mathlib.Data.List.InsertIdx

/-! Calls that are served at the same time and never issue commands that conflict: their
outcomes and what they leave are those of serving them one at a time, in the order in which
they end. Each call is moved, event by event, in front of the calls still under way. -/

namespace Conc

variable {C P : Type} {R : C → Type} {A : P → Type} {ε Ch E S α : Type}

/-- A command that has been executed, with what resolved it and what it answered. -/
structure Event {C : Type} (R : C → Type) (Ch : Type) where
  cmd : C
  choice : Ch
  answer : R cmd

/-- The commands that each thread has issued, after one more step. -/
def Label.logged (w : Pool R A ε S) (logs : List (List C)) : Label P Ch E → List (List C)
  | .start _ | .launch => logs ++ [[]]
  | .env _ => logs
  | .fire i _ =>
      match w.threads[i]? with
      | some ⟨_, .act c _⟩ => logs.modify i (· ++ [c])
      | some ⟨_, .ret _⟩ | some ⟨_, .err _⟩ => logs.eraseIdx i
      | _ => logs

namespace Machine

variable (M : Machine R A ε Ch E S)

/-- The events can happen in this order, and lead from `s` to `s'`. -/
def Plays : List (Event R Ch) → S → S → Prop
  | [], s, s' => s' = s
  | x :: l, s, s' => ∃ s₁, M.exec x.cmd x.choice s = some (x.answer, s₁) ∧ Plays l s₁ s'

/-- Commands do the same to states that are the same to them, and two that do not conflict
do the same in either order; nothing happens but what calls do. -/
structure Commuting (conflict : C → C → Prop) (same : S → S → Prop) : Prop where
  equiv : Equivalence same
  exec : ∀ {s t s' c ch r}, same s t → M.exec c ch s = some (r, s') →
    ∃ t', M.exec c ch t = some (r, t') ∧ same s' t'
  swap : ∀ {s s₁ s₂ c c' ch ch' r r'}, ¬ conflict c c' → M.exec c ch s = some (r, s₁) →
    M.exec c' ch' s₁ = some (r', s₂) → ∃ t₁ t₂, M.exec c' ch' s = some (r', t₁) ∧
      M.exec c ch t₁ = some (r, t₂) ∧ same s₂ t₂
  move : ∀ e s, M.move e s = none
  launch : ∀ s, M.launch s = none

/-- Runs, with the commands that the calls under way have issued, in which no command
conflicts with one that another of these calls has issued. -/
inductive Apart (conflict : C → C → Prop) (ok : Ch → Prop) (s₀ : S) :
    Pool R A ε S → List (List C) → Prop
  | idle : Apart conflict ok s₀ (Pool.idle s₀) []
  | step {w w' logs l} : Apart conflict ok s₀ w logs →
      (∀ i ch, l = .fire i ch → ok ch ∧ ∀ c, w.upcoming i = some c →
        ∀ j cs, j ≠ i → logs[j]? = some cs → ∀ c' ∈ cs, ¬ conflict c' c) →
      M.step l w = some w' → Apart conflict ok s₀ w' (l.logged w logs)

/-- The calls, made one after the other, can have these outcomes and lead from `s` to `s'`. -/
inductive Serves (ok : Ch → Prop) (s : S) : List ((p : P) × Except ε (A p)) → S → Prop
  | nil : Serves ok s [] s
  | snoc {l s₁ s' p o} : Serves ok s l s₁ → (M.system ok).Ends (M.body p) s₁ o s' →
      Serves ok s (l ++ [⟨p, o⟩]) s'

/-- The events take a program to what is left of it. -/
inductive After (ok : Ch → Prop) (p : Prog R A ε α) : List (Event R Ch) → Prog R A ε α → Prop
  | nil : After ok p [] p
  | act {l c k ch r} : After ok p l (.act c k) → ok ch → After ok p (l ++ [⟨c, ch, r⟩]) (k r)
  | call {l q k} : After ok p l (.call q k) → After ok p l ((M.body q).bindE k)

variable {M}

theorem plays_append {l l' : List (Event R Ch)} {s s' : S} :
    M.Plays (l ++ l') s s' ↔ ∃ s₁, M.Plays l s s₁ ∧ M.Plays l' s₁ s' := by
  induction l generalizing s with
  | nil => simp [Plays]
  | cons x l ih =>
    simp only [List.cons_append, Plays, ih]
    constructor
    · rintro ⟨s₁, hx, s₂, hl, hl'⟩
      exact ⟨s₂, ⟨s₁, hx, hl⟩, hl'⟩
    · rintro ⟨s₂, ⟨s₁, hx, hl⟩, hl'⟩
      exact ⟨s₁, hx, s₂, hl, hl'⟩

theorem plays_singleton {x : Event R Ch} {s s' : S} :
    M.Plays [x] s s' ↔ M.exec x.cmd x.choice s = some (x.answer, s') := by
  constructor
  · rintro ⟨s₁, hx, rfl⟩
    exact hx
  · exact fun hx => ⟨s', hx, rfl⟩

theorem After.runs {ok : Ch → Prop} {p p' : Prog R A ε α} {l : List (Event R Ch)} {s s' : S}
    (h : M.After ok p l p') (hl : M.Plays l s s') : ∃ n, (M.system ok).Runs n s p s' p' := by
  induction h generalizing s' with
  | nil =>
    obtain rfl := hl
    exact ⟨0, .refl _ _⟩
  | act _ hok ih =>
    obtain ⟨s₁, hl, hx⟩ := plays_append.1 hl
    obtain ⟨n, hn⟩ := ih hl
    exact ⟨n + 1, hn.trans (.act ⟨_, hok, plays_singleton.1 hx⟩ (.refl _ _))⟩
  | call _ ih =>
    obtain ⟨n, hn⟩ := ih hl
    exact ⟨n + 1, hn.trans (.call (.refl _ _))⟩

namespace Commuting

variable {conflict : C → C → Prop} {same : S → S → Prop} {l : List (Event R Ch)} {s s' t : S}

theorem plays (hM : M.Commuting conflict same) (hst : same s t) (h : M.Plays l s s') :
    ∃ t', M.Plays l t t' ∧ same s' t' := by
  induction l generalizing s t with
  | nil =>
    obtain rfl := h
    exact ⟨t, rfl, hst⟩
  | cons x l ih =>
    obtain ⟨s₁, hx, hl⟩ := h
    obtain ⟨t₁, hx', hst₁⟩ := hM.exec hst hx
    obtain ⟨t', hl', hst'⟩ := ih hst₁ hl
    exact ⟨t', ⟨t₁, hx', hl'⟩, hst'⟩

theorem first (hM : M.Commuting conflict same) {x : Event R Ch}
    (hx : ∀ y ∈ l, ¬ conflict y.cmd x.cmd) (h : M.Plays (l ++ [x]) s s') :
    ∃ t, M.Plays (x :: l) s t ∧ same s' t := by
  induction l generalizing s with
  | nil => exact ⟨s', h, hM.equiv.refl _⟩
  | cons y l ih =>
    obtain ⟨s₁, hy, hl⟩ := h
    obtain ⟨t, ⟨s₂, hx', hl'⟩, ht⟩ := ih (fun z hz => hx z (List.mem_cons_of_mem _ hz)) hl
    obtain ⟨t₁, t₂, hx'', hy', ht₂⟩ := hM.swap (hx y List.mem_cons_self) hy hx'
    obtain ⟨t', hl'', ht'⟩ := hM.plays ht₂ hl'
    exact ⟨t', ⟨t₁, hx'', t₂, hy', hl''⟩, hM.equiv.trans ht ht'⟩

end Commuting

/-! ### Calls under way -/

def own (n : ℕ) (log : List (ℕ × Event R Ch)) : List (Event R Ch) :=
  (log.filter (·.1 = n)).map Prod.snd

def others (n : ℕ) (log : List (ℕ × Event R Ch)) : List (ℕ × Event R Ch) :=
  log.filter (·.1 ≠ n)

/-- Events of different calls do not conflict. -/
def Quiet (conflict : C → C → Prop) (log : List (ℕ × Event R Ch)) : Prop :=
  log.Pairwise fun x y => x.1 ≠ y.1 → ¬ conflict x.2.cmd y.2.cmd

/-- One call can be moved in front of the others. -/
theorem Commuting.parted {conflict : C → C → Prop} {same : S → S → Prop}
    (hM : M.Commuting conflict same) {log : List (ℕ × Event R Ch)} {s s' : S}
    (hlog : Quiet conflict log) (h : M.Plays (log.map Prod.snd) s s') (n : ℕ) :
    ∃ t, M.Plays (own n log ++ (others n log).map Prod.snd) s t ∧ same s' t := by
  induction log using List.reverseRecOn generalizing s' with
  | nil => exact ⟨s', h, hM.equiv.refl _⟩
  | append_singleton log x ih =>
    obtain ⟨hquiet, -, hx⟩ := List.pairwise_append.1 hlog
    rw [List.map_append] at h
    obtain ⟨s₁, hl, hlast⟩ := plays_append.1 h
    obtain ⟨t₁, ht₁, hsame⟩ := ih hquiet hl
    obtain ⟨t, hx', ht⟩ := hM.plays hsame hlast
    by_cases hn : x.1 = n
    · -- the last event is one of the call's, and moves across those of the others
      obtain ⟨t₂, hown, hothers⟩ := plays_append.1 ht₁
      have hacross : ∀ y ∈ (others n log).map Prod.snd, ¬ conflict y.cmd x.2.cmd := by
        intro y hy
        obtain ⟨z, hz, rfl⟩ := List.mem_map.1 hy
        obtain ⟨hz, hzn⟩ := List.mem_filter.1 hz
        exact hx z hz x (List.mem_singleton_self x) fun h => of_decide_eq_true hzn (h.trans hn)
      obtain ⟨t', hfirst, ht'⟩ := hM.first hacross (plays_append.2 ⟨t₁, hothers, hx'⟩)
      refine ⟨t', ?_, hM.equiv.trans ht ht'⟩
      have h₁ : own n (log ++ [x]) = own n log ++ [x.2] := by simp [own, hn]
      have h₂ : others n (log ++ [x]) = others n log := by simp [others, hn]
      rw [h₁, h₂, List.append_assoc]
      exact plays_append.2 ⟨t₂, hown, hfirst⟩
    · have h₁ : own n (log ++ [x]) = own n log := by simp [own, hn]
      have h₂ : others n (log ++ [x]) = others n log ++ [x] := by simp [others, hn]
      rw [h₁, h₂, List.map_append, ← List.append_assoc]
      exact ⟨t, plays_append.2 ⟨t₁, ht₁, hx'⟩, ht⟩

/-- A call under way, with the events that have taken it to what is left of it. -/
structure Underway {C P : Type} (R : C → Type) (A : P → Type) (ε Ch : Type) extends
    Thread R A ε where
  ticket : ℕ
  events : List (Event R Ch)

/-- The pool after the calls that are over, made one after the other, and the events of those
under way. -/
structure Ahead (M : Machine R A ε Ch E S) (conflict : C → C → Prop) (same : S → S → Prop)
    (ok : Ch → Prop) (s₀ : S) (w : Pool R A ε S) (logs : List (List C))
    (calls : List (Underway R A ε Ch)) (log : List (ℕ × Event R Ch)) (s₁ s : S) : Prop where
  serves : M.Serves ok s₀ w.done s₁
  plays : M.Plays (log.map Prod.snd) s₁ s
  state : same s w.state
  threads : w.threads = calls.map Underway.toThread
  logs : logs = calls.map fun u => u.events.map Event.cmd
  tickets : (calls.map Underway.ticket).Nodup
  known : ∀ x ∈ log, ∃ u ∈ calls, u.ticket = x.1
  owned : ∀ u ∈ calls, own u.ticket log = u.events ∧ M.After ok (M.body u.proc) u.events u.prog
  quiet : Quiet conflict log

theorem ticket_inj {calls : List (Underway R A ε Ch)} (h : (calls.map Underway.ticket).Nodup)
    {i j : ℕ} {u v : Underway R A ε Ch} (hu : calls[i]? = some u) (hv : calls[j]? = some v)
    (huv : u.ticket = v.ticket) : i = j := by
  refine (List.getElem?_inj ?_ h).1 ?_
  · rw [List.length_map]
    exact (List.getElem?_eq_some_iff.1 hu).1
  · simp [hu, hv, huv]

theorem own_eq_nil {n : ℕ} {log : List (ℕ × Event R Ch)} (h : ∀ x ∈ log, x.1 ≠ n) :
    own n log = [] := by
  simpa [own, List.filter_eq_nil_iff] using h

theorem own_others {n m : ℕ} (hnm : n ≠ m) (log : List (ℕ × Event R Ch)) :
    own n (others m log) = own n log := by
  rw [own, own, others, List.filter_filter]
  refine congrArg _ (List.filter_congr fun x _ => ?_)
  by_cases hx : x.1 = n
  · simp [hx, hnm]
  · simp [hx]

section Ahead

variable {conflict : C → C → Prop} {same : S → S → Prop} {ok : Ch → Prop} {s₀ s₁ s : S}
  {w w' : Pool R A ε S} {logs : List (List C)} {calls : List (Underway R A ε Ch)}
  {log : List (ℕ × Event R Ch)}

theorem Ahead.start (h : M.Ahead conflict same ok s₀ w logs calls log s₁ s) (p : P) {n : ℕ}
    (hn : n ∉ calls.map Underway.ticket) :
    M.Ahead conflict same ok s₀ { w with threads := w.threads ++ [⟨p, M.body p⟩] } (logs ++ [[]])
      (calls ++ [⟨⟨p, M.body p⟩, n, []⟩]) log s₁ s where
  serves := h.serves
  plays := h.plays
  state := h.state
  threads := by simp [h.threads]
  logs := by simp [h.logs]
  tickets := by
    rw [List.map_append, List.nodup_append]
    refine ⟨h.tickets, List.pairwise_singleton _ _, fun a ha b hb hab => ?_⟩
    rw [hab, List.mem_singleton.1 hb] at ha
    exact hn ha
  known x hx := by
    obtain ⟨u, hu, hux⟩ := h.known x hx
    exact ⟨u, List.mem_append_left _ hu, hux⟩
  owned u hu := by
    rcases List.mem_append.1 hu with hu | hu
    · exact h.owned u hu
    · rw [List.mem_singleton.1 hu]
      refine ⟨own_eq_nil fun x hx hxn => ?_, .nil⟩
      obtain ⟨v, hv, hvx⟩ := h.known x hx
      exact hn (List.mem_map.2 ⟨v, hv, hvx.trans hxn⟩)
  quiet := h.quiet

theorem Ahead.goOn (h : M.Ahead conflict same ok s₀ w logs calls log s₁ s) {i : ℕ}
    {u : Underway R A ε Ch} (hu : calls[i]? = some u) {b : Prog R A ε (A u.proc)}
    {xs : List (Event R Ch)} {s' t : S} (hplays : M.Plays xs s t) (hst : same t s')
    (hafter : M.After ok (M.body u.proc) (u.events ++ xs) b)
    (hquiet : ∀ j v, j ≠ i → calls[j]? = some v →
      ∀ y ∈ v.events, ∀ x ∈ xs, ¬ conflict y.cmd x.cmd) :
    M.Ahead conflict same ok s₀
      { w with state := s', threads := w.threads.set i ⟨u.proc, b⟩ }
      ((calls.set i ⟨⟨u.proc, b⟩, u.ticket, u.events ++ xs⟩).map fun v => v.events.map Event.cmd)
      (calls.set i ⟨⟨u.proc, b⟩, u.ticket, u.events ++ xs⟩) (log ++ xs.map (Prod.mk u.ticket))
      s₁ t where
  serves := h.serves
  plays := by
    rw [List.map_append, List.map_map]
    exact plays_append.2 ⟨s, h.plays, by simpa [Function.comp_def] using hplays⟩
  state := hst
  threads := by rw [h.threads, List.map_set]
  logs := rfl
  tickets := by
    rw [List.map_set, set_of_getElem? (by simp [hu])]
    exact h.tickets
  known x hx := by
    have hi := (List.getElem?_eq_some_iff.1 hu).1
    rcases List.mem_append.1 hx with hx | hx
    · obtain ⟨v, hv, hvx⟩ := h.known x hx
      obtain ⟨j, hj⟩ := List.getElem?_of_mem hv
      by_cases hij : j = i
      · subst hij
        refine ⟨_, List.mem_set hi _, ?_⟩
        rw [← hvx, Option.some.inj (hj.symm.trans hu)]
      · refine ⟨v, List.mem_of_getElem? (i := j) ?_, hvx⟩
        rw [List.getElem?_set_ne (Ne.symm hij), hj]
    · obtain ⟨y, -, rfl⟩ := List.mem_map.1 hx
      exact ⟨_, List.mem_set hi _, rfl⟩
  owned v hv := by
    have happend : ∀ n, own n (log ++ xs.map (Prod.mk u.ticket)) =
        own n log ++ own n (xs.map (Prod.mk u.ticket)) := fun n => by simp [own]
    rw [happend]
    rcases eq_or_of_mem_set hv with rfl | ⟨j, hij, hj⟩
    · refine ⟨?_, hafter⟩
      rw [(h.owned u (List.mem_of_getElem? hu)).1]
      simp [own, Function.comp_def, List.filter_eq_self.2]
    · obtain ⟨hown, hv⟩ := h.owned v (List.mem_of_getElem? hj)
      refine ⟨?_, hv⟩
      have hothers : own v.ticket (xs.map (Prod.mk u.ticket)) = [] := own_eq_nil fun x hx hxv => by
        obtain ⟨y, -, rfl⟩ := List.mem_map.1 hx
        exact hij (ticket_inj h.tickets hj hu hxv.symm)
      rw [hothers, List.append_nil, hown]
  quiet := by
    refine List.pairwise_append.2 ⟨h.quiet, ?_, fun y hy x hx hyx => ?_⟩
    · rw [List.pairwise_map]
      exact List.pairwise_of_forall fun _ _ hne => absurd rfl hne
    · obtain ⟨z, hz, rfl⟩ := List.mem_map.1 hx
      obtain ⟨v, hv, hvy⟩ := h.known y hy
      obtain ⟨j, hj⟩ := List.getElem?_of_mem hv
      refine hquiet j v (fun hij => ?_) hj y.2 ?_ z hz
      · subst hij
        exact hyx (by rw [← hvy, Option.some.inj (hj.symm.trans hu)])
      · rw [← (h.owned v hv).1]
        exact List.mem_map.2 ⟨y, List.mem_filter.2 ⟨hy, by simp [hvy]⟩, rfl⟩

theorem Ahead.over (hM : M.Commuting conflict same)
    (h : M.Ahead conflict same ok s₀ w logs calls log s₁ s) {i : ℕ} {u : Underway R A ε Ch}
    (hu : calls[i]? = some u) {o : Except ε (A u.proc)} (ho : u.prog = .final o) :
    ∃ s₁' s', M.Ahead conflict same ok s₀
      { w with threads := w.threads.eraseIdx i, done := w.done ++ [⟨u.proc, o⟩] }
      (logs.eraseIdx i) (calls.eraseIdx i) (others u.ticket log) s₁' s' := by
  obtain ⟨hown, hafter⟩ := h.owned u (List.mem_of_getElem? hu)
  obtain ⟨s', hplays, hs'⟩ := hM.parted h.quiet h.plays u.ticket
  obtain ⟨s₂, hfirst, hothers⟩ := plays_append.1 hplays
  rw [hown] at hfirst
  rw [ho] at hafter
  refine ⟨s₂, s', ?_⟩
  exact {
    serves := h.serves.snoc (hafter.runs hfirst)
    plays := hothers
    state := hM.equiv.trans (hM.equiv.symm hs') h.state
    threads := by rw [h.threads, List.eraseIdx_map]
    logs := by rw [h.logs, List.eraseIdx_map]
    tickets := by
      rw [← List.eraseIdx_map]
      exact h.tickets.sublist (List.eraseIdx_sublist _ _)
    known := fun x hx => by
      obtain ⟨hx, hxu⟩ := List.mem_filter.1 hx
      obtain ⟨v, hv, hvx⟩ := h.known x hx
      obtain ⟨j, hj⟩ := List.getElem?_of_mem hv
      refine ⟨v, List.mem_eraseIdx_iff_getElem?.2 ⟨j, fun hij => ?_, hj⟩, hvx⟩
      subst hij
      rw [← hvx, Option.some.inj (hj.symm.trans hu)] at hxu
      exact of_decide_eq_true hxu rfl
    owned := fun v hv => by
      obtain ⟨j, hij, hj⟩ := List.mem_eraseIdx_iff_getElem?.1 hv
      rw [own_others fun huv => hij (ticket_inj h.tickets hj hu huv)]
      exact h.owned v (List.mem_of_getElem? hj)
    quiet := h.quiet.filter _ }

theorem exists_not_mem (l : List ℕ) : ∃ n, n ∉ l := by
  obtain ⟨n, hn⟩ := Infinite.exists_notMem_finset l.toFinset
  exact ⟨n, by simpa using hn⟩

theorem modify_map {α β : Type} {f : α → β} {g : β → β} {l : List α} {i : ℕ} {a b : α}
    (ha : l[i]? = some a) (h : f b = g (f a)) : (l.map f).modify i g = (l.set i b).map f := by
  apply List.ext_getElem?
  intro j
  obtain ⟨hi, rfl⟩ := List.getElem?_eq_some_iff.1 ha
  by_cases hij : i = j
  · subst hij
    simp [h, hi]
  · simp [hij]

theorem Ahead.call_at (h : M.Ahead conflict same ok s₀ w logs calls log s₁ s) {i : ℕ}
    {t : Thread R A ε} (hi : w.threads[i]? = some t) :
    ∃ u, calls[i]? = some u ∧ u.toThread = t := by
  rw [h.threads, List.getElem?_map] at hi
  exact Option.map_eq_some_iff.1 hi

theorem Apart.ahead (hM : M.Commuting conflict same) (h : M.Apart conflict ok s₀ w logs) :
    ∃ calls log s₁ s, M.Ahead conflict same ok s₀ w logs calls log s₁ s := by
  induction h with
  | idle =>
    exact ⟨[], [], s₀, s₀, ⟨.nil, rfl, hM.equiv.refl _, rfl, rfl, .nil, by simp, by simp, .nil⟩⟩
  | @step w w' logs l _ hg hs ih =>
    obtain ⟨calls, log, s₁, s, ih⟩ := ih
    cases step_cases hs with
    | start =>
      obtain ⟨n, hn⟩ := exists_not_mem (calls.map Underway.ticket)
      exact ⟨_, _, _, _, ih.start _ hn⟩
    | launch hl => rw [hM.launch] at hl; cases hl
    | env he => rw [hM.move] at he; cases he
    | @act _ i ch p c k r s' hi hx =>
      obtain ⟨hok, hquiet⟩ := hg i ch rfl
      obtain ⟨⟨t, n, events⟩, hu, rfl⟩ := ih.call_at hi
      obtain ⟨t', ht, hst⟩ := hM.exec (hM.equiv.symm ih.state) hx
      have hlogs : (Label.fire i ch : Label P Ch E).logged w logs =
          (calls.set i ⟨⟨p, k r⟩, n, events ++ [⟨c, ch, r⟩]⟩).map
            fun v => v.events.map Event.cmd := by
        simp only [Label.logged, hi, ih.logs]
        exact modify_map hu (by simp)
      rw [hlogs]
      refine ⟨_, _, _, _, ih.goOn hu (plays_singleton.2 ht) (hM.equiv.symm hst)
        ((ih.owned _ (List.mem_of_getElem? hu)).2.act hok) fun j v hij hj y hy x hx => ?_⟩
      rw [List.mem_singleton.1 hx]
      refine hquiet c (by simp [Pool.upcoming, hi]) j _ hij ?_ y.cmd (List.mem_map_of_mem hy)
      rw [ih.logs, List.getElem?_map, hj]
      rfl
    | @call _ i ch p q k hi =>
      obtain ⟨⟨t, n, events⟩, hu, rfl⟩ := ih.call_at hi
      have hstay : M.Plays [] s s := rfl
      have hgo := ih.goOn hu hstay ih.state
        (by rw [List.append_nil]; exact (ih.owned _ (List.mem_of_getElem? hu)).2.call) (by simp)
      have hlogs : (Label.fire i ch : Label P Ch E).logged w logs =
          (calls.set i ⟨⟨p, (M.body q).bindE k⟩, n, events ++ []⟩).map
            fun v => v.events.map Event.cmd := by
        rw [List.map_set, List.append_nil, set_of_getElem? (by simp [hu])]
        simp only [Label.logged, hi, ih.logs]
      rw [hlogs]
      exact ⟨_, _, _, _, hgo⟩
    | @done _ i ch p o hi =>
      obtain ⟨⟨t, n, events⟩, hu, rfl⟩ := ih.call_at hi
      have hlogs : (Label.fire i ch : Label P Ch E).logged w logs = logs.eraseIdx i := by
        cases o with
        | ok a => simp only [Label.logged, hi, Prog.final_ok]
        | error e => simp only [Label.logged, hi, Prog.final_error]
      obtain ⟨s₁', s', hover⟩ := ih.over hM hu rfl
      rw [hlogs]
      exact ⟨_, _, s₁', s', hover⟩

/-- Without conflicts, the calls that are over could have been made one after the other: once no
call is under way any more, they have the outcomes they have had and leave what is there. -/
theorem Apart.serial (hM : M.Commuting conflict same) (h : M.Apart conflict ok s₀ w logs)
    (hover : w.threads = []) : ∃ s, M.Serves ok s₀ w.done s ∧ same s w.state := by
  obtain ⟨calls, log, s₁, s, h⟩ := h.ahead hM
  obtain rfl : calls = [] := by simpa [h.threads] using hover
  obtain rfl : log = [] := List.eq_nil_iff_forall_not_mem.2 fun x hx => by
    obtain ⟨u, hu, -⟩ := h.known x hx
    exact absurd hu List.not_mem_nil
  obtain rfl := h.plays
  exact ⟨s, h.serves, h.state⟩

end Ahead

section Checked

variable {conflict : C → C → Prop} [DecidableRel conflict] {ok : Ch → Prop} [DecidablePred ok]

/-- The step is of a choice that is let through, and conflicts with none of the other calls. -/
def clear (conflict : C → C → Prop) [DecidableRel conflict] (ok : Ch → Prop) [DecidablePred ok]
    (w : Pool R A ε S) (logs : List (List C)) : Label P Ch E → Bool
  | .fire i ch => ok ch && (w.upcoming i).all fun c =>
      logs.zipIdx.all fun x => x.2 = i || x.1.all fun c' => ¬ conflict c' c
  | _ => true

/-- Make the steps of these labels, if that is possible without conflicts. -/
def runApart (M : Machine R A ε Ch E S) (conflict : C → C → Prop) [DecidableRel conflict]
    (ok : Ch → Prop) [DecidablePred ok] :
    List (Label P Ch E) → Pool R A ε S × List (List C) → Option (Pool R A ε S × List (List C))
  | [], x => some x
  | l :: ls, x =>
      if clear conflict ok x.1 x.2 l then
        (M.step l x.1).bind fun w => M.runApart conflict ok ls (w, l.logged x.1 x.2)
      else none

theorem apart_of_runApart {s₀ : S} {w w' : Pool R A ε S} {logs logs' : List (List C)}
    {ls : List (Label P Ch E)} (h : M.Apart conflict ok s₀ w logs)
    (hrun : M.runApart conflict ok ls (w, logs) = some (w', logs')) :
    M.Apart conflict ok s₀ w' logs' := by
  induction ls generalizing w logs with
  | nil => cases hrun; exact h
  | cons l ls ih =>
    simp only [runApart] at hrun
    split at hrun
    · next hclear =>
      obtain ⟨w₁, hs, hrest⟩ := Option.bind_eq_some_iff.1 hrun
      refine ih (h.step (fun i ch hl => ?_) hs) hrest
      subst hl
      obtain ⟨hok, hothers⟩ := Bool.and_eq_true_iff.1 hclear
      refine ⟨of_decide_eq_true hok, fun c hc j cs hij hj c' hc' => ?_⟩
      rw [hc] at hothers
      have hj' := List.all_eq_true.1 hothers (cs, j) (List.mem_zipIdx_iff_getElem?.2 hj)
      simp only [Bool.or_eq_true, decide_eq_true_eq, List.all_eq_true] at hj'
      exact (hj'.resolve_left hij) c' hc'
    · cases hrun

end Checked

end Machine

end Conc
