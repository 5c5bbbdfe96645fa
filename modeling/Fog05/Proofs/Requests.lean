import Fog05.Proofs.Custody

/-! The requests of a node on their way, in every run: each waits to be served, is being served
or has been answered, once. How far a plugin has come says what it has asked for. -/

namespace Fog05.Processes

open Conc

/-- What a call on the registry asks for. -/
inductive Ask
  | join (p : Uuid)
  | leave (p : Uuid)
  deriving DecidableEq

def Ask.uuid : Ask → Uuid
  | join p | leave p => p

def Ask.of : RegistryCall → Ask
  | .register p _ => .join p
  | .unregister p => .leave p

/-- What the answered calls have asked for. -/
def asks (l : List (RegistryCall × Except FError Uuid)) : List Ask := l.map fun x => Ask.of x.1

theorem asks_append {l : List (RegistryCall × Except FError Uuid)} {c : RegistryCall}
    (o : Except FError Uuid) : asks (l ++ [(c, o)]) = asks l ++ [Ask.of c] := by
  simp [asks]

def Call.ask : Call → Option Ask
  | .registry c => some (.of c)
  | .transition _ => none

/-- The request that a task is to serve, and what it asks for. -/
def Proc.serving : Proc → Option ℕ
  | .serve n _ => some n
  | _ => none

def Proc.pending : Proc → Option Ask
  | .serve _ c => c.ask
  | _ => none

namespace Entry

/-- The request that it has not responded to yet. -/
def serving (q : Entry) : Option ℕ :=
  match q.role, q.stage with
  | .server _ _, .responded => none
  | .server n _, _ => some n
  | _, _ => none

/-- What it has been asked for and has not done yet. -/
def pending (q : Entry) : Option Ask :=
  match q.role, q.stage with
  | .server _ c, .begun => c.ask
  | _, _ => none

/-- The uuid that a plugin has come to be known by. -/
def known (q : Entry) : Option Uuid :=
  match q.role, q.stage with
  | .plugin _ _, .begun => none
  | .plugin _ p, _ => some p
  | _, _ => none

theorem known_of_stage {q : Entry} {kind : PluginKind} {p : Uuid} (hrole : q.role = .plugin kind p)
    (hstage : q.stage ≠ .begun) : q.known = some p := by
  unfold known
  rw [hrole]
  cases hs : q.stage with
  | begun => exact absurd hs hstage
  | _ => rfl

theorem serves_nothing {q : Entry} (hq : ∀ n c, q.role ≠ .server n c) :
    q.serving = none ∧ q.pending = none := by
  unfold serving pending
  cases hr : q.role with
  | server n c => exact absurd hr (hq n c)
  | _ => exact ⟨rfl, rfl⟩

theorem serving_of_server {q : Entry} {n : ℕ} {c : Call} (hrole : q.role = .server n c)
    (hstage : q.stage ≠ .responded) : q.serving = some n := by
  unfold serving
  rw [hrole]
  cases hs : q.stage with
  | responded => exact absurd hs hstage
  | _ => rfl

theorem role_of_serving {q : Entry} {n : ℕ} (h : q.serving = some n) :
    ∃ c, q.role = .server n c ∧ q.stage ≠ .responded := by
  unfold serving at h
  split at h
  · cases h
  · next hrole hne =>
    obtain rfl := Option.some.inj h
    exact ⟨_, hrole, hne⟩
  · cases h

theorem Over.serving {q : Entry} (h : q.Over) : q.serving = none := by
  unfold Entry.serving
  split
  · rfl
  · next n c hrole hne => exact absurd (h.responded n c hrole) hne
  · rfl

theorem Over.pending {q : Entry} (h : q.Over) : q.pending = none := by
  unfold Entry.pending
  split
  · next n c hrole hstage => rw [h.responded n c hrole] at hstage; cases hstage
  · rfl

end Entry

theorem serving_opens (p : Proc) : p.role.opens.serving = p.serving := by
  cases p <;> rfl

theorem pending_opens (p : Proc) : p.role.opens.pending = p.pending := by
  cases p <;> rfl

/-- Each request is somewhere on its way, once, and what has been asked of the registry is
waiting or has been answered. -/
structure Mail (qs : List Entry) (s : Node) : Prop where
  awaits : ∀ q ∈ qs, ∀ n c, q.awaits = some (n, c) → s.sent[n]? = some c
  servers : ∀ q ∈ qs, ∀ n c, q.role = .server n c → s.sent[n]? = some c
  answers : ∀ q ∈ qs, ∀ n c o, q.role = .server n (.registry c) → q.stage = .answered o →
    (c, o) ∈ s.served
  tasks : ∀ n c, Proc.serve n c ∈ s.tasks → s.sent[n]? = some c
  replies : ∀ n o c, (n, o) ∈ s.replies → s.sent[n]? = some (.registry c) →
    ∃ o', (c, o') ∈ s.served ∧ o = o'.map fun _ => ()
  delivery : ∀ n, (s.tasks.map Proc.serving).count (some n) +
    (qs.map Entry.serving).count (some n) + (s.replies.map Prod.fst).count n =
      if n < s.sent.length then 1 else 0
  balance : ∀ a, (s.tasks.map Proc.pending).count (some a) +
    (qs.map Entry.pending).count (some a) + (asks s.served).count a =
      (s.sent.map Call.ask).count (some a)

namespace Mail

variable {qs : List Entry} {s s' : Node} {i j : ℕ} {q q' q₁ : Entry} {n : ℕ} {c : Call}

theorem idle : Mail [] .new where
  awaits _ hq := absurd hq List.not_mem_nil
  servers _ hq := absurd hq List.not_mem_nil
  answers _ hq := absurd hq List.not_mem_nil
  tasks _ _ h := absurd h List.not_mem_nil
  replies _ _ _ h := absurd h List.not_mem_nil
  delivery _ := rfl
  balance _ := rfl

theorem outside (h : Mail qs s) (hsent : s'.sent = s.sent) (htasks : s'.tasks = s.tasks)
    (hreplies : s'.replies = s.replies) (hserved : s'.served = s.served) : Mail qs s' where
  awaits := hsent ▸ h.awaits
  servers := hsent ▸ h.servers
  answers := hserved ▸ h.answers
  tasks := by rw [htasks, hsent]; exact h.tasks
  replies := by rw [hreplies, hsent, hserved]; exact h.replies
  delivery := by rw [htasks, hreplies, hsent]; exact h.delivery
  balance := by rw [htasks, hserved, hsent]; exact h.balance

theorem add (h : Mail qs s) {p : Proc} (tasks : List Proc)
    (hp : s.tasks = p :: tasks ∨ s.tasks = tasks ∧ ∀ n c, p ≠ .serve n c) :
    Mail (qs ++ [p.role.opens]) { s with tasks := tasks } where
  awaits := forall_mem_concat h.awaits fun n c hc => by cases hc
  servers := forall_mem_concat h.servers fun n c hc => by
    have hserve : p = .serve n c := by
      cases p with
      | serve n' c' => cases hc; rfl
      | _ => cases hc
    rcases hp with hp | ⟨-, hp⟩
    · exact h.tasks n c (by rw [hp, hserve]; exact List.mem_cons_self)
    · exact absurd hserve (hp n c)
  answers := forall_mem_concat h.answers fun n c o hc ho => by cases ho
  tasks n c hc := by
    refine h.tasks n c ?_
    rcases hp with hp | ⟨hp, -⟩
    · rw [hp]
      exact List.mem_cons_of_mem _ hc
    · rwa [hp]
  replies := h.replies
  delivery n := by
    have hn := h.delivery n
    rcases hp with hp | ⟨hp, hserve⟩
    · rw [hp] at hn
      simp only [List.map_cons, List.count_cons] at hn
      simp only [List.map_append, List.count_append, List.map_cons, List.map_nil,
        List.count_singleton, serving_opens]
      omega
    · rw [hp] at hn
      have hnone : p.serving = none := by
        cases p with
        | serve n' c' => exact absurd rfl (hserve n' c')
        | _ => rfl
      simpa [serving_opens, hnone] using hn
  balance a := by
    have ha := h.balance a
    rcases hp with hp | ⟨hp, hserve⟩
    · rw [hp] at ha
      simp only [List.map_cons, List.count_cons] at ha
      simp only [List.map_append, List.count_append, List.map_cons, List.map_nil,
        List.count_singleton, pending_opens]
      omega
    · rw [hp] at ha
      have hnone : p.pending = none := by
        cases p with
        | serve n' c' => exact absurd rfl (hserve n' c')
        | _ => rfl
      simpa [pending_opens, hnone] using ha

theorem drop (h : Mail qs s) (hi : qs[i]? = some q) (hq : q.Over) : Mail (qs.eraseIdx i) s where
  awaits q₁ hq₁ := h.awaits q₁ (List.mem_of_mem_eraseIdx hq₁)
  servers q₁ hq₁ := h.servers q₁ (List.mem_of_mem_eraseIdx hq₁)
  answers q₁ hq₁ := h.answers q₁ (List.mem_of_mem_eraseIdx hq₁)
  tasks := h.tasks
  replies := h.replies
  delivery n := by
    have hn := h.delivery n
    have hcount := count_map_eraseIdx Entry.serving hi (some n)
    rw [hq.serving] at hcount
    simp at hcount
    omega
  balance a := by
    have ha := h.balance a
    have hcount := count_map_eraseIdx Entry.pending hi (some a)
    rw [hq.pending] at hcount
    simp at hcount
    omega

theorem same (h : Mail qs s) (hi : qs[i]? = some q) (hrole : q'.role = q.role)
    (hstage : ∀ n c, q.role = .server n c → q'.stage = q.stage)
    (hawaits : ∀ n c, q'.awaits = some (n, c) → s.sent[n]? = some c) : Mail (qs.set i q') s := by
  have hq := List.mem_of_getElem? hi
  have hserving : q'.serving = q.serving := by
    unfold Entry.serving
    rw [hrole]
    cases hr : q.role with
    | server n c => rw [hstage n c hr]
    | _ => rfl
  have hpending : q'.pending = q.pending := by
    unfold Entry.pending
    rw [hrole]
    cases hr : q.role with
    | server n c => rw [hstage n c hr]
    | _ => rfl
  refine ⟨forall_mem_set h.awaits hawaits i, forall_mem_set h.servers ?_ i,
    forall_mem_set h.answers (fun n c o hc ho => ?_) i, h.tasks, h.replies, fun n => ?_, fun a => ?_⟩
  · rw [hrole]
    exact h.servers q hq
  · rw [hrole] at hc
    exact h.answers q hq n c o hc (hstage n _ hc ▸ ho)
  · have hcount := count_map_set Entry.serving hi q' (some n)
    have hn := h.delivery n
    rw [hserving] at hcount
    omega
  · have hcount := count_map_set Entry.pending hi q' (some a)
    have ha := h.balance a
    rw [hpending] at hcount
    omega

theorem request (h : Mail qs s) (hi : qs[i]? = some q) (hrole : q'.role = q.role)
    (hserver : ∀ n c, q.role ≠ .server n c) (hawaits : q'.awaits = some (s.sent.length, c)) :
    Mail (qs.set i q') { s with
      sent := s.sent ++ [c]
      tasks := s.tasks ++ [.serve s.sent.length c] } := by
  have hold : ∀ {n c'}, s.sent[n]? = some c' → (s.sent ++ [c])[n]? = some c' := fun hn => by
    rw [List.getElem?_append_left (List.getElem?_eq_some_iff.1 hn).1]
    exact hn
  have hnew : (s.sent ++ [c])[s.sent.length]? = some c := by simp
  obtain ⟨hserving, hpending⟩ := Entry.serves_nothing hserver
  obtain ⟨hserving', hpending'⟩ := Entry.serves_nothing (q := q') fun n c => hrole ▸ hserver n c
  refine ⟨forall_mem_set (fun q₁ hq₁ n c' hc' => hold (h.awaits q₁ hq₁ n c' hc'))
      (fun n c' hc' => ?_) i,
    forall_mem_set (fun q₁ hq₁ n c' hc' => hold (h.servers q₁ hq₁ n c' hc'))
      (fun n c' hc' => absurd (hrole.symm.trans hc') (hserver n c')) i,
    forall_mem_set h.answers (fun n c' o hc' _ => absurd (hrole.symm.trans hc') (hserver n _)) i,
    fun n c' hc' => ?_, fun n o c' ho hc' => ?_, fun n => ?_, fun a => ?_⟩
  · rw [hawaits] at hc'
    obtain ⟨rfl, rfl⟩ := Prod.mk.inj (Option.some.inj hc')
    exact hnew
  · rcases List.mem_append.1 hc' with hc' | hc'
    · exact hold (h.tasks n c' hc')
    · cases List.mem_singleton.1 hc'
      exact hnew
  · -- no reply comes before its request
    refine h.replies n o c' ho ?_
    have hn := h.delivery n
    have hlt : n < s.sent.length := by
      by_contra hle
      rw [if_neg hle] at hn
      have hpos : 0 < (s.replies.map Prod.fst).count n :=
        List.count_pos_iff.2 (List.mem_map.2 ⟨_, ho, rfl⟩)
      omega
    rwa [List.getElem?_append_left hlt] at hc'
  · have hn := h.delivery n
    have hcount := count_map_set Entry.serving hi q' (some n)
    rw [hserving, hserving'] at hcount
    change (((s.tasks ++ [Proc.serve s.sent.length c]).map Proc.serving).count (some n)) + _ + _ =
      if n < (s.sent ++ [c]).length then 1 else 0
    simp only [List.map_append, List.count_append, List.map_cons, List.map_nil, Proc.serving,
      List.length_append, List.length_singleton]
    rw [List.count_singleton]
    by_cases hlen : s.sent.length = n
    · subst hlen
      rw [if_neg (Nat.lt_irrefl _)] at hn
      simp only [beq_self_eq_true, if_true, Nat.lt_succ_self]
      omega
    · have hne : (some s.sent.length == some n) = false := by simpa using hlen
      have hiff : n < s.sent.length + 1 ↔ n < s.sent.length := by omega
      simp only [hne, hiff, Bool.false_eq_true, if_false]
      omega
  · have ha := h.balance a
    have hcount := count_map_set Entry.pending hi q' (some a)
    rw [hpending, hpending'] at hcount
    change (((s.tasks ++ [Proc.serve s.sent.length c]).map Proc.pending).count (some a)) + _ + _ =
      ((s.sent ++ [c]).map Call.ask).count (some a)
    simp only [List.map_append, List.count_append, List.map_cons, List.map_nil, Proc.pending]
    omega

theorem spawn (h : Mail qs s) (p : Uuid) :
    Mail qs { s with tasks := s.tasks ++ [.defaultNetwork p] } where
  awaits := h.awaits
  servers := h.servers
  answers := h.answers
  tasks n c hc := by
    rcases List.mem_append.1 hc with hc | hc
    · exact h.tasks n c hc
    · cases List.mem_singleton.1 hc
  replies := h.replies
  delivery n := by simpa [Proc.serving] using h.delivery n
  balance a := by simpa [Proc.pending] using h.balance a

theorem respond (h : Mail qs s) (hi : qs[i]? = some q) (hrole : q.role = .server n c)
    (hstage : q.stage ≠ .responded) (hpending : q.pending = none) {o : Except FError Unit}
    (ho : ∀ c', c = .registry c' → ∃ o', (c', o') ∈ s.served ∧ o = o'.map fun _ => ()) :
    Mail (qs.set i { q with stage := .responded }) { s with replies := s.replies ++ [(n, o)] } := by
  have hq := List.mem_of_getElem? hi
  have hserving' : Entry.serving { q with stage := .responded } = none := by
    unfold Entry.serving
    simp only [hrole]
  have hpending' : Entry.pending { q with stage := .responded } = none := by
    unfold Entry.pending
    simp only [hrole]
  refine ⟨forall_mem_set h.awaits ?_ i, forall_mem_set h.servers ?_ i,
    forall_mem_set h.answers (fun n' c' o' _ ho' => by cases ho') i, h.tasks,
    fun n' o' c' ho' hc' => ?_, fun n' => ?_, fun a => ?_⟩
  · exact h.awaits q hq
  · exact h.servers q hq
  · rcases List.mem_append.1 ho' with ho' | ho'
    · exact h.replies n' o' c' ho' hc'
    · obtain ⟨rfl, rfl⟩ := Prod.mk.inj (List.mem_singleton.1 ho')
      exact ho c' (Option.some.inj ((h.servers q hq n' c hrole).symm.trans hc'))
  · have hn := h.delivery n'
    have hcount := count_map_set Entry.serving hi { q with stage := .responded } (some n')
    rw [Entry.serving_of_server hrole hstage, hserving'] at hcount
    change _ + _ + ((s.replies ++ [(n, o)]).map Prod.fst).count n' = _
    simp only [List.map_append, List.count_append, List.map_cons, List.map_nil]
    rw [List.count_singleton]
    by_cases hne : n = n'
    · subst hne
      simp at hcount ⊢
      omega
    · simp [hne] at hcount ⊢
      omega
  · have ha := h.balance a
    have hcount := count_map_set Entry.pending hi { q with stage := .responded } (some a)
    rw [hpending, hpending'] at hcount
    change (s.tasks.map Proc.pending).count (some a) + _ + (asks s.served).count a =
      (s.sent.map Call.ask).count (some a)
    omega

theorem answered (h : Mail qs s) (hi : qs[i]? = some q) {r : RegistryCall}
    (hrole : q.role = .server n (.registry r)) (hstage : q.stage = .begun) (o : Except FError Uuid)
    (hrole' : q'.role = q.role) (hstage' : q'.stage = .answered o) (hawaits : q'.awaits = q.awaits) :
    Mail (qs.set i q') { s with served := s.served ++ [(r, o)] } := by
  have hq := List.mem_of_getElem? hi
  have hserving' : q'.serving = some n :=
    Entry.serving_of_server (hrole'.trans hrole) fun h => by rw [hstage'] at h; cases h
  have hserving : q.serving = some n :=
    Entry.serving_of_server hrole fun h => by rw [hstage] at h; cases h
  have hpending : q.pending = some (.of r) := by
    unfold Entry.pending
    rw [hrole, hstage]
    rfl
  have hpending' : q'.pending = none := by
    unfold Entry.pending
    rw [hrole', hrole, hstage']
  refine ⟨forall_mem_set h.awaits ?_ i, forall_mem_set h.servers ?_ i,
    forall_mem_set (fun q₁ hq₁ n' c' o' hc' ho' =>
      List.mem_append_left _ (h.answers q₁ hq₁ n' c' o' hc' ho')) (fun n' c' o' hc' ho' => ?_) i,
    h.tasks, fun n' o' c' ho' hc' => ?_, fun n' => ?_, fun a => ?_⟩
  · rw [hawaits]
    exact h.awaits q hq
  · rw [hrole']
    exact h.servers q hq
  · rw [hrole', hrole] at hc'
    cases hc'
    cases hstage'.symm.trans ho'
    exact List.mem_append_right _ (List.mem_singleton_self _)
  · obtain ⟨o'', hserved, rfl⟩ := h.replies n' o' c' ho' hc'
    exact ⟨o'', List.mem_append_left _ hserved, rfl⟩
  · have hn := h.delivery n'
    have hcount := count_map_set Entry.serving hi q' (some n')
    rw [hserving, hserving'] at hcount
    change (s.tasks.map Proc.serving).count (some n') + _ + (s.replies.map Prod.fst).count n' =
      if n' < s.sent.length then 1 else 0
    omega
  · have ha := h.balance a
    have hcount := count_map_set Entry.pending hi q' (some a)
    rw [hpending, hpending'] at hcount
    change _ + _ + (asks (s.served ++ [(r, o)])).count a = _
    rw [asks_append, List.count_append, List.count_singleton]
    by_cases hra : Ask.of r = a
    · subst hra
      simp at hcount ⊢
      omega
    · simp [hra] at hcount ⊢
      omega

end Mail

end Fog05.Processes
