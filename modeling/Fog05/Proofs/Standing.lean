import Fog05.Proofs.Requests

/-! How far each plugin of a node has come, in every run: it is known by a uuid of its own, and
asks once to be registered and, when it has been told to stop, once to be unregistered. -/

namespace Fog05.Processes

open Conc

/-- What a plugin of this kind and uuid has done when it has come to this stage. -/
structure Stands (kind : PluginKind) (p : Uuid) (st : Stage) (s : Node) : Prop where
  join : st = .connected ∨ st = .named → some (.join p) ∉ s.sent.map Call.ask
  leave : st ≠ .begun → st ≠ .left → some (.leave p) ∉ s.sent.map Call.ask
  uuid : st ≠ .begun → st ≠ .connected → s.uuids p = some p
  told : st = .leaving ∨ st = .left → s.stopping p = true
  joined : st = .joined ∨ st = .leaving ∨ st = .left → ∃ u, (.register p kind, .ok u) ∈ s.served

structure Standing (qs : List Entry) (s : Node) : Prop where
  single : ∀ p, (qs.map Entry.known).count (some p) ≤ 1
  issued : ∀ q ∈ qs, ∀ p, q.known = some p → p ∈ s.issued
  once : ∀ a, (s.sent.map Call.ask).count (some a) ≤ 1
  fresh : ∀ a : Ask, a.uuid ∉ s.issued → some a ∉ s.sent.map Call.ask
  stands : ∀ q ∈ qs, ∀ kind p, q.role = .plugin kind p → Stands kind p q.stage s

section Stands

variable {kind : PluginKind} {p : Uuid} {st : Stage} {s s' : Node}

theorem stands_begun : Stands kind p .begun s where
  join h := by rcases h with h | h <;> cases h
  leave h := absurd rfl h
  uuid h := absurd rfl h
  told h := by rcases h with h | h <;> cases h
  joined h := by rcases h with h | h | h <;> cases h

theorem Stands.keep (h : Stands kind p st s) (hsent : s'.sent = s.sent)
    (huuid : s.uuids p = some p → s'.uuids p = some p)
    (hstop : s.stopping p = true → s'.stopping p = true) (hserved : s.served <+: s'.served) :
    Stands kind p st s' where
  join := hsent ▸ h.join
  leave := hsent ▸ h.leave
  uuid hb hc := huuid (h.uuid hb hc)
  told ht := hstop (h.told ht)
  joined hj := by
    obtain ⟨u, hu⟩ := h.joined hj
    exact ⟨u, hserved.subset hu⟩

theorem Stands.beside (h : Stands kind p st s) {c : Call} (hc : ∀ a, c.ask = some a → a.uuid ≠ p)
    {tasks : List Proc} : Stands kind p st { s with sent := s.sent ++ [c], tasks := tasks } := by
  have hnot : ∀ a : Ask, a.uuid = p → some a ∉ s.sent.map Call.ask →
      some a ∉ (s.sent ++ [c]).map Call.ask := by
    intro a ha hnot hmem
    rw [List.map_append] at hmem
    rcases List.mem_append.1 hmem with hmem | hmem
    · exact hnot hmem
    · exact hc a (List.mem_singleton.1 hmem).symm ha
  exact ⟨fun hj => hnot (.join p) rfl (h.join hj), fun hb hl => hnot (.leave p) rfl (h.leave hb hl),
    h.uuid, h.told, h.joined⟩

/-! From one stage to the next. -/

theorem stands_connected (h : ∀ a : Ask, a.uuid = p → some a ∉ s.sent.map Call.ask) :
    Stands kind p .connected s where
  join _ := h (.join p) rfl
  leave _ _ := h (.leave p) rfl
  uuid _ hc := absurd rfl hc
  told ht := by rcases ht with ht | ht <;> cases ht
  joined hj := by rcases hj with hj | hj | hj <;> cases hj

theorem Stands.to_named (h : Stands kind p .connected s) (hp : s.uuids p = some p) :
    Stands kind p .named s where
  join _ := h.join (Or.inl rfl)
  leave _ _ := h.leave (fun hb => by cases hb) fun hb => by cases hb
  uuid _ _ := hp
  told ht := by rcases ht with ht | ht <;> cases ht
  joined hj := by rcases hj with hj | hj | hj <;> cases hj

theorem Stands.to_joining (h : Stands kind p .named s) {tasks : List Proc} :
    Stands kind p .joining
      { s with sent := s.sent ++ [.registry (.register p kind)], tasks := tasks } where
  join hj := by rcases hj with hj | hj <;> cases hj
  leave _ _ := by
    have hleave := h.leave (fun hb => by cases hb) fun hb => by cases hb
    simpa [Call.ask, Ask.of] using hleave
  uuid _ _ := h.uuid (fun hb => by cases hb) fun hb => by cases hb
  told ht := by rcases ht with ht | ht <;> cases ht
  joined hj := by rcases hj with hj | hj | hj <;> cases hj

theorem Stands.to_joined (h : Stands kind p .joining s)
    (hp : ∃ u, (.register p kind, .ok u) ∈ s.served) : Stands kind p .joined s where
  join hj := by rcases hj with hj | hj <;> cases hj
  leave _ _ := h.leave (fun hb => by cases hb) fun hb => by cases hb
  uuid _ _ := h.uuid (fun hb => by cases hb) fun hb => by cases hb
  told ht := by rcases ht with ht | ht <;> cases ht
  joined _ := hp

theorem Stands.to_leaving (h : Stands kind p .joined s) (hp : s.stopping p = true) :
    Stands kind p .leaving s where
  join hj := by rcases hj with hj | hj <;> cases hj
  leave _ _ := h.leave (fun hb => by cases hb) fun hb => by cases hb
  uuid _ _ := h.uuid (fun hb => by cases hb) fun hb => by cases hb
  told _ := hp
  joined _ := h.joined (Or.inl rfl)

theorem Stands.to_left (h : Stands kind p .leaving s) {tasks : List Proc} :
    Stands kind p .left
      { s with sent := s.sent ++ [.registry (.unregister p)], tasks := tasks } where
  join hj := by rcases hj with hj | hj <;> cases hj
  leave _ hl := absurd rfl hl
  uuid _ _ := h.uuid (fun hb => by cases hb) fun hb => by cases hb
  told _ := h.told (Or.inl rfl)
  joined _ := h.joined (Or.inr (Or.inl rfl))

end Stands

namespace Standing

variable {qs : List Entry} {s s' : Node} {i j : ℕ} {q q' q₁ : Entry} {kind : PluginKind} {p : Uuid}

theorem idle : Standing [] .new where
  single _ := Nat.zero_le _
  issued _ hq := absurd hq List.not_mem_nil
  once _ := Nat.zero_le _
  fresh _ _ := List.not_mem_nil
  stands _ hq := absurd hq List.not_mem_nil

/-- No two plugins have the same uuid. -/
theorem own (h : Standing qs s) (hi : qs[i]? = some q) (hq : q.known = some p)
    (hj : qs[j]? = some q₁) (hq₁ : q₁.known = some p) : j = i := by
  by_contra hij
  have hi' : (qs.map Entry.known)[i]? = some (some p) := by simp [hi, hq]
  have hcount := count_eraseIdx_add hi' (some p)
  have hmem : some p ∈ (qs.map Entry.known).eraseIdx i :=
    List.mem_eraseIdx_iff_getElem?.2 ⟨j, hij, by simp [hj, hq₁]⟩
  have hpos := List.count_pos_iff.2 hmem
  have hone := h.single p
  simp only [beq_self_eq_true, if_true] at hcount
  omega

theorem add (h : Standing qs s) (r : Role) : Standing (qs ++ [r.opens]) s where
  single p := by
    have hknown : r.opens.known = none := by cases r <;> rfl
    simpa [hknown] using h.single p
  issued := forall_mem_concat h.issued fun p hp => by
    have hknown : r.opens.known = none := by cases r <;> rfl
    rw [hknown] at hp
    cases hp
  once := h.once
  fresh := h.fresh
  stands := forall_mem_concat h.stands fun _ _ _ => stands_begun

theorem drop (h : Standing qs s) (i : ℕ) : Standing (qs.eraseIdx i) s where
  single p := by
    have hsub := ((qs.eraseIdx_sublist i).map Entry.known).count_le (some p)
    exact hsub.trans (h.single p)
  issued q hq := h.issued q (List.mem_of_mem_eraseIdx hq)
  once := h.once
  fresh := h.fresh
  stands q hq := h.stands q (List.mem_of_mem_eraseIdx hq)

theorem outside (h : Standing qs s) (hsent : s'.sent = s.sent) (hissued : s'.issued = s.issued)
    (huuid : ∀ p, s.uuids p = some p → s'.uuids p = some p)
    (hstop : ∀ p, s.stopping p = true → s'.stopping p = true) (hserved : s.served <+: s'.served) :
    Standing qs s' where
  single := h.single
  issued := hissued ▸ h.issued
  once := hsent ▸ h.once
  fresh := by rw [hsent, hissued]; exact h.fresh
  stands q hq kind p hrole := (h.stands q hq kind p hrole).keep hsent (huuid p) (hstop p) hserved

theorem move (h : Standing qs s) (hi : qs[i]? = some q) (hrole : q'.role = q.role)
    (hbegun : q'.stage = .begun ↔ q.stage = .begun)
    (hstands : ∀ kind p, q.role = .plugin kind p → Stands kind p q'.stage s) :
    Standing (qs.set i q') s := by
  have hknown : q'.known = q.known := by
    cases hr : q.role with
    | plugin kind p =>
      by_cases hb : q.stage = .begun
      · rw [Entry.known, Entry.known, hrole, hr, hb, hbegun.2 hb]
      · rw [Entry.known_of_stage hr hb, Entry.known_of_stage (hrole.trans hr) (hb ∘ hbegun.1)]
    | _ => rw [Entry.known, Entry.known, hrole, hr]
  refine ⟨fun p => ?_, forall_mem_set h.issued ?_ i, h.once, h.fresh,
    forall_mem_set h.stands (fun kind p hr => hstands kind p (hrole.symm.trans hr)) i⟩
  · rw [List.map_set, hknown, set_of_getElem? (by simp [hi])]
    exact h.single p
  · rw [hknown]
    exact h.issued q (List.mem_of_getElem? hi)

theorem same (h : Standing qs s) (hi : qs[i]? = some q) (hrole : q'.role = q.role)
    (hstage : q'.stage = q.stage) : Standing (qs.set i q') s :=
  h.move hi hrole (by rw [hstage]) fun kind p hr => by
    rw [hstage]
    exact h.stands q (List.mem_of_getElem? hi) kind p hr

theorem server (h : Standing qs s) (hi : qs[i]? = some q) {n : ℕ} {c : Call}
    (hq : q.role = .server n c) (hrole : q'.role = q.role) : Standing (qs.set i q') s := by
  have hknown : ∀ {q : Entry}, q.role = .server n c → q.known = none := fun hq => by
    rw [Entry.known, hq]
  refine ⟨fun p => ?_, forall_mem_set h.issued (fun p hp => ?_) i, h.once, h.fresh,
    forall_mem_set h.stands (fun kind p hr => ?_) i⟩
  · rw [List.map_set, hknown (hrole.trans hq), ← hknown hq, set_of_getElem? (by simp [hi])]
    exact h.single p
  · rw [hknown (hrole.trans hq)] at hp
    cases hp
  · rw [hrole, hq] at hr
    cases hr

theorem connect (h : Standing qs s) (hi : qs[i]? = some q) (hrole : q.role = .plugin kind p)
    (hp : p ∉ s.issued) :
    Standing (qs.set i { q with stage := .connected }) { s with issued := p :: s.issued } := by
  have hknown : Entry.known { q with stage := .connected } = some p :=
    Entry.known_of_stage hrole fun h => by cases h
  refine ⟨fun p' => ?_, forall_mem_set (fun q₁ hq₁ p' hp' => ?_) (fun p' hp' => ?_) i, h.once,
    fun a ha => ?_, forall_mem_set (fun q₁ hq₁ kind' p' hr => ?_) (fun kind' p' hr => ?_) i⟩
  · -- nobody has been known by this uuid
    have hcount := count_map_set Entry.known hi { q with stage := .connected } (some p')
    have hone := h.single p'
    rw [hknown] at hcount
    by_cases hpp : p = p'
    · subst hpp
      have hzero : (qs.map Entry.known).count (some p) = 0 := by
        refine List.count_eq_zero.2 fun hmem => ?_
        obtain ⟨q₁, hq₁, hknown₁⟩ := List.mem_map.1 hmem
        exact hp (h.issued q₁ hq₁ p hknown₁)
      simp only [beq_self_eq_true, if_true] at hcount
      omega
    · have hne : (some p == some p') = false := by simpa using hpp
      simp only [hne, Bool.false_eq_true, if_false] at hcount
      omega
  · exact List.mem_cons_of_mem _ (h.issued q₁ hq₁ p' hp')
  · rw [hknown] at hp'
    rw [← Option.some.inj hp']
    exact List.mem_cons_self
  · exact h.fresh a fun hmem => ha (List.mem_cons_of_mem _ hmem)
  · exact (h.stands q₁ hq₁ kind' p' hr).keep rfl (fun h => h) (fun h => h) List.prefix_rfl
  · obtain ⟨-, rfl⟩ := Role.plugin.inj (hr.symm.trans hrole)
    exact stands_connected fun a ha => h.fresh a (ha ▸ hp)

theorem ask (h : Standing qs s) (hi : qs[i]? = some q) (hrole : q.role = .plugin kind p)
    (hrole' : q'.role = q.role) (hb : q.stage ≠ .begun) (hb' : q'.stage ≠ .begun) {c : Call} {a : Ask}
    (hc : c.ask = some a) (ha : a.uuid = p) (hnot : some a ∉ s.sent.map Call.ask)
    {tasks : List Proc}
    (hstands : Stands kind p q'.stage { s with sent := s.sent ++ [c], tasks := tasks }) :
    Standing (qs.set i q') { s with sent := s.sent ++ [c], tasks := tasks } := by
  have hknown := Entry.known_of_stage hrole hb
  have hknown' := Entry.known_of_stage (hrole'.trans hrole) hb'
  have hq := List.mem_of_getElem? hi
  refine ⟨fun p' => ?_, forall_mem_set h.issued (fun p' hp' => ?_) i, fun a' => ?_,
    fun a' ha' => ?_, fun q₁ hq₁ kind' p' hr => ?_⟩
  · rw [List.map_set, hknown', ← hknown, set_of_getElem? (by simp [hi])]
    exact h.single p'
  · rw [hknown', ← hknown] at hp'
    exact h.issued q hq p' hp'
  · have hone := h.once a'
    have hzero := List.count_eq_zero.2 hnot
    simp only [List.map_append, List.map_cons, List.map_nil, List.count_append, hc]
    rw [List.count_singleton]
    by_cases haa : a = a'
    · subst haa
      simp [hzero]
    · have hne : (some a == some a') = false := by simpa using haa
      simpa [hne] using hone
  · intro hmem
    simp only [List.map_append, List.map_cons, List.map_nil, hc] at hmem
    rcases List.mem_append.1 hmem with hmem | hmem
    · exact h.fresh a' ha' hmem
    · obtain rfl := Option.some.inj (List.mem_singleton.1 hmem)
      exact ha' (ha ▸ h.issued q hq p hknown)
  · rcases Machine.eq_or_of_mem_set hq₁ with rfl | ⟨j, hij, hj⟩
    · obtain ⟨rfl, rfl⟩ := Role.plugin.inj (hr.symm.trans (hrole'.trans hrole))
      exact hstands
    · by_cases hb₁ : q₁.stage = .begun
      · rw [hb₁]
        exact stands_begun
      · refine (h.stands q₁ (List.mem_of_getElem? hj) kind' p' hr).beside fun a' ha' hp' => ?_
        obtain rfl := Option.some.inj (hc.symm.trans ha')
        exact hij (h.own hi hknown hj ((ha.symm.trans hp') ▸ Entry.known_of_stage hr hb₁))

theorem call (h : Standing qs s) {c : Call} (hc : c.ask = none) (tasks : List Proc) :
    Standing qs { s with sent := s.sent ++ [c], tasks := tasks } where
  single := h.single
  issued := h.issued
  once a := by simpa [hc] using h.once a
  fresh a ha := by simpa [hc] using h.fresh a ha
  stands q hq kind p hr := (h.stands q hq kind p hr).beside fun a ha => by
    rw [hc] at ha
    cases ha

end Standing

end Fog05.Processes
