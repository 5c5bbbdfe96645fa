import Fog05.Proofs.Course
import Fog05.Proofs.Offloading

/-! The status of an entity instance only moves forward, as long as it is handed to a task
that takes it down in its turn. The agent does not look at the stored status, so it is left to
the clients to see to that. -/

namespace Fog05

open Conc M

/-- The statuses of entity instance `u` that have been written, in order. -/
def written (u : Uuid) (s : Fos) : List EntityStatus :=
  (s.writes.filter fun i => i.uuid = u).map (·.status)

/-- The tasks of entity instance `u` that have been spawned and not launched. -/
def waiting (u : Uuid) (s : Fos) : List Task := s.tasks.filter fun t => t.inst.uuid = u

/-- What a command that a thread may issue does to the course of `u`, and what the thread
has then left to write. -/
inductive Furthers (u : Uuid) (c : Cmd) (s s' : Fos) : List EntityStatus → List EntityStatus → Prop
  | quiet {q} : written u s' = written u s → waiting u s' = waiting u s →
      (u ∈ s'.issued ↔ u ∈ s.issued) → Furthers u c s s' q q
  | mint {q} : written u s' = written u s → waiting u s' = waiting u s → u ∉ s.issued →
      u ∈ s'.issued → Furthers u c s s' q goingUp
  | write {status q} : written u s' = written u s ++ [status] → waiting u s' = waiting u s →
      (u ∈ s'.issued ↔ u ∈ s.issued) → Furthers u c s s' (status :: q) (restAfter (status :: q) status)
  | fail {q e} : written u s' = written u s ++ [.error e] → waiting u s' = waiting u s →
      (u ∈ s'.issued ↔ u ∈ s.issued) → q ≠ [] → Furthers u c s s' q []
  | spawn {q t} : c = .spawn t → t.inst.uuid = u → written u s' = written u s →
      waiting u s' = waiting u s ++ [t] → (u ∈ s'.issued ↔ u ∈ s.issued) →
      q = t.course ∨ q = [] ∧ t.Deschedules u → Furthers u c s s' q []

section Exec

variable {u : Uuid} {q : List EntityStatus} {c : Cmd} {ch : Choice} {s s' : Fos} {r : c.Ans}

theorem exec_furthers (hallow : (Advancing u).allows q c) (hx : exec c ch s = some (r, s')) :
    Furthers u c s s' q (c.remaining u q r) := by
  cases c with
  | access a =>
    rcases exec_access hx with ⟨-, hr⟩ | ⟨e, -, rfl, rfl⟩
    · obtain ⟨rfl, rfl⟩ := Prod.mk.inj hr
      cases a with
      | putEntityInstance i =>
        by_cases hi : i.uuid = u
        · have hwritten : ∀ s' : Fos, s'.writes = s.writes ++ [i] →
              written u s' = written u s ++ [i.status] := fun s' hw => by
            simp [written, hw, hi]
          change Furthers u _ s _ q (if i.uuid = u then restAfter q i.status else q)
          rw [if_pos hi]
          rcases hallow hi with hhead | ⟨hq, e, he⟩
          · cases q with
            | nil => cases hhead
            | cons status q =>
              obtain rfl := Option.some.inj hhead
              exact .write (hwritten _ rfl) rfl Iff.rfl
          · rw [he]
            exact .fail (he ▸ hwritten _ rfl) rfl Iff.rfl hq
        · change Furthers u _ s _ q (if i.uuid = u then restAfter q i.status else q)
          rw [if_neg hi]
          exact .quiet (by simp [written, hi]) rfl Iff.rfl
      | _ => exact .quiet rfl rfl Iff.rfl
    · cases a <;> exact .quiet rfl rfl Iff.rfl
  | newUuid =>
    obtain ⟨hnew, rfl⟩ := exec_newUuid hx
    change Furthers u _ s _ q (if r = u then goingUp else q)
    split
    · next hr =>
      subst hr
      exact .mint rfl rfl hnew List.mem_cons_self
    · next hr => exact .quiet rfl rfl (by simp [Ne.symm hr])
  | spawn t =>
    rw [exec_spawn hx]
    change Furthers u _ s _ q (if t.inst.uuid = u then [] else q)
    split
    · next ht => exact .spawn rfl ht rfl (by simp [waiting, ht]) Iff.rfl (hallow ht)
    · next ht => exact .quiet rfl (by simp [waiting, ht]) Iff.rfl
  | net n req => obtain ⟨-, rfl⟩ := exec_net hx; exact .quiet rfl rfl Iff.rfl
  | hypervisor n name => obtain ⟨-, rfl⟩ := exec_hypervisor hx; exact .quiet rfl rfl Iff.rfl
  | lock p => obtain ⟨-, rfl⟩ := exec_lock hx; exact .quiet rfl rfl Iff.rfl
  | unlock p => rw [exec_unlock hx]; exact .quiet rfl rfl Iff.rfl
  | insert p inst => rw [exec_insert hx]; exact .quiet rfl rfl Iff.rfl
  | remove p v => rw [exec_remove hx]; exact .quiet rfl rfl Iff.rfl
  | choose l => obtain ⟨rfl, -⟩ := exec_choose hx; exact .quiet rfl rfl Iff.rfl
  | pathExists path => obtain ⟨-, rfl⟩ := exec_pathExists hx; exact .quiet rfl rfl Iff.rfl

end Exec

/-- In order, and possibly cut short by an error. -/
def Forward (l : List EntityStatus) : Prop :=
  (∃ k, l = (goingUp ++ goingDown).take k) ∨
    ∃ k e, k < (goingUp ++ goingDown).length ∧ l = (goingUp ++ goingDown).take k ++ [.error e]

/-- `l` is written and `q` is left to write: of the way up, or of the whole course. -/
def OnCourse (l q : List EntityStatus) (down : Prop) : Prop :=
  l ++ q = goingUp ∨ l ++ q = goingUp ++ goingDown ∧ down

section Statuses

variable {l q : List EntityStatus} {down : Prop} {status : EntityStatus} {e : String}

theorem OnCourse.append (h : OnCourse l q down) : ∃ q', l ++ q ++ q' = goingUp ++ goingDown :=
  h.elim (fun h => ⟨goingDown, by rw [h]⟩) fun h => ⟨[], by rw [h.1, List.append_nil]⟩

theorem OnCourse.take (h : OnCourse l q down) : l = (goingUp ++ goingDown).take l.length := by
  obtain ⟨q', hq⟩ := h.append
  rw [← hq, List.append_assoc, List.take_left']
  rfl

theorem OnCourse.forward (h : OnCourse l q down) : Forward l := Or.inl ⟨_, h.take⟩

theorem OnCourse.error (h : OnCourse l q down) (hq : q ≠ []) : Forward (l ++ [.error e]) := by
  refine Or.inr ⟨l.length, e, ?_, by rw [← h.take]⟩
  obtain ⟨q', hq'⟩ := h.append
  have := List.length_pos_iff.2 hq
  rw [← hq', List.length_append, List.length_append]
  omega

/-- What has come to RUNNING last has come all the way up. -/
theorem Forward.up (h : Forward l) (hlast : l.getLast? = some .running) : l = goingUp := by
  rcases h with ⟨k, rfl⟩ | ⟨k, e, -, rfl⟩
  · rcases k with _ | _ | _ | _ | _ | _ | _ | _ | k
    case succ.succ.succ.succ.zero => rfl
    all_goals simp [goingUp, goingDown] at hlast
  · rw [List.getLast?_append_cons] at hlast
    cases hlast

theorem OnCourse.downward (h : OnCourse l q down) (hq : q ≠ []) (hlast : l.getLast? = some .running) :
    down := by
  have hl := h.forward.up hlast
  rcases h with h | h
  · rw [hl, List.append_right_eq_self] at h
    exact absurd h hq
  · exact h.2

theorem OnCourse.write (h : OnCourse l (status :: q) down) :
    restAfter (status :: q) status = q ∧ OnCourse (l ++ [status]) q down := by
  refine ⟨?_, by simpa [OnCourse] using h⟩
  obtain ⟨q', hq⟩ := h.append
  have hmem : status ∈ goingUp ++ goingDown := by
    rw [← hq]
    simp
  cases status with
  | error e => simp [goingUp, goingDown] at hmem
  | _ => rfl

end Statuses

/-- The records of entity instances are those that were written, each in place of the last one. -/
def Kept (s : Fos) : Prop := s.global.entityInstances = s.writes.foldl Table.put Table.empty

theorem Kept.of_writes {s s' : Fos} (h : Kept s) (hw : s.Writes s') : Kept s' := by
  unfold Kept
  cases hw with
  | none hst hw => rw [hst, hw, h]
  | one hst hw => rw [hst, hw, h, List.foldl_concat]

theorem Kept.getLast {u : Uuid} {s : Fos} {i : EntityRecord} (h : Kept s)
    (hi : s.global.getEntityInstance u = .ok i) : (written u s).getLast? = some i.status := by
  have hsame : ∀ j ∈ s.writes, j.uuid = u ↔ j.path = i.path := by
    refine fun j hj => ⟨fun hju => ?_, fun hp => (congrArg Prod.snd hp).trans (single_select_key hi).2⟩
    obtain ⟨j', hj', hp⟩ : ∃ j' ∈ s.global.entityInstances, j'.path = j.path := by
      rw [h]
      exact Table.exists_mem_foldl_put hj
    have hmem : j' ∈ s.global.entityInstances.select fun p => p.2 = u :=
      Table.mem_select.2 ⟨hj', (congrArg Prod.snd hp).trans hju⟩
    rw [single_eq_ok.1 hi, List.mem_singleton] at hmem
    rw [← hp, hmem]
  have hlast := Table.getLast_of_mem_foldl_put (h ▸ (single_select_key hi).1)
  unfold written
  rw [List.filter_congr fun j hj => decide_eq_decide.2 (hsame j hj), List.getLast?_map, hlast]
  rfl

instance (u : Uuid) : DecidablePred (Task.Deschedules u)
  | .deschedule _ _ inst => inferInstanceAs (Decidable (inst.uuid = u))
  | .schedule _ _ _ _ => .isFalse id

def Proc.Descends (u : Uuid) : Proc → Prop
  | .task t => t.Deschedules u
  | _ => False

instance (u : Uuid) : DecidablePred (Proc.Descends u)
  | .task t => inferInstanceAs (Decidable (t.Deschedules u))
  | .agent _ _ | .poll _ _ => .isFalse id

/-- Some task is to take `u` down, or does. -/
def Descending (u : Uuid) (w : Calls) : Prop :=
  (∃ t ∈ w.state.tasks, t.Deschedules u) ∨ ∃ t ∈ w.threads, t.proc.Descends u

def Fos.Running (u : Uuid) (s : Fos) : Prop :=
  ∃ i, s.global.getEntityInstance u = .ok i ∧ i.status = .running

/-- `u` is handed to a task that takes it down only while its stored status is RUNNING and
no other such task is under way. -/
def InTurn (u : Uuid) (l : Label Proc Choice Uuid) (w : Calls) : Prop :=
  ∀ i ch t, l = .fire i ch → w.upcoming i = some (.spawn t) → t.Deschedules u →
    w.state.Running u ∧ ¬ Descending u w

/-- Where the course of `u` stands: whose duty it is to write, and what there is. -/
inductive Standing (u : Uuid) (s : Fos) : Option (Proc × List EntityStatus) → Prop
  | resting : waiting u s = [] → Forward (written u s) → (u ∉ s.issued → written u s = []) →
      Standing u s none
  | spawned {t} : waiting u s = [t] → u ∈ s.issued →
      OnCourse (written u s) t.course (t.Deschedules u) → Standing u s none
  | writing {p q} : waiting u s = [] → u ∈ s.issued → q ≠ [] →
      OnCourse (written u s) q (p.Descends u) → Standing u s (some (p, q))

namespace Standing

variable {u : Uuid} {s s' : Fos} {x : Option (Proc × List EntityStatus)} {p : Proc}
  {q : List EntityStatus}

theorem congr (h : Standing u s x) (hw : written u s' = written u s)
    (ht : waiting u s' = waiting u s) (hu : u ∈ s'.issued ↔ u ∈ s.issued) : Standing u s' x := by
  cases h with
  | resting hnone hfwd hnew =>
    exact .resting (ht.trans hnone) (hw ▸ hfwd) fun h => hw.trans (hnew (mt hu.2 h))
  | spawned hone hu' hc => exact .spawned (ht.trans hone) (hu.2 hu') (hw ▸ hc)
  | writing hnone hu' hq hc => exact .writing (ht.trans hnone) (hu.2 hu') hq (hw ▸ hc)

theorem forward (h : Standing u s x) : Forward (written u s) := by
  cases h with
  | resting _ hfwd _ => exact hfwd
  | spawned _ _ hc => exact hc.forward
  | writing _ _ _ hc => exact hc.forward

theorem of_new (h : Standing u s x) (hu : u ∉ s.issued) :
    x = none ∧ waiting u s = [] ∧ written u s = [] := by
  cases h with
  | resting hnone _ hnew => exact ⟨rfl, hnone, hnew hu⟩
  | spawned _ hu' _ => exact absurd hu' hu
  | writing _ hu' _ _ => exact absurd hu' hu

/-- When `u` is RUNNING and no task takes it down, it has come all the way up, and nobody
is to write. -/
theorem of_running (h : Standing u s x) (hkept : Kept s) (hrun : s.Running u)
    (htask : ∀ t ∈ s.tasks, ¬ t.Deschedules u) (hproc : ∀ p q, x = some (p, q) → ¬ p.Descends u) :
    x = none ∧ waiting u s = [] ∧ written u s = goingUp := by
  obtain ⟨i, hi, hst⟩ := hrun
  have hlast := (hkept.getLast hi).trans (congrArg some hst)
  cases h with
  | resting hnone hfwd _ => exact ⟨rfl, hnone, hfwd.up hlast⟩
  | @spawned t hone _ hc =>
    have ht : t ∈ s.tasks := List.mem_of_mem_filter (hone ▸ List.mem_singleton_self t)
    exact absurd (hc.downward (by cases t <;> exact List.cons_ne_nil _ _) hlast) (htask t ht)
  | writing _ _ hq hc => exact absurd (hc.downward hq hlast) (hproc _ _ rfl)

end Standing

/-- One call or task at most has something to write of `u`, and it is on course. -/
def Steered (u : Uuid) (w : Calls) : Prop :=
  ∃ x, Sole (Advancing u) [] w.threads x ∧ Standing u w.state x

section Steps

variable {z : Session} {u : Uuid} {q : List EntityStatus} {w w' : Calls} {i : ℕ} {p : Proc}

theorem keeps_act {c : Cmd} {ch : Choice} {s s' : Fos} {r : c.Ans} {k : c.Ans → M p.Ret}
    (h : Thread.Keeps (Advancing u) q ⟨p, .act c k⟩) (hx : exec c ch s = some (r, s'))
    (hu : q ≠ [] → u ∈ s.issued) :
    Thread.Keeps (Advancing u) (c.remaining u q r) ⟨p, k r⟩ ∧
      Furthers u c s s' q (c.remaining u q r) := by
  refine ⟨h.2 r _ ⟨rfl, fun hmints => ?_, exec_honest hx⟩, exec_furthers h.1 hx⟩
  cases c with
  | newUuid =>
    by_contra hq
    exact (exec_newUuid hx).1 (hmints ▸ hu hq)
  | _ => exact hmints.elim

theorem Steered.act {c : Cmd} {ch : Choice} {s : Fos} {r : c.Ans} {k : c.Ans → M p.Ret}
    (h : Steered u w) (hkept : Kept w.state) (hi : w.threads[i]? = some ⟨p, .act c k⟩)
    (hx : exec c ch w.state = some (r, s))
    (hturn : ∀ t, c = .spawn t → t.Deschedules u → w.state.Running u ∧ ¬ Descending u w) :
    Steered u { w with state := s, threads := w.threads.set i ⟨p, k r⟩ } := by
  obtain ⟨x, hsole, hst⟩ := h
  cases hsole.at_index hi with
  | idle hk hset hbusy =>
    obtain ⟨hk', hf⟩ := keeps_act hk hx (absurd rfl)
    generalize c.remaining u [] r = q' at hk' hf
    cases hf with
    | quiet hw ht hu => exact ⟨x, hset _ hk', hst.congr hw ht hu⟩
    | mint hw ht hnew hu =>
      obtain ⟨hnone, hwait, hnil⟩ := hst.of_new hnew
      refine ⟨_, hbusy _ _ hnone hk', .writing (ht.trans hwait) hu (List.cons_ne_nil _ _) (Or.inl ?_)⟩
      rw [hw, hnil]
      rfl
    | fail _ _ _ hq => exact absurd rfl hq
    | @spawn _ t hc htu hw ht hu hcourse =>
      obtain ⟨-, hdown⟩ := hcourse.resolve_left (by cases t <;> exact (List.cons_ne_nil _ _).symm)
      obtain ⟨hrun, hnone⟩ := hturn t hc hdown
      obtain ⟨hx', hwait, hup⟩ := hst.of_running hkept hrun (fun t ht hd => hnone (Or.inl ⟨t, ht, hd⟩))
        fun p q hp hd => by
          subst hp
          obtain ⟨t, ht, rfl⟩ := hsole.exists_busy
          exact hnone (Or.inr ⟨t, ht, hd⟩)
      refine ⟨x, hset _ hk', hx' ▸ .spawned (t := t) ?_ (hu.2 ?_) (Or.inr ⟨?_, hdown⟩)⟩
      · rw [ht, hwait]
        rfl
      · by_contra hnew
        obtain ⟨-, -, hnil⟩ := hst.of_new hnew
        cases hnil.symm.trans hup
      · rw [hw, hup]
        cases t with
        | schedule => exact hdown.elim
        | deschedule => rfl
  | @busy q hx' hk hset =>
    subst hx'
    cases hst with
    | writing hwait hu hq hc =>
      obtain ⟨hk', hf⟩ := keeps_act hk hx fun _ => hu
      have hgo := hset _ _ hk'
      generalize c.remaining u q r = q' at hk' hf hgo
      cases hf with
      | quiet hw ht hu' => exact ⟨_, hgo, .writing (ht.trans hwait) (hu'.2 hu) hq (hw ▸ hc)⟩
      | mint _ _ hnew => exact absurd hu hnew
      | @write status q hw ht hu' =>
        obtain ⟨hrest, hc'⟩ := hc.write
        rw [hrest] at hgo
        by_cases hnil : q = []
        · subst hnil
          exact ⟨none, hgo.release, .resting (ht.trans hwait) (hw ▸ hc'.forward) fun h =>
            absurd (hu'.2 hu) h⟩
        · exact ⟨_, hgo, .writing (ht.trans hwait) (hu'.2 hu) hnil (hw ▸ hc')⟩
      | fail hw ht hu' hq =>
        exact ⟨none, hgo.release, .resting (ht.trans hwait) (hw ▸ hc.error hq) fun h =>
          absurd (hu'.2 hu) h⟩
      | @spawn _ t _ htu hw ht hu' hcourse =>
        obtain rfl := hcourse.resolve_right fun h => hq h.1
        refine ⟨none, hgo.release, .spawned (t := t) ?_ (hu'.2 hu) (hw ▸ hc.imp_right ?_)⟩
        · rw [ht, hwait]
          rfl
        · rintro ⟨h, -⟩
          refine ⟨h, ?_⟩
          cases t with
          | schedule =>
            have hlast := congrArg List.getLast? h
            rw [Task.course, List.getLast?_append_cons] at hlast
            cases hlast
          | deschedule => exact htu

theorem Steered.launch {s : Fos} (h : Steered u w) (hl : launch w.state = some (p, s)) :
    Steered u { w with state := s, threads := w.threads ++ [⟨p, body z p⟩] } := by
  obtain ⟨t, ts, hts, rfl, rfl⟩ := launch_eq_some hl
  obtain ⟨x, hsole, hst⟩ := h
  by_cases htu : t.inst.uuid = u
  · have hcons : waiting u w.state = t :: waiting u { w.state with tasks := ts } := by
      simp [waiting, hts, htu]
    have hk : Thread.Keeps (Advancing u) t.course ⟨.task t, body z (.task t)⟩ :=
      task_advancing fun _ => rfl
    cases hst with
    | spawned hone hu hc =>
      obtain ⟨rfl, hnil⟩ := List.cons.inj (hcons.symm.trans hone)
      exact ⟨_, hsole.append_busy hk, .writing hnil hu (by cases t <;> exact List.cons_ne_nil _ _) hc⟩
    | resting hnone => cases hcons.symm.trans hnone
    | writing hnone => cases hcons.symm.trans hnone
  · refine ⟨x, hsole.append_idle (task_advancing fun h => absurd h htu), hst.congr rfl ?_ Iff.rfl⟩
    simp [waiting, hts, htu]

theorem Steered.step {l : Label Proc Choice Uuid} (h : Steered u w) (hkept : Kept w.state)
    (hl : FromClients l) (hturn : InTurn u l w) (hs : (machine z).Step l w w') : Steered u w' := by
  cases hs with
  | @start _ p =>
    obtain ⟨x, hsole, hst⟩ := h
    cases p with
    | agent svc r => exact ⟨x, hsole.append_idle agent_advancing, hst⟩
    | _ => exact hl.elim
  | launch hlaunch => exact h.launch hlaunch
  | env hm =>
    obtain ⟨st, -, rfl⟩ := Option.map_eq_some_iff.1 hm
    obtain ⟨x, hsole, hst⟩ := h
    exact ⟨x, hsole, hst.congr rfl rfl Iff.rfl⟩
  | @act _ i ch p c k r s hi hx =>
    refine h.act hkept hi hx fun t hc hd => hturn i ch t rfl ?_ hd
    rw [← hc, Pool.upcoming, hi]
  | call hi =>
    obtain ⟨x, hsole, hst⟩ := h
    cases hsole.at_index hi with
    | idle hk hset => exact ⟨x, hset _ (hk.enter advancing_sound), hst⟩
    | busy hx hk hset => exact ⟨_, hset _ _ (hk.enter advancing_sound), hx ▸ hst⟩
  | done hi =>
    obtain ⟨x, hsole, hst⟩ := h
    cases hsole.at_index hi with
    | idle _ _ _ herase => exact ⟨x, herase, hst⟩
    | busy hx _ _ herase =>
      subst hx
      cases hst with
      | writing hwait hu _ hc =>
        exact ⟨none, herase, .resting hwait hc.forward fun h => absurd hu h⟩

end Steps

section Runs

variable {z : Session} {sites : List Site} {fdus : List FDUDescriptor}
  {entities : List EntityDescriptor} {u : Uuid} {w : Calls}

theorem boot_kept : Kept (boot sites fdus entities) := rfl

theorem boot_steered : Steered u (Pool.idle (boot sites fdus entities)) :=
  ⟨none, .nil, .resting rfl (Or.inl ⟨0, rfl⟩) fun _ => rfl⟩

/-- In every run in which `u` is handed only in its turn to tasks that take it down, the
statuses that are written of it are those of the course in order, possibly cut short by an
error. -/
theorem status_forward (hreach : (machine z).Reach (fun l w => FromClients l ∧ InTurn u l w)
    (Pool.idle (boot sites fdus entities)) w) : Forward (written u w.state) := by
  have hinv := hreach.inv (fun w => Kept w.state ∧ Steered u w) ⟨boot_kept, boot_steered⟩
    fun l w w' h hl hs => ⟨h.1.of_writes (writes_of_step hs), h.2.step h.1 hl.1 hl.2 hs⟩
  obtain ⟨-, x, -, hst⟩ := hinv
  exact hst.forward

end Runs

/-- A check that `u` is handed to a task in its turn. -/
def inTurn (u : Uuid) (l : Label Proc Choice Uuid) (w : Calls) : Bool :=
  match l with
  | .fire i _ =>
    match w.upcoming i with
    | some (.spawn t) => !decide (t.Deschedules u) ||
        ((w.state.global.getEntityInstance u).toOption.any fun i => i.status = .running) &&
          (w.state.tasks.all fun t => !decide (t.Deschedules u)) &&
            w.threads.all fun t => !decide (t.proc.Descends u)
    | _ => true
  | _ => true

theorem inTurn_sound {u : Uuid} {l : Label Proc Choice Uuid} {w : Calls} (h : inTurn u l w = true) :
    InTurn u l w := by
  rintro i ch t rfl hc hd
  simp only [inTurn, hc, hd, decide_true, Bool.not_true, Bool.false_or, Bool.and_eq_true,
    List.all_eq_true, Bool.not_eq_true', decide_eq_false_iff_not] at h
  obtain ⟨⟨hrun, htasks⟩, hthreads⟩ := h
  refine ⟨?_, ?_⟩
  · obtain ⟨i, hi, hst⟩ := exists_ok hrun
    exact ⟨i, hi, of_decide_eq_true hst⟩
  · rintro (⟨t', ht', hd'⟩ | ⟨t', ht', hd'⟩)
    · exact htasks t' ht' hd'
    · exact hthreads t' ht' hd'

/-- An entity instance goes up and comes down. -/
theorem status_forward_lives : ∃ w, (machine (Site.session oneSite)).Reach
    (fun l w => FromClients l ∧ InTurn 0 l w) (Pool.idle (boot oneSite [] [])) w ∧
    written 0 w.state = goingUp ++ goingDown ∧ Forward (written 0 w.state) := by
  have hrun : ((machine (Site.session oneSite)).script resolve
      (fun l w => decide (FromClients l) && inTurn 0 l w) lives (Pool.idle (boot oneSite [] []))).any
      (fun w => written 0 w.state = goingUp ++ goingDown) = true := by decide +kernel
  obtain ⟨w, hplay, hend⟩ := Machine.exists_script hrun
  have hreach := Machine.reach_of_script (G := fun l w => FromClients l ∧ InTurn 0 l w)
    (fun l w h => ⟨of_decide_eq_true (Bool.and_eq_true_iff.1 h).1,
      inTurn_sound (Bool.and_eq_true_iff.1 h).2⟩) hplay
  exact ⟨w, hreach, of_decide_eq_true hend, status_forward hreach⟩

/-- The entity instance is taken down while it is on its way up. -/
def crossing : List (Turn Proc Uuid) :=
  onboarding ++ [.start (.agent 100 (.scheduleEntity 60))] ++ fires 0 5 ++ [.launch] ++ fires 0 5 ++
    [.start (.agent 100 (.descheduleEntity 0))] ++ fires 1 3 ++ [.launch] ++ fires 1 2 ++ fires 0 1

/-- STARTING is written after STOPPING. -/
theorem status_backward : ∃ w, (machine (Site.session oneSite)).Reach (fun l _ => FromClients l)
    (Pool.idle (boot oneSite [] [])) w ∧
    written 0 w.state = [.onboarding, .onboarded, .stopping, .starting] ∧
    ¬ Forward (written 0 w.state) := by
  have hrun : (playClients oneSite crossing (Pool.idle (boot oneSite [] []))).any (fun w =>
      written 0 w.state = [.onboarding, .onboarded, .stopping, .starting]) = true := by
    decide +kernel
  obtain ⟨w, hplay, hend⟩ := Machine.exists_script hrun
  have hwritten := of_decide_eq_true hend
  refine ⟨w, reach_of_playClients hplay, hwritten, ?_⟩
  rw [hwritten]
  rintro (⟨k, hk⟩ | ⟨k, e, -, hk⟩)
  · have hlen := congrArg List.length hk
    rcases k with _ | _ | _ | k <;> cases hk
  · have hlast := congrArg List.getLast? hk
    rw [List.getLast?_append_cons] at hlast
    cases hlast

end Fog05
