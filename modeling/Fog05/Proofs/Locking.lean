import Fog05.Conc.Mutex
import Fog05.Proofs.Footprint
import Fog05.Proofs.Identity

/-! The lock of a hypervisor plugin, over all calls that are made at the same time. What a
call does to the plugin's own map of instances it does under the lock, with one lock at a
time, and it calls no agent meanwhile: so no circle of calls can wait for each other. -/

namespace Fog05

open Conc M

def Cmd.grip : Cmd → Grip Uuid
  | .lock p => .acquire p
  | .unlock p => .release p
  | .insert p _ | .remove p _ => .inside p
  | _ => .free

theorem Cmd.grip_eq_acquire {c : Cmd} {p : Uuid} (h : c.grip = .acquire p) : c = .lock p := by
  cases c <;> cases h
  rfl

theorem Cmd.grip_eq_release {c : Cmd} {p : Uuid} (h : c.grip = .release p) : c = .unlock p := by
  cases c <;> cases h
  rfl

theorem exec_ready (c : Cmd) (s : Fos) (h : ∀ p, c = .lock p → (s.plugin p).locked = false) :
    ∃ ch r s', exec c ch s = some (r, s') := by
  cases c with
  | access a => exact ⟨.go, _, _, rfl⟩
  | net n q => exact ⟨.net (.error .notFound), _, _, rfl⟩
  | lock p =>
    have hfree : ¬ (s.plugin p).locked = true := by simp [h p rfl]
    exact ⟨.go, _, _, if_neg hfree⟩
  | newUuid =>
    obtain ⟨u, hu⟩ := Infinite.exists_notMem_finset s.issued.toFinset
    have hnew : u ∉ s.issued := fun h => hu (List.mem_toFinset.2 h)
    exact ⟨.uuid u, u, _, if_neg hnew⟩
  | choose l =>
    cases l with
    | nil => exact ⟨.go, _, _, rfl⟩
    | cons u l => exact ⟨.pick 0, _, _, rfl⟩
  | pathExists path => exact ⟨.path true, _, _, rfl⟩
  | _ => exact ⟨.go, _, _, rfl⟩

theorem exec_locked {c : Cmd} {ch : Choice} {s s' : Fos} {r : c.Ans} {p : Uuid}
    (hc : ∀ p, c ≠ .lock p ∧ c ≠ .unlock p) (h : exec c ch s = some (r, s')) :
    (s'.plugin p).locked = (s.plugin p).locked := by
  cases c with
  | access a =>
    rcases exec_access h with ⟨-, hr⟩ | ⟨e, -, -, rfl⟩
    · obtain ⟨-, rfl⟩ := Prod.mk.inj hr
      cases a <;> rfl
    · rfl
  | net n q => obtain ⟨-, rfl⟩ := exec_net h; rfl
  | hypervisor n name => obtain ⟨-, rfl⟩ := exec_hypervisor h; rfl
  | lock p => exact absurd rfl (hc p).1
  | unlock p => exact absurd rfl (hc p).2
  | insert p' inst => rw [exec_insert h, Fos.setFdus_locked]
  | remove p' u => rw [exec_remove h, Fos.setFdus_locked]
  | newUuid => obtain ⟨-, rfl⟩ := exec_newUuid h; rfl
  | choose l => obtain ⟨rfl, -⟩ := exec_choose h; rfl
  | pathExists path => obtain ⟨-, rfl⟩ := exec_pathExists h; rfl
  | spawn t => rw [exec_spawn h]

def pluginLocks (z : Session) : Mutex (machine z) Uuid where
  grip := Cmd.grip
  taken s p := (s.plugin p).locked
  acquire {c p ch s r s'} hg hx := by
    obtain rfl := Cmd.grip_eq_acquire hg
    obtain ⟨hfree, rfl⟩ := exec_lock hx
    refine ⟨by simpa using hfree, fun p' => ?_⟩
    rw [Fos.setLock_locked]
    split <;> simp_all
  release {c p ch s r s'} hg hx p' := by
    obtain rfl := Cmd.grip_eq_release hg
    rw [exec_unlock hx, Fos.setLock_locked]
    split <;> simp_all
  other {c ch s r s'} hg hx := by
    refine funext fun p => exec_locked (fun p => ⟨?_, ?_⟩) hx
    · rintro rfl
      exact (hg p).1 rfl
    · rintro rfl
      exact (hg p).2 rfl
  move {n s s'} hm := by
    obtain ⟨st, -, rfl⟩ := Option.map_eq_some_iff.1 hm
    rfl
  launch {s p s'} hl := by
    obtain ⟨t, ts, -, -, rfl⟩ := launch_eq_some hl
    rfl
  ready c s h := exec_ready c s fun p hc => h p (hc ▸ rfl)

/-- Descriptors are put under a uuid. -/
def Cmd.Keyed : Cmd → Prop
  | .access (.putFdu d) => d.uuid ≠ none
  | .access (.putEntity d) => d.uuid ≠ none
  | _ => True

/-- What the calls do: one plugin's lock at a time, and no descriptor without a uuid. -/
abbrev Locking (z : Session) : Discipline Cmd.Ans Proc.Ret Exn (Option Uuid) :=
  (pluginLocks z).discipline.restrict Cmd.Keyed

namespace Cmd

/-- It has nothing to do with locks. -/
def Lockless (c : Cmd) : Prop := c.grip = .free ∧ c.Keyed

/-- It may be issued with the lock of plugin `p`. -/
def Under (p : Uuid) (c : Cmd) : Prop := (c.grip = .free ∨ c.grip = .inside p) ∧ c.Keyed

theorem Idle.lockless {c : Cmd} (h : c.Idle) : c.Lockless := by
  unfold Idle at h
  split at h <;> first | exact h.elim | exact ⟨rfl, trivial⟩

theorem Lockless.under {c : Cmd} {p : Uuid} (h : c.Lockless) : c.Under p := ⟨Or.inl h.1, h.2⟩

theorem Restores.under {n p : Uuid} {inst : FDURecord} {c : Cmd} (h : c.Restores n p inst) :
    c.Under p := by
  rcases h with h | ⟨r, rfl | rfl, -⟩
  · exact h.idle.lockless.under
  · exact ⟨Or.inl rfl, trivial⟩
  · exact ⟨Or.inr rfl, trivial⟩

end Cmd

section Clean

variable {α β : Type} {z : Session} {n p u svc : Uuid} {a : Agent}

/-- Without a lock before, without a lock after. -/
abbrev Clean (z : Session) (b : M α) : Prop := b.Follows (Locking z) (fun _ q => q = none) none

theorem clean_of_within {b : M α} (h : b.Within Cmd.Lockless fun _ => True) : Clean z b := by
  refine h.follows (J := fun q => q = none) (fun q c hq hc => ?_)
    (fun q p hq _ => ⟨hq, fun _ _ hb => hb⟩) rfl
  subst hq
  refine ⟨⟨?_, hc.2⟩, fun x q' hn => ?_⟩
  · simp only [Mutex.discipline, pluginLocks, hc.1]
  · obtain rfl : q' = (pluginLocks z).after none c := hn
    simp only [Mutex.after, pluginLocks, hc.1]

theorem clean_bind {b : M α} {f : α → M β} (hb : Clean z b) (hf : ∀ x, Clean z (f x)) :
    Clean z (b >>= f) :=
  follows_bind hb (fun x _ h => by subst h; exact hf x) fun _ _ h => h

theorem clean_remote {r : Rpc} {b : M r.Ret} (hb : Clean z b) : Clean z (remote z r b) := by
  refine follows_remote ⟨trivial, trivial⟩ (fun _ q₁ h₁ => ?_) fun _ q₁ h₁ => h₁
  obtain rfl : q₁ = none := h₁
  exact hb.mono fun o q₂ h₂ => ⟨⟨trivial, trivial⟩, fun _ q₃ h₃ => h₃.trans h₂⟩

theorem clean_withLock {b : M α} (hb : b.Within (Cmd.Under p) fun _ => False) :
    Clean z (DummyHypervisor.withLock p b) := by
  refine follows_withLock ⟨rfl, trivial⟩ fun _ q₁ h₁ => ?_
  obtain rfl : q₁ = some p := h₁
  refine (hb.follows (J := fun q => q = some p) (fun q c hq hc => ?_)
    (fun _ _ _ => False.elim) rfl).mono fun o q₂ h₂ => ⟨⟨h₂, trivial⟩, fun _ q₃ h₃ => h₃⟩
  subst hq
  refine ⟨⟨?_, hc.2⟩, fun x q' hn => ?_⟩
  · rcases hc.1 with hg | hg <;> simp only [Mutex.discipline, pluginLocks, hg]
  · obtain rfl : q' = (pluginLocks z).after (some p) c := hn
    rcases hc.1 with hg | hg <;> simp only [Mutex.after, pluginLocks, hg]

theorem lockless_of_idle : ∀ c : Cmd, c.Idle → c.Lockless := fun _ => Cmd.Idle.lockless

theorem lockless_of_plain : ∀ c : Cmd, c.Plain → c.Lockless := fun _ h => h.idle.lockless

namespace DummyHypervisor

theorem clean_getNodeUuid : Clean z (getNodeUuid z n) :=
  clean_of_within (within_getNodeUuid lockless_of_plain)

theorem clean_transition {before : FDUState} {work : FDURecord → M Unit}
    (hwork : ∀ inst, (work inst).Within (Cmd.Under p) fun _ => False) :
    Clean z (transition z n p before u work) := by
  refine clean_bind clean_getNodeUuid fun _ => clean_bind
    (clean_of_within (within_ask ⟨rfl, trivial⟩)) fun inst => ?_
  split
  · exact clean_withLock (within_bind (hwork inst) fun _ => trivial)
  · exact rfl

theorem Restoring.clean {b : M Uuid} (h : Restoring z n p u b) : Clean z b := by
  obtain ⟨before, work, rfl, hwork⟩ := h
  exact clean_transition fun inst => (hwork inst).mono (fun _ hc => hc.under) fun _ => id

theorem clean_defineFdu {fdu : FDUDescriptor} : Clean z (defineFdu z n p fdu) := by
  refine clean_bind clean_getNodeUuid fun _ => clean_withLock ?_
  have hnew : Cmd.Under p .newUuid := ⟨Or.inl rfl, trivial⟩
  have hput : ∀ i, Cmd.Under p (.access (.localPutInstance n i)) := fun _ => ⟨Or.inl rfl, trivial⟩
  have hinsert : ∀ i, Cmd.Under p (.insert p i) := fun _ => ⟨Or.inr rfl, trivial⟩
  exact within_bind (within_issue hnew) fun _ => within_bind within_unwrap fun _ =>
    within_bind (within_bind (within_ask (hput _)) fun _ => within_issue (hinsert _)) fun _ =>
      trivial

theorem clean_undefineFdu : Clean z (undefineFdu z n p u) := by
  refine clean_transition fun _ => ?_
  have hremove : Cmd.Under p (.remove p u) := ⟨Or.inr rfl, trivial⟩
  have hget : Cmd.Under p (.access (.localGetInstance n u)) := ⟨Or.inl rfl, trivial⟩
  have hdelete : ∀ f u, Cmd.Under p (.access (.localDeleteInstance n f u)) := fun _ _ =>
    ⟨Or.inl rfl, trivial⟩
  exact within_bind (within_issue hremove) fun _ => within_bind (within_ask hget) fun _ =>
    within_ask (hdelete _ _)

theorem clean_call (q : PluginRequest) : Clean z (call z n p q) := by
  refine clean_remote ?_
  cases q with
  | defineFdu fdu => exact clean_defineFdu
  | undefineFdu u => exact clean_undefineFdu
  | configureFdu u => exact restoring_configureFdu.clean
  | cleanFdu u => exact restoring_cleanFdu.clean
  | startFdu u => exact restoring_startFdu.clean
  | stopFdu u => exact restoring_stopFdu.clean
  | getFduStatus u =>
    exact clean_bind clean_getNodeUuid fun _ => clean_of_within (within_ask ⟨rfl, trivial⟩)

end DummyHypervisor

namespace Agent

variable {f : Uuid}

theorem clean_dispatch {work : FDURecord → Uuid → M FDURecord} {forward : Uuid → M FDURecord}
    (hwork : ∀ inst p, Clean z (work inst p)) (hforward : ∀ svc, Clean z (forward svc)) :
    Clean z (dispatch a u work forward) := by
  refine clean_bind (clean_of_within (within_ask ⟨rfl, trivial⟩)) fun inst => ?_
  split
  · exact clean_bind (clean_of_within (within_ask ⟨rfl, trivial⟩)) fun _ =>
      clean_bind (clean_of_within (within_issue ⟨rfl, trivial⟩)) fun _ =>
        clean_bind (clean_of_within within_okOr) fun _ => hwork _ _
  · exact clean_bind (clean_of_within (within_ask ⟨rfl, trivial⟩)) fun _ => hforward _

theorem clean_rpc (q : Request) : Clean z (rpc z svc q) :=
  clean_remote (clean_of_within (within_invoke trivial))

theorem clean_move {q : PluginRequest} {awaited : FDUState} : Clean z (move z a q awaited u p) :=
  clean_bind (DummyHypervisor.clean_call q) fun _ => clean_of_within (within_invoke trivial)

theorem clean_moving {q : PluginRequest} {awaited : FDUState} {r : Uuid → M FDURecord}
    (hr : ∀ svc, Clean z (r svc)) :
    Clean z (dispatch a u (fun _ => move z a q awaited u) r) :=
  clean_dispatch (fun _ _ => clean_move) hr

theorem clean_defineFdu : Clean z (defineFdu z a f) :=
  clean_bind (clean_of_within (within_ask ⟨rfl, trivial⟩)) fun _ =>
    clean_bind (clean_of_within (within_issue ⟨rfl, trivial⟩)) fun _ =>
      clean_bind (clean_of_within within_okOr) fun _ =>
        clean_bind (DummyHypervisor.clean_call _) fun _ =>
          clean_of_within (within_invoke trivial)

theorem clean_configureFdu : Clean z (configureFdu z a u) :=
  clean_moving fun _ => clean_rpc (.configureFdu u)

theorem clean_startFdu : Clean z (startFdu z a u) :=
  clean_moving fun _ => clean_rpc (.startFdu u)

theorem clean_stopFdu : Clean z (stopFdu z a u) :=
  clean_moving fun _ => clean_rpc (.stopFdu u)

theorem clean_cleanFdu : Clean z (cleanFdu z a u) :=
  clean_moving fun _ => clean_rpc (.cleanFdu u)

theorem clean_undefineFdu : Clean z (undefineFdu z a u) := by
  refine clean_dispatch (fun inst p => ?_) fun _ => clean_rpc _
  have hremove : Clean z (removeInstance u) :=
    clean_of_within (within_bind (within_ask ⟨rfl, trivial⟩) fun _ => within_ask ⟨rfl, trivial⟩)
  exact clean_bind (DummyHypervisor.clean_call _) fun _ => clean_bind hremove fun _ => rfl

theorem clean_scheduleFdu : Clean z (scheduleFdu z a f) := by
  refine clean_bind (clean_of_within (within_getCompatibleNodes lockless_of_plain fun _ => trivial))
    fun _ => clean_bind (clean_of_within (within_issue ⟨rfl, trivial⟩)) fun selected => ?_
  cases selected with
  | none => exact rfl
  | some svc =>
    dsimp only
    split
    · exact clean_defineFdu
    · exact clean_rpc _

theorem within_addFdu (fdu : FDUDescriptor) : (addFdu fdu).Within Cmd.Lockless fun _ => True := by
  cases h : fdu.uuid with
  | none => simp only [addFdu, h]; exact trivial
  | some f =>
    simp only [addFdu, h]
    exact within_ask ⟨rfl, by simp [Cmd.Keyed, h]⟩

theorem within_addEntity (entity : EntityDescriptor) :
    (addEntity entity).Within Cmd.Lockless fun _ => True := by
  cases h : entity.uuid with
  | none => simp only [addEntity, h]; exact trivial
  | some e =>
    simp only [addEntity, h]
    exact within_ask ⟨rfl, by simp [Cmd.Keyed, h]⟩

theorem clean_onboardFdu (fdu : FDUDescriptor) : Clean z (onboardFdu fdu) := by
  apply clean_of_within
  unfold onboardFdu
  split
  · exact within_bind (within_issue ⟨rfl, trivial⟩) fun _ =>
      within_bind (within_addFdu _) fun _ => trivial
  · exact within_bind (within_addFdu _) fun _ => trivial

theorem within_completeFdus (fdus : List FDUDescriptor) :
    (completeFdus fdus).Within Cmd.Lockless fun _ => True := by
  induction fdus with
  | nil => trivial
  | cons fdu fdus ih =>
    have hrest : ∀ ifdu : FDUDescriptor, (do
        let fdus ← completeFdus fdus
        pure (ifdu :: fdus) : M _).Within Cmd.Lockless fun _ => True := fun _ =>
      within_bind ih fun _ => trivial
    simp only [completeFdus]
    split
    · exact within_bind (within_issue ⟨rfl, trivial⟩) fun _ => hrest _
    · exact hrest _

theorem clean_onboardEntity (entity : EntityDescriptor) : Clean z (onboardEntity entity) := by
  apply clean_of_within
  apply within_bind (within_completeFdus _)
  intro fdus
  split
  · exact within_bind (within_issue ⟨rfl, trivial⟩) fun _ =>
      within_bind (within_addEntity _) fun _ => trivial
  · exact within_bind (within_addEntity _) fun _ => trivial

theorem clean_fduStatus : Clean z (fduStatus z a u) :=
  clean_of_within (within_fduStatus lockless_of_idle)

theorem clean_handle (q : Request) : Clean z (handle z a q) := by
  cases q with
  | checkFduCompatibility f =>
    exact clean_of_within (within_checkFduCompatibility lockless_of_plain)
  | scheduleEntity e =>
    exact clean_of_within (within_scheduleEntity lockless_of_idle (fun _ => ⟨rfl, trivial⟩)
      ⟨rfl, trivial⟩ fun _ => ⟨rfl, trivial⟩)
  | descheduleEntity e =>
    exact clean_of_within (within_descheduleEntity lockless_of_idle fun _ => ⟨rfl, trivial⟩)
  | scheduleFdu f => exact clean_scheduleFdu
  | onboardFdu fdu => exact clean_onboardFdu fdu
  | onboardEntity entity => exact clean_onboardEntity entity
  | defineFdu f => exact clean_defineFdu
  | configureFdu u => exact clean_configureFdu
  | startFdu u => exact clean_startFdu
  | stopFdu u => exact clean_stopFdu
  | cleanFdu u => exact clean_cleanFdu
  | undefineFdu u => exact clean_undefineFdu
  | offloadFdu f => exact clean_of_within (within_offloadFdu lockless_of_plain ⟨rfl, trivial⟩)
  | offloadEntity e => exact clean_of_within (within_offloadEntity lockless_of_plain ⟨rfl, trivial⟩)
  | fduStatus u => exact clean_fduStatus

end Agent

theorem clean_body (p : Proc) : Clean z (body z p) := by
  cases p with
  | agent svc q =>
    simp only [body]
    split
    · exact Agent.clean_handle q
    · exact rfl
  | poll u awaited => exact clean_of_within (within_poll lockless_of_idle trivial)
  | task t =>
    exact clean_of_within (Task.within lockless_of_idle (fun _ => ⟨rfl, trivial⟩)
      (fun _ _ _ => ⟨rfl, trivial⟩) fun _ _ _ => trivial)

end Clean

section Runs

variable {z : Session} {s : Fos} {w : Calls} {qs : List (Option Uuid)}

theorem locking_sound : (pluginLocks z).discipline.Sound (body z) := by
  intro q p hq
  obtain rfl : q = none := hq
  exact (clean_body p).of_restrict

/-- In every run each lock that is taken is had by one call. -/
theorem held_of_reach (hfree : ∀ p, (s.plugin p).locked = false)
    (hreach : (machine z).Reach (fun _ _ => True) (Pool.idle s) w) :
    ∃ qs, (pluginLocks z).Held w qs := by
  have hfirst : (pluginLocks z).Tally [] s := fun p => by
    change 0 = ((s.plugin p).locked).toNat
    rw [hfree p]
    rfl
  obtain ⟨qs, hthreads, hcount⟩ :=
    Pool.Ledger.of_reach (Mutex.accounts locking_sound) (fun _ _ _ => trivial) hfirst hreach
  exact ⟨qs, hthreads, hcount⟩

instance : Nonempty Choice := ⟨.go⟩

/-- A call goes on, or it waits for a plugin that another call is going to leave. -/
theorem moves_or_waits (hw : (pluginLocks z).Held w qs) {i : ℕ} (hi : i < w.threads.length) :
    (∃ ch w', (machine z).step (.fire i ch) w = some w') ∨
      ∃ p j, w.upcoming i = some (.lock p) ∧ (w.state.plugin p).locked = true ∧ j ≠ i ∧
        (machine z).Surely (fun w' => (w'.state.plugin p).locked = false) w j := by
  rcases hw.moves_or_waits (List.getElem?_eq_getElem hi) with h | ⟨c, p, j, hc, hg, hij, hj⟩
  · exact Or.inl h
  · obtain rfl := Cmd.grip_eq_acquire hg
    exact Or.inr ⟨p, j, hc, hw.taken hj, hij, hw.surely_released locking_sound hj⟩

/-- Over every run: a call that works on a plugin's map of instances is the only one to do so;
a call that cannot go on waits for another one to leave a plugin, which that one surely does;
and some call can always go on. -/
theorem plugin_locks (hfree : ∀ p, (s.plugin p).locked = false)
    (hreach : (machine z).Reach (fun _ _ => True) (Pool.idle s) w) :
    (∀ p i c, w.upcoming i = some c → c.grip.Needs p → (w.state.plugin p).locked = true ∧
      ∀ j c', w.upcoming j = some c' → c'.grip.Needs p → j = i) ∧
    (∀ i < w.threads.length, (∃ ch w', (machine z).step (.fire i ch) w = some w') ∨
      ∃ p j, w.upcoming i = some (.lock p) ∧ (w.state.plugin p).locked = true ∧ j ≠ i ∧
        (machine z).Surely (fun w' => (w'.state.plugin p).locked = false) w j) ∧
    (w.threads ≠ [] → ∃ i ch w', (machine z).step (.fire i ch) w = some w') := by
  obtain ⟨qs, hw⟩ := held_of_reach hfree hreach
  refine ⟨fun p i c hc hp => ?_, fun i hi => moves_or_waits hw hi, fun hsome => ?_⟩
  · have hi := hw.lock_of_needs hc hp
    exact ⟨hw.taken hi, fun j c' hc' hp' => hw.unique (hw.lock_of_needs hc' hp') hi⟩
  · rcases moves_or_waits hw (List.length_pos_iff.2 hsome) with ⟨ch, w', hs⟩ | ⟨p, j, -, hp, -, hj⟩
    · exact ⟨0, ch, w', hs⟩
    · -- the holder of the lock that the first call waits for
      cases hj with
      | now hfree' => exact absurd hp (by simp [hfree'])
      | step hgo _ =>
        obtain ⟨ch, w', hs⟩ := hgo w j .refl
        exact ⟨j, ch, w', hs⟩

/-- The command is the acquisition of this plugin's lock. -/
def Cmd.locks (p : Uuid) : Cmd → Bool
  | .lock q => q == p
  | _ => false

theorem Cmd.eq_of_locks {p : Uuid} {c : Cmd} (h : c.locks p = true) : c = .lock p := by
  cases c with
  | lock q => rw [eq_of_beq h]
  | _ => cases h

/-- Two instances are defined at the same time; the second call waits for the first one. -/
theorem plugin_locks_contended : ∃ w, (machine (Site.session oneSite)).Reach (fun _ _ => True)
      (Pool.idle (boot oneSite [.plain 50] [])) w ∧ w.upcoming 1 = some (.lock 7) ∧
    (w.state.plugin 7).locked = true ∧ ∃ p j, w.upcoming 1 = some (.lock p) ∧ j ≠ 1 ∧
      (machine (Site.session oneSite)).Surely (fun w' => (w'.state.plugin p).locked = false) w j := by
  have hrun : (playClients oneSite ([.start (.agent 100 (.defineFdu 50)),
      .start (.agent 100 (.defineFdu 50))] ++ fires 0 8 ++ fires 1 5)
      (Pool.idle (boot oneSite [.plain 50] []))).any (fun w =>
        (w.upcoming 1).any (Cmd.locks 7) && (w.state.plugin 7).locked) = true := by
    decide +kernel
  obtain ⟨w, hw, hend⟩ := (Option.any_eq_true _ _).1 hrun
  obtain ⟨hup, hlocked⟩ := Bool.and_eq_true_iff.1 hend
  have hreach : (machine (Site.session oneSite)).Reach (fun _ _ => True) _ w :=
    (reach_of_playClients hw).mono fun _ _ _ => trivial
  have hwait : w.upcoming 1 = some (.lock 7) := by
    obtain ⟨c, hc, hlocks⟩ := (Option.any_eq_true _ _).1 hup
    rw [hc, Cmd.eq_of_locks hlocks]
  have hlt : 1 < w.threads.length := by
    obtain ⟨p, k, hi⟩ := Pool.upcoming_eq_some.1 hwait
    exact (List.getElem?_eq_some_iff.1 hi).1
  refine ⟨w, hreach, hwait, hlocked, ?_⟩
  rcases (plugin_locks (fun _ => rfl) hreach).2.1 1 hlt with ⟨ch, w', hs⟩ | ⟨p, j, hp, -, hj, hsure⟩
  · obtain ⟨p, k, r, s, -, hx, -⟩ := (Machine.step_cases hs).of_upcoming hwait
    have hfree := (exec_lock hx).1
    simp [hlocked] at hfree
  · exact ⟨p, j, hp, hj, hsure⟩

end Runs

end Fog05
