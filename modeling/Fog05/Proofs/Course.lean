import Fog05.Conc.Sole
import Fog05.Proofs.Identity

/-! The course of an entity instance. The call that schedules it hands its record on to
a task, and so does every call that deschedules it; each of them writes its part of the
course. Nothing but the clients keeps two of them from writing at the same time. -/

namespace Fog05

open Conc M

/-- The statuses that the scheduling of an entity instance goes through. -/
def goingUp : List EntityStatus := [.onboarding, .onboarded, .starting, .running]

def goingDown : List EntityStatus := [.stopping, .stopped, .offloading, .offloaded]

/-- The statuses that a task is to write. -/
def Task.course : Task → List EntityStatus
  | .schedule _ _ _ _ => [.onboarded, .starting, .running]
  | .deschedule _ _ _ => goingDown

def Task.Deschedules (u : Uuid) : Task → Prop
  | .deschedule _ _ inst => inst.uuid = u
  | .schedule _ _ _ _ => False

/-- What is left to write after this one; nothing follows an error. -/
def restAfter (q : List EntityStatus) : EntityStatus → List EntityStatus
  | .error _ => []
  | _ => q.tail

/-- What is left to write of entity instance `u`. A call begins with what it has made up
itself, and hands the rest on to the task that it spawns. -/
def Cmd.remaining (u : Uuid) (q : List EntityStatus) : (c : Cmd) → c.Ans → List EntityStatus
  | .newUuid, v => if v = u then goingUp else q
  | .access (.putEntityInstance i), .ok _ => if i.uuid = u then restAfter q i.status else q
  | .spawn t, _ => if t.inst.uuid = u then [] else q
  | _, _ => q

/-- The command is answered with `u` as a new uuid. -/
def Cmd.Mints (u : Uuid) : (c : Cmd) → c.Ans → Prop
  | .newUuid, v => v = u
  | _, _ => False

/-- The calls that write no record of an entity instance. -/
def Proc.Minor : Proc → Prop
  | .task _ | .agent _ (.scheduleEntity _) | .agent _ (.descheduleEntity _) => False
  | _ => True

/-- To write the statuses of `u` in order, or an error instead of the next one. A task
that takes `u` down may be spawned by a call that has nothing to write itself. -/
def Advancing (u : Uuid) : Discipline Cmd.Ans Proc.Ret Exn (List EntityStatus) where
  allows q
    | .access (.putEntityInstance i) =>
        i.uuid = u → q.head? = some i.status ∨ q ≠ [] ∧ ∃ e, i.status = .error e
    | .spawn t => t.inst.uuid = u → q = t.course ∨ q = [] ∧ t.Deschedules u
    | _ => True
  next q c r q' := q' = c.remaining u q r ∧ (c.Mints u r → q = []) ∧ c.Honest r
  calls _ p := p.Minor
  back q _ _ q' := q ≠ [] → q' = q

section Follows

variable {α β : Type} {z : Session} {a : Agent} {u v : Uuid} {q l : List EntityStatus}
  {inst : EntityRecord} {status : EntityStatus}

theorem advancing_of_quiet {c : Cmd} (hc : c.Quiet) : (Advancing u).allows q c := by
  unfold Advancing
  dsimp only
  split <;> first | exact hc.elim | trivial

theorem advancing_keeps {c : Cmd} {r : c.Ans} {q' : List EntityStatus} (hc : c.Quiet)
    (hn : (Advancing u).next q c r q') (hq : q ≠ []) : q' = q := by
  obtain ⟨rfl, hmints, -⟩ := hn
  unfold Cmd.remaining
  split
  · exact if_neg fun hv => hq (hmints hv)
  · exact hc.elim
  · exact hc.elim
  · rfl

theorem advancing_of_within {b : M α} (h : b.Within Cmd.Quiet Proc.Minor) :
    b.Follows (Advancing u) (fun _ q' => q ≠ [] → q' = q) q :=
  h.grows (fun q q₁ q₂ h h' hq => by
      obtain rfl := h hq
      exact h' hq)
    (fun _ _ hc => ⟨advancing_of_quiet hc, fun _ _ => advancing_keeps hc⟩)
    (fun _ _ hp => ⟨hp, fun _ _ => id⟩) fun _ => rfl

theorem minor_agent (svc : Uuid) (r : Request) (hr : r.Minor) : (Proc.agent svc r).Minor := by
  cases r <;> first | exact hr | trivial

theorem minor_within {p : Proc} (hp : p.Minor) : (body z p).Within Cmd.Quiet Proc.Minor := by
  cases p with
  | poll u awaited => exact Prog.within_retry trivial trivial
  | task t => exact hp.elim
  | agent svc r =>
    simp only [body]
    split
    · by_cases hr : r.Minor
      · exact hr.within (fun _ h => h.quiet) (fun _ h => h.quiet) (fun _ => trivial)
          (fun _ _ => trivial) minor_agent
      · cases r with
        | onboardEntity entity => exact Agent.within_onboardEntity entity trivial fun _ => trivial
        | scheduleEntity e => exact hp.elim
        | descheduleEntity e => exact hp.elim
        | _ => exact absurd trivial hr
    · trivial

theorem advancing_sound : (Advancing u).Sound (body z) := fun _ _ hp =>
  advancing_of_within (minor_within hp)

/-- What is left to write is `l`, if `v` is the entity instance `u`. -/
def Bears (u v : Uuid) (l q : List EntityStatus) : Prop := v = u → q = l

/-- Record `v` is left with `l` to write; a failure comes before the last write. -/
def Leaves (u v : Uuid) (l : List EntityStatus) : Except Exn EntityRecord → List EntityStatus → Prop
  | .ok i, q => i.uuid = v ∧ Bears u v l q
  | .error _, q => v = u → q ≠ []

/-- An entity call fails only before its last write. -/
def Unfinished (u v : Uuid) (o : Except Exn α) (q : List EntityStatus) : Prop :=
  ∀ e, o = .error e → v = u → q ≠ []

theorem Bears.ne_nil (hq : Bears u v l q) (hl : l ≠ []) : v = u → q ≠ [] := fun hv => hq hv ▸ hl

theorem bears_bind {b : M α} {k : α → M β} {Φ : Except Exn β → List EntityStatus → Prop}
    (hq : Bears u v l q) (hl : l ≠ []) (hb : b.Within Cmd.Quiet Proc.Minor)
    (hk : ∀ x q', Bears u v l q' → (k x).Follows (Advancing u) Φ q')
    (herr : ∀ e q', (v = u → q' ≠ []) → Φ (.error e) q') : (b >>= k).Follows (Advancing u) Φ q := by
  have hbears : ∀ {q'}, (q ≠ [] → q' = q) → Bears u v l q' := fun h hu => by
    have hq := hq hu
    exact (h (hq ▸ hl)).trans hq
  exact follows_bind (advancing_of_within hb) (fun x q' h => hk x q' (hbears h))
    fun e q' h => herr e q' ((hbears h).ne_nil hl)

theorem writeStatus_bind {k : EntityRecord → M β} {Φ : Except Exn β → List EntityStatus → Prop}
    (hq : Bears u v (status :: l) q) (hu : inst.uuid = v) (hst : ∀ e, status ≠ .error e)
    (hk : ∀ i q', i.uuid = v → Bears u v l q' → (k i).Follows (Advancing u) Φ q')
    (herr : ∀ e q', (v = u → q' ≠ []) → Φ (.error e) q') :
    (Agent.writeStatus inst status >>= k).Follows (Advancing u) Φ q := by
  subst hu
  refine ⟨fun hu => Or.inl ?_, fun r q' hn => ?_⟩
  · rw [hq hu]
    rfl
  cases r with
  | ok x =>
    refine hk _ q' rfl fun hu => ?_
    rw [hn.1, hq hu]
    change (if inst.uuid = u then restAfter (status :: l) status else _) = l
    rw [if_pos hu]
    cases status with
    | error e => exact absurd rfl (hst e)
    | _ => rfl
  | error e =>
    apply herr _ q'
    intro hu
    rw [hn.1, hq hu]
    exact List.cons_ne_nil _ _

theorem idle_quiet (c : Cmd) (h : c.Idle) : c.Quiet := h.keeps.quiet

theorem scheduleFdus_advancing (fdus : List FDUDescriptor) (hq : Bears u v l q) (hl : l ≠ [])
    (hu : inst.uuid = v) :
    (Agent.scheduleFdus z a fdus inst).Follows (Advancing u) (Leaves u v l) q := by
  have hrpc : ∀ {svc : Uuid} {r : Request}, (Proc.agent svc r).Minor →
      (rpc z svc r).Within Cmd.Quiet Proc.Minor := fun hr =>
    within_remote (within_invoke hr) trivial fun _ => trivial
  induction fdus generalizing inst q with
  | nil => exact ⟨hu, hq⟩
  | cons fdu fdus ih =>
    refine bears_bind hq hl within_okOr (fun f q₁ hq₁ => ?_) fun _ _ h => h
    refine bears_bind hq₁ hl (hrpc trivial) (fun i q₂ hq₂ => ?_) fun _ _ h => h
    refine bears_bind hq₂ hl (Agent.within_client fun c h => idle_quiet c h.idle) (fun svc q₃ hq₃ => ?_)
      fun _ _ h => h
    exact bears_bind hq₃ hl (Agent.within_bringUp idle_quiet trivial trivial) (fun _ q₄ hq₄ => ih hq₄ hu)
      fun _ _ h => h

theorem entityScheduling_advancing {d : EntityDescriptor}
    (hq : Bears u v [.onboarded, .starting, .running] q) (hu : inst.uuid = v) :
    (Agent.entityScheduling z a inst d).Follows (Advancing u) (Unfinished u v) q := by
  have hfail : ∀ e q', (v = u → q' ≠ []) → Unfinished u v (.error e : Except Exn Unit) q' :=
    fun _ _ h _ _ => h
  refine bears_bind hq (List.cons_ne_nil _ _) (Agent.within_onboardFdus idle_quiet _ minor_agent)
    (fun _ q₁ hq₁ => ?_) hfail
  refine writeStatus_bind hq₁ hu (fun _ h => by cases h) (fun i₁ q₂ hu₁ hq₂ => ?_) hfail
  refine writeStatus_bind hq₂ hu₁ (fun _ h => by cases h) (fun i₂ q₃ hu₂ hq₃ => ?_) hfail
  refine follows_bind (scheduleFdus_advancing _ hq₃ (List.cons_ne_nil _ _) hu₂)
    (fun i₃ q₄ h => ?_) hfail
  exact writeStatus_bind h.2 h.1 (fun _ h => by cases h) (fun _ _ _ _ e he => by cases he) hfail

theorem entityUnscheduling_advancing (hq : Bears u v goingDown q) (hu : inst.uuid = v) :
    (Agent.entityUnscheduling z a inst).Follows (Advancing u) (Unfinished u v) q := by
  have hfail : ∀ e q', (v = u → q' ≠ []) → Unfinished u v (.error e : Except Exn Unit) q' :=
    fun _ _ h _ _ => h
  refine bears_bind hq (List.cons_ne_nil _ _) (within_ask trivial) (fun d q₁ hq₁ => ?_) hfail
  refine writeStatus_bind hq₁ hu (fun _ h => by cases h) (fun i₁ q₂ hu₁ hq₂ => ?_) hfail
  refine bears_bind hq₂ (List.cons_ne_nil _ _) (Agent.within_unscheduleFdus idle_quiet _ minor_agent)
    (fun _ q₃ hq₃ => ?_) hfail
  refine writeStatus_bind hq₃ hu₁ (fun _ h => by cases h) (fun i₂ q₄ hu₂ hq₄ => ?_) hfail
  refine writeStatus_bind hq₄ hu₂ (fun _ h => by cases h) (fun i₃ q₅ hu₃ hq₅ => ?_) hfail
  refine bears_bind hq₅ (List.cons_ne_nil _ _) (Agent.within_offloadFdus idle_quiet _ minor_agent)
    (fun _ q₆ hq₆ => ?_) hfail
  exact writeStatus_bind hq₆ hu₃ (fun _ h => by cases h) (fun _ _ _ _ e he => by cases he) hfail

theorem report_advancing {b : M Unit} (hu : inst.uuid = v)
    (hb : b.Follows (Advancing u) (Unfinished u v) q) :
    (Agent.report inst b).Follows (Advancing u) (fun _ _ => True) q := by
  refine (Prog.follows_bindE _ _ _).2 (hb.mono fun o q' ho => ?_)
  rcases o with (e | _) | _
  · exact ⟨fun hw => Or.inr ⟨ho _ rfl (hu ▸ hw), e.display, rfl⟩, fun r _ _ => by cases r <;> trivial⟩
  · trivial
  · trivial

theorem task_advancing {t : Task} (hq : t.inst.uuid = u → q = t.course) :
    (t.body z).Follows (Advancing u) (fun _ _ => True) q := by
  cases t with
  | schedule n svc inst d => exact report_advancing rfl (entityScheduling_advancing hq rfl)
  | deschedule n svc inst => exact report_advancing rfl (entityUnscheduling_advancing hq rfl)

theorem scheduleEntity_advancing {e : Uuid} :
    (Agent.scheduleEntity a e).Follows (Advancing u) (fun _ _ => True) [] := by
  refine follows_ask_bind trivial (fun d q₁ hn₁ => ?_) fun _ _ _ => trivial
  obtain rfl : q₁ = [] := hn₁.1
  apply follows_issue_bind trivial
  intro v q₂ hn₂
  have hq₂ : Bears u v goingUp q₂ := fun hv => hn₂.1.trans (if_pos hv)
  refine follows_okOr_bind (fun id _ => ?_) fun _ => trivial
  refine follows_ask_bind (fun hv => Or.inl ?_) (fun _ q₃ hn₃ => ?_) fun _ _ _ => trivial
  · rw [hq₂ hv]
    rfl
  · refine follows_issue_bind (fun hv => Or.inl ?_) fun _ _ _ => trivial
    rw [hn₃.1, hq₂ hv]
    exact if_pos hv

theorem descheduleEntity_advancing {e : Uuid} :
    (Agent.descheduleEntity a e).Follows (Advancing u) (fun _ _ => True) [] := by
  refine follows_ask_bind trivial (fun i q₁ hn => ?_) fun _ _ _ => trivial
  obtain rfl : q₁ = [] := hn.1
  exact follows_issue_bind (fun hu => Or.inr ⟨rfl, hu⟩) fun _ _ _ => trivial

theorem agent_advancing {svc : Uuid} {r : Request} :
    (body z (.agent svc r)).Follows (Advancing u) (fun _ _ => True) [] := by
  by_cases hr : (Proc.agent svc r).Minor
  · exact (advancing_sound [] _ hr).mono fun _ _ _ => trivial
  · simp only [body]
    split
    · cases r with
      | scheduleEntity e => exact scheduleEntity_advancing
      | descheduleEntity e => exact descheduleEntity_advancing
      | _ => exact absurd trivial hr
    · trivial

end Follows

end Fog05
