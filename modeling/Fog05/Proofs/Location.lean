import Fog05.Proofs.Entity

/-! Calling an agent that does not own the instance, compared with calling the
one that does. Calls are compared by what a client can get: the reply, and what
the stores hold when it arrives, whatever the monitoring tasks do meanwhile. -/

namespace Fog05

open Conc M Relation

/-- Rounds of the monitoring tasks lead from one state of the stores to the other. -/
def Store.Rounds : Store → Store → Prop :=
  ReflTransGen fun st st' => ∃ m, st.monitor m = some st'

/-- What a round leaves as it is: everything but the instances of the global
store, what is on its way to it, and which records may be found there. -/
structure Store.Copied (st st₁ : Store) : Prop where
  rest : st₁.global = { st.global with instances := st₁.global.instances }
  stored : ∀ n, (st₁.node n).instances = (st.node n).instances
  hypervisors : ∀ n, (st₁.node n).hypervisors = (st.node n).hypervisors
  known : ∀ i ∈ st₁.global.instances, i ∈ st.global.instances ∨ ∃ m, i ∈ (st.node m).changes
  changes : ∀ m, (st₁.node m).changes ⊆ (st.node m).changes

variable {st st₁ st₂ : Store} {n u svc : Uuid}

theorem Store.Copied.refl (st : Store) : st.Copied st :=
  ⟨rfl, fun _ => rfl, fun _ => rfl, fun _ => Or.inl, fun _ => List.Subset.refl _⟩

theorem Store.Copied.trans (h : st.Copied st₁) (h' : st₁.Copied st₂) : st.Copied st₂ where
  rest := by rw [h'.rest, h.rest]
  stored n := (h'.stored n).trans (h.stored n)
  hypervisors n := (h'.hypervisors n).trans (h.hypervisors n)
  known i hi := by
    rcases h'.known i hi with hi | ⟨m, hi⟩
    · exact h.known i hi
    · exact Or.inr ⟨m, h.changes m hi⟩
  changes m := List.Subset.trans (h'.changes m) (h.changes m)

theorem Store.Copied.getFdu (h : st.Copied st₁) (f : Uuid) :
    st₁.global.getFdu f = st.global.getFdu f := by
  rw [h.rest]
  rfl

theorem Store.Copied.getNodeInfo (h : st.Copied st₁) (m : Uuid) :
    st₁.global.getNodeInfo m = st.global.getNodeInfo m := by
  rw [h.rest]
  rfl

theorem Store.Copied.localGetInstance (h : st.Copied st₁) (m v : Uuid) :
    (st₁.node m).getInstance v = (st.node m).getInstance v := by
  rw [Node.getInstance, h.stored]
  rfl

theorem Store.copied_monitor {m : Uuid} (h : st.monitor m = some st₁) : st.Copied st₁ := by
  unfold Store.monitor at h
  split at h
  · cases h
  · next inst changes hch =>
    cases h
    have hnode : ∀ k, ((st.setNode m { st.node m with changes }).node k).instances =
        (st.node k).instances ∧ ((st.setNode m { st.node m with changes }).node k).hypervisors =
        (st.node k).hypervisors ∧ ((st.setNode m { st.node m with changes }).node k).changes ⊆
        (st.node k).changes := by
      intro k
      simp only [Store.setNode, Function.update_apply]
      split
      · next hk =>
        subst hk
        exact ⟨rfl, rfl, hch ▸ List.subset_cons_self _ _⟩
      · exact ⟨rfl, rfl, List.Subset.refl _⟩
    refine ⟨rfl, fun k => (hnode k).1, fun k => (hnode k).2.1, fun i hi => ?_,
      fun k => (hnode k).2.2⟩
    rcases Table.mem_put.1 hi with rfl | hi
    · exact Or.inr ⟨m, hch ▸ List.mem_cons_self ..⟩
    · exact Or.inl hi.1

theorem Store.Rounds.copied (h : st.Rounds st₁) : st.Copied st₁ := by
  induction h with
  | refl => exact .refl st
  | tail _ hm ih =>
    obtain ⟨m, hm⟩ := hm
    exact ih.trans (copied_monitor hm)

variable {z : Session} {s s₁ s' : Fos} {α β : Type}

theorem env_iff_rounds : ReflTransGen (system z Reliable).env s s₁ ↔
    ∃ st, s.Rounds st ∧ s₁ = { s with toStore := st } := by
  constructor
  · intro h
    induction h with
    | refl => exact ⟨s.toStore, .refl, rfl⟩
    | tail _ he ih =>
      obtain ⟨st, hst, rfl⟩ := ih
      obtain ⟨m, hm⟩ := he
      obtain ⟨st', hst', rfl⟩ := Option.map_eq_some_iff.1 hm
      exact ⟨st', hst.tail ⟨m, hst'⟩, rfl⟩
  · rintro ⟨st, hst, rfl⟩
    induction hst with
    | refl => exact .refl
    | tail _ hm ih =>
      obtain ⟨m, hm⟩ := hm
      exact ih.tail ⟨m, by simp [machine, hm]⟩

theorem ends_ask {a : Access} {k : Except Exn a.Ret → M β} {o : Except Exn β} :
    (system z Reliable).Ends ((ask a).bindE k) s o s' ↔ ∃ st, s.Rounds st ∧
      (system z Reliable).Ends (k ((a.run { s with toStore := st }).1.mapError .err))
        (a.run { s with toStore := st }).2 o s' := by
  refine System.ends_act.trans ⟨?_, ?_⟩
  · rintro ⟨s₁, r, s₂, hs, ⟨ch, hch, hx⟩, h⟩
    obtain ⟨st, hst, rfl⟩ := env_iff_rounds.1 hs
    obtain ⟨-, hr⟩ | ⟨e, rfl, -⟩ := exec_access hx
    · rw [Prog.bindE_final] at h
      refine ⟨st, hst, ?_⟩
      rw [hr]
      exact h
    · exact hch.elim
  · rintro ⟨st, hst, h⟩
    refine ⟨_, (a.run { s with toStore := st }).1, (a.run { s with toStore := st }).2,
      env_iff_rounds.2 ⟨st, hst, rfl⟩, ⟨.go, trivial, rfl⟩, ?_⟩
    rw [Prog.bindE_final]
    exact h

/-- A remote call: rounds, the call at the server, more rounds, and the reply. -/
theorem ends_remote {q : Rpc} {b : M q.Ret} {o : Except Exn q.Ret} :
    (system z Reliable).Ends (remote z q b) s o s' ↔ ∃ st o₁ s₂ st₂, s.Rounds st ∧
      (system z Reliable).Ends b { s with toStore := st } o₁ s₂ ∧ s₂.Rounds st₂ ∧
      o = (received z o₁).mapError .err ∧
      s' = { s₂ with toStore := st₂, replies := s₂.replies ++ [⟨q, received z o₁⟩] } := by
  refine ends_ask.trans (exists_congr fun st => ?_)
  have htail : ∀ {o₁ s₂}, (system z Reliable).Ends (ask (.reply q (received z o₁))) s₂ o s' ↔
      ∃ st₂, s₂.Rounds st₂ ∧ o = (received z o₁).mapError .err ∧
        s' = { s₂ with toStore := st₂, replies := s₂.replies ++ [⟨q, received z o₁⟩] } := by
    intro o₁ s₂
    rw [← Prog.bindE_final_right (ask _)]
    exact ends_ask.trans (exists_congr fun st₂ => and_congr_right fun _ => System.ends_final)
  rw [show (Prog.onOk _ _ : M q.Ret) = b.bindE fun o => ask (.reply q (received z o)) from
    Prog.attempt_bind _ _]
  rw [System.ends_bindE]
  simp only [htail]
  tauto

theorem ends_remote_at_once {q : Rpc} {b : M q.Ret} {o : Except Exn q.Ret}
    (h : (system z Reliable).Ends b s o s') : ∃ l, (system z Reliable).Ends (remote z q b) s
      ((received z o).mapError .err) { s' with replies := l } :=
  ⟨_, ends_remote.2 ⟨s.toStore, o, s', s'.toStore, .refl, h, .refl, rfl, rfl⟩⟩

theorem ends_getNodeUuid : ∃ l, (system z Reliable).Ends (DummyHypervisor.getNodeUuid z n) s
    (.ok n) { s with replies := l } :=
  ends_remote_at_once (q := .agentPlugin n .getNodeUuid)
    (System.ends_final (o := .ok n).2 ⟨rfl, rfl⟩)

/-- What the caller of `p` can get: the reply, and what the stores hold then. -/
def Replied (z : Session) (p : M α) (s : Fos) (o : Except Exn α) (st : Store) : Prop :=
  ∃ o₁ s₁, (system z Reliable).Ends p s o₁ s₁ ∧ s₁.Rounds st ∧ o = (received z o₁).mapError .err

theorem replied_final {o₁ o : Except Exn α} :
    Replied z (.final o₁) s o st ↔ s.Rounds st ∧ o = (received z o₁).mapError .err := by
  constructor
  · rintro ⟨_, _, hend, hst, ho⟩
    obtain ⟨rfl, rfl⟩ := System.ends_final.1 hend
    exact ⟨hst, ho⟩
  · rintro ⟨hst, ho⟩
    exact ⟨o₁, s, System.ends_final.2 ⟨rfl, rfl⟩, hst, ho⟩

theorem Replied.rounds {p : M α} (hst : s.Rounds st) {o : Except Exn α}
    (h : Replied z p { s with toStore := st } o st₁) : Replied z p s o st₁ := by
  rcases p.running_or_final with hp | ⟨o₁, rfl⟩
  · obtain ⟨o₁, s₁, hend, hr⟩ := h
    exact ⟨o₁, s₁, hend.envs hp (env_iff_rounds.2 ⟨st, hst, rfl⟩), hr⟩
  · obtain ⟨hr, ho⟩ := replied_final.1 h
    exact replied_final.2 ⟨hst.trans hr, ho⟩

theorem replied_ask {a : Access} {k : Except Exn a.Ret → M β} {o : Except Exn β} :
    Replied z ((ask a).bindE k) s o st₁ ↔ ∃ st, s.Rounds st ∧
      Replied z (k ((a.run { s with toStore := st }).1.mapError .err))
        (a.run { s with toStore := st }).2 o st₁ := by
  simp only [Replied, ends_ask]
  tauto

theorem replied_read {a : Access} {k : Except Exn a.Ret → M β} {o : Except Exn β}
    {r : Except FError a.Ret}
    (ha : ∀ st, s.Rounds st → a.run { s with toStore := st } = (r, { s with toStore := st })) :
    Replied z ((ask a).bindE k) s o st₁ ↔ Replied z (k (r.mapError .err)) s o st₁ := by
  refine replied_ask.trans ⟨?_, fun h => ⟨s.toStore, .refl, ?_⟩⟩
  · rintro ⟨st, hst, h⟩
    rw [ha st hst] at h
    exact h.rounds hst
  · rw [ha s.toStore .refl]
    exact h

theorem replied_hypervisor {name : String} {f : Option Uuid → M β} {o : Except Exn β} :
    Replied z (issue (.hypervisor n name) >>= f) s o st₁ ↔
      Replied z (f ((s.node n).hypervisors name)) s o st₁ := by
  constructor
  · rintro ⟨o₁, s₁, hend, hr, ho⟩
    obtain ⟨s₂, r, s₃, hs, ⟨ch, hch, hx⟩, h⟩ := System.ends_act.1 hend
    obtain ⟨st, hst, rfl⟩ := env_iff_rounds.1 hs
    obtain ⟨rfl, rfl⟩ := exec_hypervisor hx
    rw [hst.copied.hypervisors] at h
    exact Replied.rounds hst ⟨o₁, s₁, h, hr, ho⟩
  · rintro ⟨o₁, s₁, hend, hr, ho⟩
    exact ⟨o₁, s₁, System.ends_act.2 ⟨s, _, s, .refl, ⟨.go, trivial, rfl⟩, hend⟩, hr, ho⟩

theorem received_received (o : Except Exn α) :
    received z ((received z o).mapError .err) = received z o := by
  cases o with
  | ok a => rfl
  | error e => cases e <;> rfl

theorem replied_rpc (hsvc : z.server svc = some n) {q : Request}
    (hp : (Agent.handle z ⟨n, svc⟩ q).Running) {o : Except Exn q.Ret} :
    Replied z (rpc z svc q) s o st ↔ Replied z (Agent.handle z ⟨n, svc⟩ q) s o st := by
  have hbody : (system z Reliable).body (Proc.agent svc q) = Agent.handle z ⟨n, svc⟩ q := by
    simp [machine, Machine.system, body, hsvc]
  have hinvoke : ∀ {s o₁ s₁}, (system z Reliable).Ends (Prog.invoke (Proc.agent svc q)) s o₁ s₁ ↔
      (system z Reliable).Ends (Agent.handle z ⟨n, svc⟩ q) s o₁ s₁ := by
    intro s o₁ s₁
    refine System.ends_call.trans ⟨?_, fun h => ⟨s, .refl, ?_⟩⟩
    · rintro ⟨s₂, hs₂, h⟩
      rw [Prog.bindE_final_right, hbody] at h
      exact h.envs hp hs₂
    · rw [Prog.bindE_final_right, hbody]
      exact h
  constructor
  · rintro ⟨_, _, hend, hst, rfl⟩
    obtain ⟨st₁, o₁, s₂, st₂, hs, h, hst₂, rfl, rfl⟩ := ends_remote.1 hend
    refine Replied.rounds hs ⟨o₁, s₂, hinvoke.1 h, hst₂.trans hst, ?_⟩
    rw [received_received]
  · rintro ⟨o₁, s₁, hend, hst, rfl⟩
    refine ⟨(received z o₁).mapError .err, _, ends_remote.2
      ⟨s.toStore, o₁, s₁, st, .refl, hinvoke.2 hend, hst, rfl, rfl⟩, .refl, ?_⟩
    rw [received_received]

/-- The lifecycle calls on an instance. -/
inductive Lifecycle
  | configure
  | start
  | stop
  | clean
  | undefine

namespace Lifecycle

def call (z : Session) (service u : Uuid) : Lifecycle → M FDURecord
  | configure => rpc z service (.configureFdu u)
  | start => rpc z service (.startFdu u)
  | stop => rpc z service (.stopFdu u)
  | clean => rpc z service (.cleanFdu u)
  | undefine => rpc z service (.undefineFdu u)

/-- What an agent that does not own the instance asks the owner to do. -/
def forwarded : Lifecycle → Lifecycle
  | undefine => clean
  | op => op

/-- What the owner does once it has the record and the plugin. -/
def work (z : Session) (a : Agent) (u : Uuid) : Lifecycle → FDURecord → Uuid → M FDURecord
  | configure, _ => Agent.move z a (.configureFdu u) .configured u
  | start, _ => Agent.move z a (.startFdu u) .running u
  | stop, _ => Agent.move z a (.stopFdu u) .configured u
  | clean, _ => Agent.move z a (.cleanFdu u) .defined u
  | undefine, inst => fun plugin => do
      let _ ← DummyHypervisor.call z a.nodeUuid plugin (.undefineFdu u)
      removeInstance u
      pure inst

end Lifecycle

theorem replied_call (hsvc : z.server svc = some n) (op : Lifecycle) {o : Except Exn FDURecord} :
    Replied z (op.call z svc u) s o st ↔ Replied z (Agent.dispatch ⟨n, svc⟩ u
      (op.work z ⟨n, svc⟩ u) fun client => op.forwarded.call z client u) s o st := by
  cases op with
  | configure => exact replied_rpc (q := .configureFdu u) hsvc trivial
  | start => exact replied_rpc (q := .startFdu u) hsvc trivial
  | stop => exact replied_rpc (q := .stopFdu u) hsvc trivial
  | clean => exact replied_rpc (q := .cleanFdu u) hsvc trivial
  | undefine => exact replied_rpc (q := .undefineFdu u) hsvc trivial

/-- The instance is one of node `n`, also where its record is still on its way. -/
structure Owns (st : Store) (n u : Uuid) : Prop where
  known : ∀ inst ∈ st.global.instances, inst.uuid = u → inst.node = n
  coming : ∀ m, ∀ inst ∈ (st.node m).changes, inst.uuid = u → inst.node = n

theorem Owns.rounds (h : Owns st n u) (hst : st.Rounds st₁) : Owns st₁ n u where
  known i hi hu := by
    rcases hst.copied.known i hi with hi | ⟨m, hi⟩
    · exact h.known i hi hu
    · exact h.coming m i hi hu
  coming m i hi hu := h.coming m i (hst.copied.changes m hi) hu

theorem Owns.getInstance (h : Owns st n u) {inst : FDURecord}
    (hinst : st.global.getInstance u = .ok inst) : inst.node = n := by
  obtain ⟨hmem, hu⟩ := single_select_key hinst
  exact h.known inst hmem hu

/-- What the frame of a lifecycle call finds at the owner: the record of the
instance and the plugin to call. -/
def lookup (st : Store) (n u : Uuid) : Except FError (FDURecord × Uuid) :=
  match st.global.getInstance u with
  | .error e => .error e
  | .ok inst =>
      match st.global.getFdu inst.fduUuid with
      | .error e => .error e
      | .ok descriptor =>
          match (st.node n).hypervisors descriptor.hypervisor with
          | none => .error .notFound
          | some plugin => .ok (inst, plugin)

theorem replied_elsewhere (hadv : Advertised z s) (howns : Owns s.toStore n u)
    (hinfo : ∃ info, s.global.getNodeInfo n = .ok info) (hsvc : z.server svc = some n)
    {a : Agent} (ha : a.nodeUuid ≠ n) {work : FDURecord → Uuid → M FDURecord} (op : Lifecycle)
    {o : Except Exn FDURecord} :
    Replied z (Agent.dispatch a u work fun client => op.call z client u) s o st ↔
      Replied z (op.call z svc u) s o st := by
  obtain ⟨info, hinfo⟩ := hinfo
  obtain ⟨hmem, hn⟩ := getNodeInfo_uuid hinfo
  have hserver : z.server info.agentServiceUuid = some n := hn ▸ hadv info hmem
  -- the owner, whichever of its names it is called by
  have howner : ∀ s o st, Replied z (op.call z info.agentServiceUuid u) s o st ↔
      Replied z (op.call z svc u) s o st := fun s o st => by
    rw [replied_call hserver, replied_call hsvc]
    cases op <;> rfl
  -- found at the entry: ask for the owner's node, and call the owner
  have hfound : ∀ st₁ inst, s.Rounds st₁ → st₁.global.getInstance u = .ok inst →
      (Replied z (if inst.node = a.nodeUuid then
          (do
            let descriptor ← ask (.getFdu inst.fduUuid)
            let hypervisor ← issue (.hypervisor a.nodeUuid descriptor.hypervisor)
            let plugin ← okOr .notFound hypervisor
            work inst plugin)
        else do
          let nodeInfo ← ask (.getNodeInfo inst.node)
          op.call z nodeInfo.agentServiceUuid u) { s with toStore := st₁ } o st ↔
        Replied z (op.call z svc u) { s with toStore := st₁ } o st) := by
    intro st₁ inst hst₁ hget
    rw [(howns.rounds hst₁).getInstance hget, if_neg (Ne.symm ha), ← howner]
    have hnode : ∀ st₂, st₁.Rounds st₂ → st₂.global.getNodeInfo n = .ok info := fun st₂ hst₂ => by
      rw [hst₂.copied.getNodeInfo, hst₁.copied.getNodeInfo, hinfo]
    exact replied_read (a := .getNodeInfo n) (r := .ok info) fun st₂ hst₂ => by
      rw [← hnode st₂ hst₂]
      rfl
  refine replied_ask.trans ⟨?_, fun h => ?_⟩
  · rintro ⟨st₁, hst₁, h⟩
    apply Replied.rounds hst₁
    cases hget : st₁.global.getInstance u with
    | error e =>
      rw [replied_call hsvc]
      refine replied_ask.2 ⟨st₁, .refl, ?_⟩
      simpa [Access.run, hget, Except.mapError] using h
    | ok inst =>
      apply (hfound st₁ inst hst₁ hget).1
      simpa [Access.run, hget, Except.mapError] using h
  · rw [replied_call hsvc] at h
    obtain ⟨st₁, hst₁, h⟩ := replied_ask.1 h
    refine ⟨st₁, hst₁, ?_⟩
    cases hget : st₁.global.getInstance u with
    | error e => simpa [Access.run, hget, Except.mapError] using h
    | ok inst =>
      have hcall : Replied z (op.call z svc u) { s with toStore := st₁ } o st := by
        rw [replied_call hsvc]
        exact replied_ask.2 ⟨st₁, .refl, h⟩
      simpa [Access.run, hget, Except.mapError] using (hfound st₁ inst hst₁ hget).2 hcall

/-- The work on what the frame has found. -/
def proceed (work : FDURecord → Uuid → M FDURecord) :
    Except FError (FDURecord × Uuid) → M FDURecord
  | .error e => fail e
  | .ok (inst, plugin) => work inst plugin

/-- At the owner: rounds, then the work on what the frame finds. -/
theorem replied_owner (howns : Owns s.toStore n u) {work : FDURecord → Uuid → M FDURecord}
    {forward : Uuid → M FDURecord} {o : Except Exn FDURecord} :
    Replied z (Agent.dispatch ⟨n, svc⟩ u work forward) s o st ↔ ∃ st₁, s.Rounds st₁ ∧
      Replied z (proceed work (lookup st₁ n u)) { s with toStore := st₁ } o st := by
  refine replied_ask.trans (exists_congr fun st₁ => and_congr_right fun hst₁ => ?_)
  unfold lookup
  cases hget : st₁.global.getInstance u with
  | error e => rw [Access.run, hget]; rfl
  | ok inst =>
    have hn := (howns.rounds hst₁).getInstance hget
    simp only [Access.run, hget, Except.mapError, Prog.onOk_ok, hn, if_true]
    have hread := fun st₂ (hst₂ : st₁.Rounds st₂) => hst₂.copied.getFdu inst.fduUuid
    refine (replied_read (a := .getFdu inst.fduUuid) (r := st₁.global.getFdu inst.fduUuid)
      fun st₂ hst₂ => by rw [← hread st₂ hst₂]; rfl).trans ?_
    cases st₁.global.getFdu inst.fduUuid with
    | error e => rfl
    | ok d =>
      refine replied_hypervisor.trans ?_
      cases hp : (st₁.node n).hypervisors d.hypervisor <;> simp only [hp] <;> rfl

/-- Why the plugin of node `n` refuses a call that needs its instance in status `before`. -/
def refusal (st : Store) (n u : Uuid) (before : FDUState) : Option FError :=
  match (st.node n).getInstance u with
  | .error e => some e
  | .ok inst => if inst.status = before then none else some .transitionNotAllowed

theorem refusal_rounds (hst : st.Rounds st₁) (before : FDUState) :
    refusal st₁ n u before = refusal st n u before := by
  rw [refusal, hst.copied.localGetInstance]
  rfl

section Refused

variable {p : Uuid} {before : FDUState} {w : FDURecord → M Unit} {e : FError}

theorem transition_refused (hst : s.Rounds st) (h : refusal s.toStore n u before = some e) :
    (Prog.onOk (fun inst : FDURecord => if inst.status = before then
        DummyHypervisor.withLock p do w inst; pure u
      else fail .transitionNotAllowed) (((st.node n).getInstance u).mapError .err) : M Uuid) =
    .final (.error (.err e)) := by
  rw [← refusal_rounds hst, refusal] at h
  split at h
  · next hget => cases h; rw [hget]; rfl
  · next inst hget =>
    rw [hget]
    split at h
    · cases h
    · next hne => cases h; simp [Except.mapError, hne, fail]

theorem ends_refused (h : refusal s.toStore n u before = some e) {o : Except Exn Uuid}
    (hend : (system z Reliable).Ends (DummyHypervisor.transition z n p before u w) s o s') :
    o = .error (.err e) ∧ s.Rounds s'.toStore := by
  obtain ⟨o₁, s₁, h₁, h₂⟩ := System.ends_bindE.1 hend
  obtain ⟨st₁, o₂, s₂, st₂, hst₁, h₃, hst₂, rfl, rfl⟩ := ends_remote.1 h₁
  obtain ⟨rfl, rfl⟩ := System.ends_final (o := .ok n).1 h₃
  obtain ⟨st₃, hst₃, h₄⟩ := ends_ask.1 h₂
  have hst : s.Rounds st₃ := (hst₁.trans hst₂).trans hst₃
  rw [Access.run, transition_refused hst h] at h₄
  obtain ⟨rfl, rfl⟩ := System.ends_final.1 h₄
  exact ⟨rfl, hst⟩

theorem ends_of_refused (h : refusal s.toStore n u before = some e) : ∃ l,
    (system z Reliable).Ends (DummyHypervisor.transition z n p before u w) s
      (.error (.err e)) { s with replies := l } := by
  obtain ⟨l, hl⟩ := ends_getNodeUuid (z := z) (n := n) (s := s)
  refine ⟨l, System.ends_bindE.2 ⟨.ok n, _, hl, ends_ask.2 ⟨s.toStore, .refl, ?_⟩⟩⟩
  rw [Access.run, transition_refused .refl h]
  exact System.ends_final.2 ⟨rfl, rfl⟩

end Refused

theorem replied_failing {r : Rpc} {b : M r.Ret} {k : r.Ret → M β} {e : FError}
    (hfail : ∀ st o s', s.Rounds st → (system z Reliable).Ends b { s with toStore := st } o s' →
      o = .error (.err e) ∧ st.Rounds s'.toStore)
    (hend : ∃ l, (system z Reliable).Ends b s (.error (.err e)) { s with replies := l })
    {o : Except Exn β} :
    Replied z (remote z r b >>= k) s o st ↔ s.Rounds st ∧ o = .error (.err e) := by
  constructor
  · rintro ⟨o₁, s₁, h, hst, rfl⟩
    obtain ⟨o₂, s₂, h₁, h₂⟩ := System.ends_bindE.1 h
    obtain ⟨st₁, o₃, s₃, st₃, hst₁, h₃, hst₃, rfl, rfl⟩ := ends_remote.1 h₁
    obtain ⟨rfl, hst₂⟩ := hfail st₁ o₃ s₃ hst₁ h₃
    obtain ⟨rfl, rfl⟩ := System.ends_final (o := .error (Exn.err e)).1 h₂
    exact ⟨((hst₁.trans hst₂).trans hst₃).trans hst, rfl⟩
  · rintro ⟨hst, rfl⟩
    obtain ⟨l, hend⟩ := hend
    obtain ⟨l', hend⟩ := ends_remote_at_once (q := r) hend
    exact ⟨.error (.err e), _, System.ends_bindE.2 ⟨.error (.err e), _, hend,
      System.ends_final (o := .error (Exn.err e)).2 ⟨rfl, rfl⟩⟩, hst, rfl⟩

theorem replied_undefine_refused {a : Agent} {x : FDURecord × Uuid} {e : FError}
    (h : refusal s.toStore a.nodeUuid u .defined = some e) {o : Except Exn FDURecord} :
    Replied z (Lifecycle.undefine.work z a u x.1 x.2) s o st ↔
      s.Rounds st ∧ o = .error (.err e) :=
  replied_failing (r := .plugin x.2 (.undefineFdu u))
    (fun _ _ _ hst hend => ends_refused (refusal_rounds hst _ ▸ h) hend) (ends_of_refused h)

theorem replied_clean_refused {a : Agent} {x : FDURecord × Uuid} {e : FError}
    (h : refusal s.toStore a.nodeUuid u .configured = some e) {o : Except Exn FDURecord} :
    Replied z (Lifecycle.clean.work z a u x.1 x.2) s o st ↔ s.Rounds st ∧ o = .error (.err e) :=
  replied_failing (r := .plugin x.2 (.cleanFdu u))
    (fun _ _ _ hst hend => ends_refused (refusal_rounds hst _ ▸ h) hend) (ends_of_refused h)

/-- Rounds of the monitoring tasks can lead to a state in which the owner calls
its plugin for the instance, and has its record DEFINED or CONFIGURED: the
statuses in which the plugin undefines, or cleans. -/
def Confused (st : Store) (n u : Uuid) : Prop :=
  (∃ st₁ x, st.Rounds st₁ ∧ lookup st₁ n u = .ok x) ∧
    ∃ inst, (st.node n).getInstance u = .ok inst ∧
      (inst.status = .defined ∨ inst.status = .configured)

/-- Unless it is confused, the owner that is asked to clean replies like the
owner that is asked to undefine. -/
theorem replied_clean_iff (howns : Owns s.toStore n u) (hsvc : z.server svc = some n)
    (hc : ¬ Confused s.toStore n u) {o : Except Exn FDURecord} :
    Replied z (Lifecycle.clean.call z svc u) s o st ↔
      Replied z (Lifecycle.undefine.call z svc u) s o st := by
  rw [replied_call hsvc, replied_call hsvc]
  refine (replied_owner howns).trans (Iff.trans ?_ (replied_owner howns).symm)
  refine exists_congr fun st₁ => and_congr_right fun hst₁ => ?_
  cases hl : lookup st₁ n u with
  | error e => rfl
  | ok x =>
    have hrefused : ∃ e, refusal st₁ n u .defined = some e ∧ refusal st₁ n u .configured = some e := by
      rw [refusal_rounds hst₁, refusal_rounds hst₁, refusal, refusal]
      cases hget : (s.node n).getInstance u with
      | error e => exact ⟨e, rfl, rfl⟩
      | ok inst =>
        have hst : ¬ (inst.status = .defined ∨ inst.status = .configured) := fun h =>
          hc ⟨⟨st₁, x, hst₁, hl⟩, inst, hget, h⟩
        rw [not_or] at hst
        exact ⟨_, if_neg hst.1, if_neg hst.2⟩
    obtain ⟨e, hd, hc⟩ := hrefused
    exact (replied_clean_refused (a := ⟨n, svc⟩) (x := x) hc).trans
      (replied_undefine_refused (a := ⟨n, svc⟩) (x := x) hd).symm

section Confused

variable {p : Uuid} {inst : FDURecord}

theorem ends_issue_at_once {c : Cmd} (ch : Choice) {r : c.Ans} {f : c.Ans → M β}
    {o : Except Exn β} (hch : Reliable ch) (hx : exec c ch s = some (r, s₁))
    (h : (system z Reliable).Ends (f r) s₁ o s') :
    (system z Reliable).Ends (issue c >>= f) s o s' :=
  System.ends_act.2 ⟨s, r, s₁, .refl, ⟨ch, hch, hx⟩, h⟩

theorem ends_ask_at_once {a : Access} {x : a.Ret} {f : a.Ret → M β} {o : Except Exn β}
    (hx : a.run s = (.ok x, s₁)) (h : (system z Reliable).Ends (f x) s₁ o s') :
    (system z Reliable).Ends (ask a >>= f) s o s' :=
  ends_ask.2 ⟨s.toStore, .refl, by rw [show a.run { s with toStore := s.toStore } = _ from hx]; exact h⟩

theorem ends_ask_end {a : Access} {x : a.Ret} (hx : a.run s = (.ok x, s₁)) :
    (system z Reliable).Ends (ask a) s (.ok x) s₁ := by
  rw [← Prog.bindE_final_right (ask a)]
  refine ends_ask.2 ⟨s.toStore, .refl, ?_⟩
  rw [show a.run { s with toStore := s.toStore } = _ from hx]
  exact System.ends_final.2 ⟨rfl, rfl⟩

theorem ends_bind {q : M α} {f : α → M β} {x : α} {o : Except Exn β}
    (h : (system z Reliable).Ends q s (.ok x) s₁) (h' : (system z Reliable).Ends (f x) s₁ o s') :
    (system z Reliable).Ends (q >>= f) s o s' :=
  System.ends_bindE.2 ⟨.ok x, s₁, h, h'⟩

theorem ends_bind_error {q : M α} {f : α → M β} {e : Exn}
    (h : (system z Reliable).Ends q s (.error e) s') :
    (system z Reliable).Ends (q >>= f) s (.error e) s' :=
  System.ends_bindE.2 ⟨.error e, s', h, System.ends_final (o := .error e).2 ⟨rfl, rfl⟩⟩

theorem ends_err {e : Exn} : (system z Reliable).Ends (.err e : M α) s (.error e) s :=
  System.ends_final (o := .error e).2 ⟨rfl, rfl⟩

theorem ends_callAll_error {r : NetRequest} {l : List NetRequest} (e : FError) :
    (system z Reliable).Ends (DummyHypervisor.callAll n (r :: l)) s (.error (.err e)) s :=
  System.ends_act.2 ⟨s, .error e, s, .refl, ⟨.net (.error e), trivial, rfl⟩, ends_err⟩

theorem ends_pure {x : α} : (system z Reliable).Ends (pure x) s (.ok x) s :=
  System.ends_final (o := .ok x).2 ⟨rfl, rfl⟩

theorem ends_withLock_at_once {b : M α} {o : Except Exn α} (hfree : (s.plugin p).locked = false)
    (h : (system z Reliable).Ends b (s.setLock p true) o s') :
    (system z Reliable).Ends (DummyHypervisor.withLock p b) s o (s'.setLock p false) := by
  refine ends_issue_at_once .go trivial (if_neg (by simp [hfree])) ?_
  rw [Prog.attempt_bind]
  refine System.ends_bindE.2 ⟨o, s', h, ends_issue_at_once .go trivial rfl ?_⟩
  exact System.ends_final.2 ⟨rfl, rfl⟩

theorem ends_transition_at_once {before : FDUState} {w : FDURecord → M Unit} {o : Except Exn Uuid}
    {P : Fos → Prop} (hfree : (s.plugin p).locked = false)
    (hget : (s.node n).getInstance u = .ok inst) (hst : inst.status = before)
    (h : ∀ l, ∃ s', (system z Reliable).Ends (do w inst; pure u)
      ({ s with replies := l }.setLock p true) o s' ∧ P (s'.setLock p false)) :
    ∃ s', (system z Reliable).Ends (DummyHypervisor.transition z n p before u w) s o s' ∧ P s' := by
  obtain ⟨l, hl⟩ := ends_getNodeUuid (z := z) (n := n) (s := s)
  obtain ⟨s', hend, hP⟩ := h l
  have hread : Access.run (.localGetInstance n u) { s with replies := l } =
      (.ok inst, { s with replies := l }) := by
    rw [Access.run, hget]
  refine ⟨_, ends_bind hl (ends_ask_at_once hread ?_), hP⟩
  rw [if_pos hst]
  exact ends_withLock_at_once hfree hend

theorem ends_undefine_at_once {a : Agent} {x : FDURecord × Uuid}
    (hfree : (s.plugin x.2).locked = false) (hknown : s.global.getInstance u = .ok x.1)
    (hget : (s.node a.nodeUuid).getInstance u = .ok inst) (hst : inst.status = .defined) :
    ∃ s', (system z Reliable).Ends (Lifecycle.undefine.work z a u x.1 x.2) s (.ok x.1) s' := by
  have hwork : ∀ s₁ : Fos, (s₁.node a.nodeUuid).getInstance u = .ok inst → ∃ s₂,
      (system z Reliable).Ends (do
        issue (.remove x.2 u)
        DummyHypervisor.removeInstance a.nodeUuid u : M Unit) s₁ (.ok ()) s₂ ∧
      s₂.global = s₁.global := by
    intro s₁ hget₁
    let s₂ := s₁.setFdus x.2 ((s₁.plugin x.2).fdus.erase u)
    refine ⟨{ s₂ with toStore := s₂.localDelete a.nodeUuid inst.fduUuid inst.uuid },
      ends_issue_at_once .go (r := ()) trivial rfl ?_, rfl⟩
    have hget₂ : (s₂.node a.nodeUuid).getInstance u = .ok inst := hget₁
    refine ends_ask_at_once (a := .localGetInstance a.nodeUuid u) (x := inst)
      (show _ = (Except.ok inst, s₂) from ?_) ?_
    · rw [Access.run, hget₂]
    · exact ends_ask_end rfl
  obtain ⟨s₁, h₁, hglobal⟩ := ends_transition_at_once (z := z) (o := .ok u)
    (P := fun s' => s'.global = s.global)
    (w := fun _ => do issue (.remove x.2 u); DummyHypervisor.removeInstance a.nodeUuid u)
    hfree hget hst fun l => by
      obtain ⟨s₂, h₂, hg⟩ := hwork ({ s with replies := l }.setLock x.2 true) hget
      exact ⟨s₂, ends_bind h₂ ends_pure, hg⟩
  obtain ⟨l, hl⟩ := ends_remote_at_once (q := .plugin x.2 (.undefineFdu u)) h₁
  let s₂ : Fos := { s₁ with replies := l }
  have hremove : (system z Reliable).Ends (removeInstance u) s₂ (.ok ())
      { s₂ with toStore := s₂.globalDelete x.1.fduUuid x.1.uuid } := by
    have hread : Access.run (.getInstance u) s₂ = (.ok x.1, s₂) := by
      rw [Access.run, show s₂.global.getInstance u = .ok x.1 from hglobal ▸ hknown]
    exact ends_ask_at_once hread (ends_ask_end rfl)
  exact ⟨_, ends_bind hl (ends_bind hremove ends_pure)⟩

theorem ends_clean_at_once {a : Agent} {x : FDURecord × Uuid}
    (hfree : (s.plugin x.2).locked = false)
    (hget : (s.node a.nodeUuid).getInstance u = .ok inst) (hst : inst.status = .configured) :
    ∃ e s', (system z Reliable).Ends (Lifecycle.clean.work z a u x.1 x.2) s (.error (.err e)) s' ∧
      e ≠ .notFound ∧ e ≠ .tooMuchError ∧ e ≠ .transitionNotAllowed := by
  have hwork : ∃ w e, DummyHypervisor.cleanFdu z a.nodeUuid x.2 u =
      DummyHypervisor.transition z a.nodeUuid x.2 .configured u w ∧
      (∀ s₁, (system z Reliable).Ends (w inst) s₁ (.error e) s₁) ∧
      (e = .err (.unknownError "") ∨ e = .panic) := by
    by_cases hd : DummyHypervisor.Decodable inst
    · obtain ⟨netns, hd⟩ := hd
      refine ⟨_, _, rfl, fun s₁ => ?_, Or.inl rfl⟩
      rw [hd]
      exact ends_bind ends_pure (ends_bind_error (ends_callAll_error (.unknownError "")))
    · refine ⟨_, _, rfl, fun s₁ => ?_, Or.inr rfl⟩
      apply ends_bind_error
      cases h : inst.hypervisorSpecific with
      | none => exact ends_err
      | some x =>
        cases x with
        | dummy netns => exact absurd ⟨netns, h⟩ hd
        | other l => exact ends_err
  obtain ⟨w, e, hclean, hw, he⟩ := hwork
  obtain ⟨s', h', -⟩ := ends_transition_at_once (z := z) (o := .error e) (P := fun _ => True)
    (w := w) hfree hget hst fun l => ⟨_, ends_bind_error (hw _), trivial⟩
  rw [← hclean] at h'
  obtain ⟨l, hl⟩ := ends_remote_at_once (q := .plugin x.2 (.cleanFdu u)) h'
  rcases he with rfl | rfl
  · exact ⟨_, _, ends_bind_error hl, nofun, nofun, nofun⟩
  · exact ⟨_, _, ends_bind_error hl, nofun, nofun, nofun⟩

end Confused

/-- What the owner replies, other than what its work does: refusals of the frame. -/
theorem replied_owner_cases (howns : Owns s.toStore n u) (hsvc : z.server svc = some n)
    {op : Lifecycle} {o : Except Exn FDURecord} (h : Replied z (op.call z svc u) s o st) :
    (∃ e, o = .error (.err e) ∧ (e = .notFound ∨ e = .tooMuchError)) ∨
      ∃ st₁, ∃ x : FDURecord × Uuid, s.Rounds st₁ ∧
        Replied z (op.work z ⟨n, svc⟩ u x.1 x.2) { s with toStore := st₁ } o st := by
  rw [replied_call hsvc] at h
  obtain ⟨st₁, hst₁, h⟩ := (replied_owner howns).1 h
  cases hl : lookup st₁ n u with
  | ok x => exact Or.inr ⟨st₁, x, hst₁, by rw [hl] at h; exact h⟩
  | error e =>
    rw [hl] at h
    have hfinal : Replied z (.final (.error (.err e))) { s with toStore := st₁ } o st := h
    refine Or.inl ⟨e, (replied_final.1 hfinal).2, ?_⟩
    have hsingle : ∀ {γ : Type} {l : List γ}, single l = .error e → e = .notFound ∨ e = .tooMuchError := by
      rintro γ (_ | ⟨a, _ | ⟨b, l⟩⟩) h <;> cases h
      · exact Or.inl rfl
      · exact Or.inr rfl
    unfold lookup at hl
    split at hl
    · next h => cases hl; exact hsingle h
    · split at hl
      · next h => cases hl; exact hsingle h
      · split at hl <;> cases hl
        exact Or.inl rfl

theorem lookup_known {x : FDURecord × Uuid} (h : lookup st n u = .ok x) :
    st.global.getInstance u = .ok x.1 := by
  unfold lookup at h
  split at h
  · cases h
  · next inst hinst =>
    split at h
    · cases h
    · split at h <;> cases h
      exact hinst

/-- What the work can end with at once, the owner can reply. -/
theorem replied_of_ends (howns : Owns s.toStore n u) (hsvc : z.server svc = some n)
    (op : Lifecycle) {x : FDURecord × Uuid} {o : Except Exn FDURecord} (hst : s.Rounds st)
    (hl : lookup st n u = .ok x) (h : (system z Reliable).Ends (op.work z ⟨n, svc⟩ u x.1 x.2)
      { s with toStore := st } o s') :
    Replied z (op.call z svc u) s ((received z o).mapError .err) s'.toStore := by
  rw [replied_call hsvc]
  exact (replied_owner howns).2 ⟨st, hst, o, s', by rw [hl]; exact h, .refl, rfl⟩

/-- A confused owner does reply otherwise: it undefines an instance that it would
not clean, or it starts to clean one that it would not undefine. -/
theorem Confused.differ (hc : Confused s.toStore n u) (howns : Owns s.toStore n u)
    (hsvc : z.server svc = some n) (hfree : ∀ p, (s.plugin p).locked = false) :
    ¬ ∀ o st, Replied z (Lifecycle.clean.call z svc u) s o st ↔
      Replied z (Lifecycle.undefine.call z svc u) s o st := by
  intro heq
  obtain ⟨⟨st₁, x, hst₁, hl⟩, inst, hget, hst⟩ := hc
  have hget₁ : ∀ st₂, s.Rounds st₂ → (st₂.node n).getInstance u = .ok inst := fun st₂ hst₂ => by
    rw [hst₂.copied.localGetInstance, hget]
  rcases hst with hst | hst
  · obtain ⟨s', hend⟩ := ends_undefine_at_once (z := z) (s := { s with toStore := st₁ })
      (a := ⟨n, svc⟩) (hfree x.2) (lookup_known hl) (hget₁ st₁ hst₁) hst
    have hrep := (heq _ _).2 (replied_of_ends howns hsvc .undefine hst₁ hl hend)
    rcases replied_owner_cases howns hsvc hrep with ⟨e, h, -⟩ | ⟨st₂, y, hst₂, h⟩
    · cases h
    · refine absurd ((replied_clean_refused (e := .transitionNotAllowed) ?_).1 h).2 nofun
      simp only [refusal, hget₁ st₂ hst₂, hst]
      rfl
  · obtain ⟨e, s', hend, h1, h2, h3⟩ := ends_clean_at_once (z := z) (s := { s with toStore := st₁ })
      (a := ⟨n, svc⟩) (x := x) (hfree x.2) (hget₁ st₁ hst₁) hst
    have hrep := (heq _ _).1 (replied_of_ends howns hsvc .clean hst₁ hl hend)
    rcases replied_owner_cases howns hsvc hrep with ⟨e', h, he'⟩ | ⟨st₂, y, hst₂, h⟩
    · cases h
      exact he'.elim h1 h2
    · have := ((replied_undefine_refused (e := .transitionNotAllowed) (by
        simp only [refusal, hget₁ st₂ hst₂, hst]; rfl)).1 h).2
      cases this
      exact h3 rfl

/-- What a call can end with, and what the stores hold when it does. -/
def Outcome (z : Session) (p : M α) (s : Fos) (o : Except Exn α) (st : Store) : Prop :=
  ∃ s', (system z Reliable).Ends p s o s' ∧ s'.toStore = st

theorem outcome_call (op : Lifecycle) {o : Except Exn FDURecord} :
    Outcome z (op.call z svc u) s o st ↔ Replied z (op.call z svc u) s o st := by
  have key : ∀ {q : Request} {o : Except Exn q.Ret},
      Outcome z (rpc z svc q) s o st ↔ Replied z (rpc z svc q) s o st := by
    intro q o
    constructor
    · rintro ⟨s', hend, rfl⟩
      obtain ⟨-, o₁, -, -, -, -, -, rfl, -⟩ := ends_remote.1 hend
      exact ⟨_, s', hend, .refl, by rw [received_received]⟩
    · rintro ⟨_, _, hend, hst, rfl⟩
      obtain ⟨st₁, o₁, s₂, st₂, hst₁, h, hst₂, rfl, rfl⟩ := ends_remote.1 hend
      exact ⟨_, ends_remote.2 ⟨st₁, o₁, s₂, st, hst₁, h, hst₂.trans hst,
        by rw [received_received], rfl⟩, rfl⟩
  cases op with
  | configure => exact key (q := .configureFdu u)
  | start => exact key (q := .startFdu u)
  | stop => exact key (q := .stopFdu u)
  | clean => exact key (q := .cleanFdu u)
  | undefine => exact key (q := .undefineFdu u)

/-- A lifecycle call gets from any agent of the fleet what it gets from the one
that owns the instance, but for undefining: the agents that do not own it ask the
owner to clean it, which is another thing exactly when the owner is confused. -/
theorem same_outcome_iff (hadv : Advertised z s)
    (hinfo : ∃ info, s.global.getNodeInfo n = .ok info) (hsvc : z.server svc = some n)
    (howns : Owns s.toStore n u) (hfree : ∀ p, (s.plugin p).locked = false) {entry m : Uuid}
    (hentry : z.server entry = some m) (op : Lifecycle) :
    (∀ o st, Outcome z (op.call z entry u) s o st ↔ Outcome z (op.call z svc u) s o st) ↔
      (op = .undefine → m = n ∨ ¬ Confused s.toStore n u) := by
  simp only [outcome_call]
  by_cases hm : m = n
  · subst hm
    refine iff_of_true (fun o st => ?_) fun _ => Or.inl rfl
    rw [replied_call hentry, replied_call hsvc]
    cases op <;> rfl
  · have hforward : ∀ o st, Replied z (op.call z entry u) s o st ↔
        Replied z (op.forwarded.call z svc u) s o st := fun o st => by
      rw [replied_call hentry]
      exact replied_elsewhere hadv howns hinfo hsvc hm op.forwarded
    simp only [hforward, hm, false_or]
    cases op with
    | undefine =>
      refine ⟨fun h _ hc => hc.differ howns hsvc hfree h, fun h o st => ?_⟩
      exact replied_clean_iff howns hsvc (h rfl)
    | _ => exact iff_of_true (fun _ _ => Iff.rfl) nofun

abbrev twoSession : Session := Site.session twoSites

/-- Configuring an instance of the first of two sites, called at either. -/
theorem same_outcome_iff_two : ∃ (s : Fos) (inst : FDURecord), Op.Stored s inst.uuid .defined inst ∧
    ∀ o st, Outcome twoSession (Lifecycle.configure.call twoSession 101 inst.uuid) s o st ↔
      Outcome twoSession (Lifecycle.configure.call twoSession 100 inst.uuid) s o st := by
  obtain ⟨o, s, hplay, ho⟩ := Machine.exists_drive
    (f := fun (o : Except Exn FDURecord) s => o.toOption.any fun inst =>
      decide (Advertised twoSession s) && (s.global.getNodeInfo 0).toBool && inst.node == (0 : Uuid))
    (show (playUsual twoSites (boot twoSites [.plain 50] []) (Op.call 100 (.define 50))).any _ = true
      by decide +kernel)
  obtain ⟨k, hrun⟩ := runs_of_playUsual (fun _ => Healthy.reliable) hplay
  have howned : Op.Owned (boot twoSites [.plain 50] []) 0 (.define 50) := trivial
  obtain ⟨hs, hdone⟩ := ((ensures_op (t := False) (boot_settled _ _ _) rfl howned).bound
    not_faulty_reliable).1 _ _ _ hrun
  cases o with
  | error e => cases ho
  | ok inst =>
    simp only [Except.toOption, Option.any_some, Bool.and_eq_true, decide_eq_true_eq,
      beq_iff_eq] at ho
    obtain ⟨⟨hadv, hinfo⟩, hhome⟩ := ho
    obtain ⟨hstored, -⟩ := hdone
    have hnode : ∃ info, s.global.getNodeInfo 0 = .ok info := by
      cases h : s.global.getNodeInfo 0 with
      | error e => rw [h] at hinfo; cases hinfo
      | ok info => exact ⟨info, rfl⟩
    have howns : Owns s.toStore 0 inst.uuid := by
      refine ⟨hhome ▸ hs.owned hstored.1, fun m i hi => ?_⟩
      rw [hs.still m] at hi
      cases hi
    have howner : twoSession.server 100 = some 0 := rfl
    have hentry : twoSession.server 101 = some 1 := rfl
    exact ⟨s, inst, hstored,
      (same_outcome_iff hadv hnode howner howns hs.free hentry .configure).2 fun h => by cases h⟩

def playCalls (sites : List Site) (calls : List (M FDURecord)) (s : Fos) : Option Fos :=
  calls.foldlM (fun s p =>
    match playUsual sites s p with
    | some (.ok _, s') => some s'
    | _ => none) s

/-- Stopped, cleaned and undefined through the other of two agents, a RUNNING
instance is still there, in both stores. -/
theorem undefine_elsewhere : ∃ (s₀ s₁ s₂ s₃ : Fos) (o₁ o₂ : Except Exn FDURecord),
    Advertised twoSession s₀ ∧ recorded s₀ 0 0 = some .running ∧
      (system twoSession Reliable).Ends (Lifecycle.stop.call twoSession 101 0) s₀ o₁ s₁ ∧
      (system twoSession Reliable).Ends (Lifecycle.clean.call twoSession 101 0) s₁ o₂ s₂ ∧
      (system twoSession Reliable).Ends (Lifecycle.undefine.call twoSession 101 0) s₂
        (.error (.err .transitionNotAllowed)) s₃ ∧ recorded s₃ 0 0 = some .defined := by
  have h : ((playCalls twoSites [rpc twoSession 100 (.defineFdu 50),
      Lifecycle.configure.call twoSession 100 0, Lifecycle.start.call twoSession 100 0]
      (boot twoSites [.plain 50] [])).any fun s₀ =>
        Advertised twoSession s₀ ∧ recorded s₀ 0 0 = some .running ∧
        (playUsual twoSites s₀ (Lifecycle.stop.call twoSession 101 0)).any fun x =>
          (playUsual twoSites x.2 (Lifecycle.clean.call twoSession 101 0)).any fun y =>
            (playUsual twoSites y.2 (Lifecycle.undefine.call twoSession 101 0)).any fun w =>
              failure w.1 = some (.err .transitionNotAllowed) ∧
              recorded w.2 0 0 = some .defined) = true := by
    decide +kernel
  have ends : ∀ {p : M FDURecord} {s s' o}, playUsual twoSites s p = some (o, s') →
      (system twoSession Reliable).Ends p s o s' := fun h =>
    runs_of_playUsual (fun _ => Healthy.reliable) h
  obtain ⟨s₀, -, h⟩ := (Option.any_eq_true _ _).1 h
  obtain ⟨hadv, hrun, h⟩ := of_decide_eq_true h
  obtain ⟨⟨o₁, s₁⟩, h₁, h⟩ := (Option.any_eq_true _ _).1 h
  obtain ⟨⟨o₂, s₂⟩, h₂, h⟩ := (Option.any_eq_true _ _).1 h
  obtain ⟨⟨o₃, s₃⟩, h₃, h⟩ := (Option.any_eq_true _ _).1 h
  obtain ⟨ho, hstill⟩ := of_decide_eq_true h
  obtain rfl := failure_eq_some.1 ho
  exact ⟨s₀, s₁, s₂, s₃, o₁, o₂, hadv, hrun, ends h₁, ends h₂, ends h₃, hstill⟩

end Fog05
