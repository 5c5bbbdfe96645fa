import Fog05.Conc.Ledger
import Fog05.Model.Processes

/-! What the processes of a node do with the locks and the remote calls, as a discipline. A
thread has one guard at a time. An entry says which one, what reply the thread waits for and,
while it has the agent's guard, what the registry was when it got it and what it has made of it. -/

namespace Fog05.Processes

open Conc

/-- Who a thread is: a call of the agent or its monitoring, a plugin, a server, or a task. -/
inductive Role
  | caller
  | plugin (kind : PluginKind) (p : Uuid)
  | server (n : ℕ) (c : Call)
  | task
  deriving DecidableEq

def Proc.role : Proc → Role
  | .plugin kind p => .plugin kind p
  | .serve n c => .server n c
  | .defaultNetwork _ => .task
  | _ => .caller

def Threads.role (w : Threads) (i : ℕ) : Option Role := (w.threads[i]?).map fun t => t.proc.role

/-- How far a plugin has come, from its start over the request to be registered to that to be
unregistered, or a server: whether it has answered, and responded. -/
inductive Stage
  | begun
  | connected
  | named
  | joining
  | joined
  | leaving
  | left
  | answered (o : Except FError Uuid)
  | responded

/-- After the request, and after its reply. -/
def Stage.asked (s : Stage) : Call → Stage
  | .registry (.register _ _) => .joining
  | .registry (.unregister _) => .left
  | .transition _ => s

def Stage.replied : Stage → Except FError Unit → Stage
  | .joining, .ok _ => .joined
  | s, _ => s

structure Entry where
  role : Role
  stage : Stage
  guard : Option (Lock × Mode)
  awaits : Option (ℕ × Call)
  before : Registry
  now : Registry
  faults : Faults

/-- The entry of a thread that starts. -/
def Role.opens (r : Role) : Entry := ⟨r, .begun, none, none, .new, .new, .none⟩

/-- The status tells what the registry has. -/
structure NodeStatus.Reports (st : NodeStatus) (r : Registry) : Prop where
  once : st.supportedHypervisors.Nodup
  hypervisors : ∀ name, name ∈ st.supportedHypervisors ↔ r.inner.hypervisors name ≠ none
  ready : st.status = .ready ↔ r.inner.networking ≠ none ∧ ∃ name, r.inner.hypervisors name ≠ none

namespace Entry

variable (q : Entry)

/-- It has given back what it had and told what it was asked for. -/
structure Over : Prop where
  bare : q.guard = none
  responded : ∀ n c, q.role = .server n c → q.stage = .responded

def Allows : Op → Prop
  | .lock .agent .read => q.guard = none ∧ q.role = .caller
  | .lock .agent .write => q.guard = none ∧ q.stage = .begun ∧ ∃ n c, q.role = .server n (.registry c)
  | .lock (.plugin p) .read => q.guard = none ∧ ∃ kind, q.role = .plugin kind p
  | .lock (.plugin p) .write =>
      q.guard = none ∧
        ((∃ n, q.role = .server n (.transition p) ∧ q.stage = .begun) ∨
          ∃ kind, q.role = .plugin kind p)
  | .unlock l m => q.guard = some (l, m) ∧ (l = .agent → q.before = q.now)
  | .request (.transition p) =>
      q.role = .caller ∧ q.guard = some (.agent, .read) ∧ ∃ name, q.now.inner.hypervisors name = some p
  | .request (.registry (.register p kind)) => q.role = .plugin kind p ∧ q.stage = .named
  | .request (.registry (.unregister p)) => (∃ kind, q.role = .plugin kind p) ∧ q.stage = .leaving
  | .reply n =>
      (q.role = .caller ∧ q.guard = some (.agent, .read) ∧
        ∃ p, q.awaits = some (n, .transition p) ∧ ∃ name, q.now.inner.hypervisors name = some p) ∨
      ∃ kind p, q.role = .plugin kind p ∧ q.guard = some (.plugin p, .read) ∧
        (q.awaits = some (n, .registry (.register p kind)) ∧ q.stage = .joining ∨
          q.awaits = some (n, .registry (.unregister p)) ∧ q.stage = .left)
  | .respond n o =>
      q.guard = none ∧ ((∃ p, q.role = .server n (.transition p) ∧ q.stage = .begun) ∨
        ∃ c o', q.role = .server n (.registry c) ∧ q.stage = .answered o' ∧ o = o'.map fun _ => ())
  | .connect p => (∃ kind, q.role = .plugin kind p) ∧ q.stage = .begun
  | .setUuid p => (∃ kind, q.role = .plugin kind p) ∧ q.stage = .connected
  | .uuid p => (∃ kind, q.role = .plugin kind p) ∧ (q.stage = .named ∨ q.stage = .leaving)
  | .recv p => q.guard = none ∧ (∃ kind, q.role = .plugin kind p) ∧ q.stage = .joined
  | .hypervisor _ | .hypervisors | .networking => ∃ m, q.guard = some (.agent, m)
  | .insertHypervisor _ _ | .removeHypervisor _ | .setNetworking _ | .getPlugin _ | .addPlugin _
  | .removePlugin _ => q.guard = some (.agent, .write)
  | .answered c o =>
      q.guard = some (.agent, .write) ∧ (∃ n, q.role = .server n (.registry c)) ∧
        q.stage = .begun ∧ c.serve q.faults q.before = (o, q.now)
  | .addNodeStatus st | .localAddNodeStatus st =>
      q.guard = some (.agent, .read) ∧ st.Reports q.now
  | .access | .owned | .polled | .server _ | .spawn _ | .verifyServer _ | .createDefault _ => True

def Next : (c : Op) → c.Ans → Entry → Prop
  | .lock .agent m, _, q' =>
      ∃ r, q' = { q with guard := some (.agent, m), before := r, now := r, faults := .none }
  | .lock (.plugin p) m, _, q' => q' = { q with guard := some (.plugin p, m) }
  | .unlock _ _, _, q' => q' = { q with guard := none }
  | .request c, .ok n, q' => q' = { q with awaits := some (n, c), stage := q.stage.asked c }
  | .reply _, x, q' => q' = { q with awaits := none, stage := q.stage.replied x }
  | .respond _ _, _, q' => q' = { q with stage := .responded }
  | .connect _, .ok _, q' => q' = { q with stage := .connected }
  | .setUuid _, _, q' => q' = { q with stage := .named }
  | .uuid p, x, q' => x = some p ∧ q' = q
  | .recv _, _, q' => q' = { q with stage := .leaving }
  | .hypervisor name, x, q' => x = q.now.inner.hypervisors name ∧ q' = q
  | .hypervisors, l, q' =>
      l.Nodup ∧ (∀ name, name ∈ l ↔ q.now.inner.hypervisors name ≠ none) ∧ q' = q
  | .networking, x, q' => x = q.now.inner.networking ∧ q' = q
  | .insertHypervisor name p, _, q' => q' = { q with now := q.now.setHypervisor name (some p) }
  | .removeHypervisor name, _, q' => q' = { q with now := q.now.setHypervisor name none }
  | .setNetworking c, _, q' => q' = { q with now := q.now.setNetworking c }
  | .getPlugin p, x, q' =>
      ∃ e, x = q.now.getPlugin ⟨e, q.faults.write⟩ p ∧
        q' = { q with faults := ⟨e, q.faults.write⟩ }
  | .addPlugin info, x, q' =>
      ∃ e, x.map (fun _ => info.uuid) = (q.now.addPlugin ⟨q.faults.read, e⟩ info).1 ∧
        q' = { q with
          faults := ⟨q.faults.read, e⟩
          now := (q.now.addPlugin ⟨q.faults.read, e⟩ info).2 }
  | .removePlugin p, x, q' =>
      ∃ e, x.map (fun _ => p) = (q.now.removePlugin ⟨q.faults.read, e⟩ p).1 ∧
        q' = { q with
          faults := ⟨q.faults.read, e⟩
          now := (q.now.removePlugin ⟨q.faults.read, e⟩ p).2 }
  | .answered _ o, _, q' => q' = { q with before := q.now, stage := .answered o }
  | _, _, q' => q' = q

variable {q} {l : Lock} {m : Mode}

theorem Allows.unguarded (h : q.Allows (.lock l m)) : q.guard = none := by
  cases l with
  | agent => cases m <;> exact h.1
  | plugin p => cases m <;> exact h.1

theorem Allows.not_task (h : q.Allows (.lock l m)) : q.role ≠ .task := by
  intro ht
  cases l with
  | agent =>
    cases m with
    | read =>
      have hrole : q.role = .caller := h.2
      rw [ht] at hrole
      cases hrole
    | write =>
      obtain ⟨-, -, n, c, hrole⟩ := h
      rw [ht] at hrole
      cases hrole
  | plugin p =>
    cases m with
    | read =>
      obtain ⟨-, kind, hrole⟩ := h
      rw [ht] at hrole
      cases hrole
    | write => rcases h.2 with ⟨n, hrole, -⟩ | ⟨kind, hrole⟩ <;> rw [ht] at hrole <;> cases hrole

end Entry

/-- Only loops are called; the polling loop under the guard of the call. -/
def guards : Discipline Op.Ans Proc.Ret Exn Entry where
  allows q c := q.Allows c
  next q c r q' := q.Next c r q'
  calls q p :=
    match p with
    | .poll => True
    | .monitoring => q.role = .caller ∧ q.guard = none
    | .defaultNetwork _ => q.role = .task ∧ q.guard = none
    | _ => False
  back q p _ q' :=
    match p with
    | .poll => q' = q
    | _ => q'.Over

abbrev Keeps (b : Act Unit) (q : Entry) : Prop := b.Follows guards (fun _ q' => q'.Over) q

section Rules

variable {α β : Type} {Φ : Except Exn α → Entry → Prop} {q : Entry}

theorem follows_bind {Ψ : Except Exn β → Entry → Prop} {b : Act β} {f : β → Act α}
    (h : b.Follows guards Ψ q) (hok : ∀ a q', Ψ (.ok a) q' → (f a).Follows guards Φ q')
    (herr : ∀ e q', Ψ (.error e) q' → Φ (.error e) q') : (b >>= f).Follows guards Φ q := by
  rw [Prog.bind_def, Prog.follows_bindE]
  refine h.mono fun o q' ho => ?_
  cases o with
  | ok a => exact hok a q' ho
  | error e => exact herr e q' ho

theorem follows_attempt {Ψ : Except Exn β → Entry → Prop} {b : Act β} {f : Except Exn β → Act α}
    (h : b.Follows guards Ψ q) (hf : ∀ o q', Ψ o q' → (f o).Follows guards Φ q') :
    (b.attempt >>= f).Follows guards Φ q := by
  rw [Prog.attempt_bind, Prog.follows_bindE]
  exact h.mono hf

theorem follows_issue {c : Op} {f : c.Ans → Act α} (hc : q.Allows c)
    (hf : ∀ r q', q.Next c r q' → (f r).Follows guards Φ q') :
    (issue c >>= f).Follows guards Φ q := ⟨hc, hf⟩

theorem follows_tried {c : Op} {x : c.Ans → Act β} {f : β → Act α} (hc : q.Allows c)
    (hnext : ∀ r q', q.Next c r q' → q' = q) (hx : ∀ r, ∃ o, x r = .final o)
    (hf : ∀ a, (f a).Follows guards Φ q) (herr : ∀ e, Φ (.error e) q) :
    (issue c >>= fun r => x r >>= f).Follows guards Φ q := by
  refine follows_issue hc fun r q' hn => ?_
  obtain rfl := hnext r q' hn
  obtain ⟨o, ho⟩ := hx r
  rw [ho]
  cases o with
  | ok a => exact hf a
  | error e => exact herr e

theorem follows_guarded {l : Lock} {m : Mode} {b : Act α} {Ψ : Except Exn α → Entry → Prop}
    (hc : q.Allows (.lock l m)) (hb : ∀ q', q.Next (.lock l m) () q' → b.Follows guards Ψ q')
    (hend : ∀ o q', Ψ o q' → q'.Allows (.unlock l m) ∧ Φ o { q' with guard := none }) :
    (guarded l m b).Follows guards Φ q := by
  refine follows_issue hc fun _ q' hn => ?_
  refine follows_attempt (hb q' hn) fun o q' ho => ?_
  refine follows_issue (hend o q' ho).1 fun _ q'' hn' => ?_
  obtain rfl := hn'
  exact (Prog.follows_final o _).2 (hend o q' ho).2

theorem follows_remote {c : Call} {Φ : Except Exn Unit → Entry → Prop} (hc : q.Allows (.request c))
    (hlost : ∀ e, Φ (.error e) q)
    (hreply : ∀ n, Entry.Allows { q with awaits := some (n, c), stage := q.stage.asked c } (.reply n))
    (hdone : ∀ x, Φ (Except.mapError .err x)
      { q with awaits := none, stage := (q.stage.asked c).replied x }) :
    (remote c).Follows guards Φ q := by
  refine follows_issue hc fun x q' hn => ?_
  cases x with
  | error e =>
    obtain rfl := hn
    exact hlost _
  | ok n =>
    obtain rfl := hn
    refine follows_issue (hreply n) fun x q'' hn' => ?_
    obtain rfl := hn'
    exact (Prog.follows_final _ _).2 (hdone x)

theorem follows_responding {n : ℕ} {b : Act α} (hb : b.Follows guards (fun o q' =>
    ∃ o' : Except FError α, o = o'.mapError .err ∧ q'.Allows (.respond n (o'.map fun _ => ()))) q) :
    Keeps (responding n b) q := by
  have hover : ∀ {q' : Entry} {o}, q'.Allows (.respond n o) →
      Entry.Over { q' with stage := .responded } := fun h => ⟨h.1, fun _ _ _ => rfl⟩
  refine follows_attempt hb fun o q' ho => ?_
  obtain ⟨o', rfl, hc⟩ := ho
  cases o' with
  | ok a =>
    refine ⟨hc, fun _ q'' hn => ?_⟩
    obtain rfl := hn
    exact hover hc
  | error e =>
    refine ⟨hc, fun _ q'' hn => ?_⟩
    obtain rfl := hn
    exact hover hc

end Rules

/-! ### The servers -/

section Serving

variable {q : Entry} {p : Uuid} {n : ℕ}

/-- The section under the guard has done what the call does to the registry, at once. -/
structure Entry.Serves (q : Entry) (c : RegistryCall) (o : Except Exn Uuid) (q' : Entry) :
    Prop where
  role : q'.role = q.role
  stage : q'.stage = q.stage
  guard : q'.guard = q.guard
  served : ∃ o', o = o'.mapError .err ∧ c.serve q'.faults q'.before = (o', q'.now)

theorem follows_serving {c : RegistryCall} {b : Act Uuid} (hrole : q.role = .server n (.registry c))
    (hguard : q.guard = none) (hstage : q.stage = .begun)
    (hb : ∀ (q' : Entry) r, q'.guard = some (.agent, .write) →
      b.Follows guards (Entry.Serves { q' with before := r, now := r, faults := .none } c)
        { q' with before := r, now := r, faults := .none }) :
    (serving c b).Follows guards (fun o q' => ∃ o' : Except FError Uuid, o = o'.mapError .err ∧
      q'.Allows (.respond n (o'.map fun _ => ()))) q := by
  refine follows_guarded (Ψ := fun o q' => ∃ o' : Except FError Uuid, o = o'.mapError .err ∧
    q'.role = q.role ∧ q'.stage = .answered o' ∧ q'.guard = some (.agent, .write) ∧
      q'.before = q'.now) ⟨hguard, hstage, n, c, hrole⟩ ?_ ?_
  · rintro q' ⟨r, rfl⟩
    refine follows_attempt (hb { q with guard := some (.agent, .write) } r rfl) fun o q' ho => ?_
    obtain ⟨o', rfl, hserve⟩ := ho.served
    have hc : q'.Allows (.answered c o') :=
      ⟨ho.guard, ⟨n, ho.role.trans hrole⟩, ho.stage.trans hstage, hserve⟩
    cases o' with
    | ok u =>
      refine follows_issue hc fun _ q'' hn => ?_
      obtain rfl := hn
      exact ⟨.ok u, rfl, ho.role, rfl, ho.guard, rfl⟩
    | error e =>
      refine follows_issue hc fun _ q'' hn => ?_
      obtain rfl := hn
      exact ⟨.error e, rfl, ho.role, rfl, ho.guard, rfl⟩
  · rintro o q' ⟨o', rfl, hrole', hstage', hguard', hnow⟩
    refine ⟨⟨hguard', fun _ => hnow⟩, o', rfl, rfl, Or.inr ⟨c, o', hrole'.trans hrole, hstage', rfl⟩⟩

theorem follows_addPlugin (info : PluginInfo) {Ψ : Except Exn Uuid → Entry → Prop}
    (hc : q.guard = some (.agent, .write))
    (h : ∀ e, Ψ ((q.now.addPlugin ⟨q.faults.read, e⟩ info).1.mapError .err)
      { q with
        faults := ⟨q.faults.read, e⟩
        now := (q.now.addPlugin ⟨q.faults.read, e⟩ info).2 }) :
    (issue (.addPlugin info) >>= fun r => tried r >>= fun _ =>
      (pure info.uuid : Act Uuid)).Follows guards Ψ q := by
  refine follows_issue hc fun x q' hn => ?_
  obtain ⟨e, he, rfl⟩ := hn
  have hpost := h e
  rw [← he] at hpost
  cases x with
  | ok a => exact hpost
  | error e => exact hpost

theorem follows_removePlugin {Ψ : Except Exn Uuid → Entry → Prop}
    (hc : q.guard = some (.agent, .write))
    (h : ∀ e, Ψ ((q.now.removePlugin ⟨q.faults.read, e⟩ p).1.mapError .err)
      { q with
        faults := ⟨q.faults.read, e⟩
        now := (q.now.removePlugin ⟨q.faults.read, e⟩ p).2 }) :
    (issue (.removePlugin p) >>= fun r => tried r >>= fun _ =>
      (pure p : Act Uuid)).Follows guards Ψ q := by
  refine follows_issue hc fun x q' hn => ?_
  obtain ⟨e, he, rfl⟩ := hn
  have hpost := h e
  rw [← he] at hpost
  cases x with
  | ok a => exact hpost
  | error e => exact hpost

theorem keeps_register {kind : PluginKind} (hrole : q.role = .server n (.registry (.register p kind)))
    (hguard : q.guard = none) (hstage : q.stage = .begun) :
    Keeps (responding n (registerPlugin p kind)) q := by
  refine follows_responding (follows_serving hrole hguard hstage fun q r hguard => ?_)
  cases kind with
  | hypervisor hv =>
    refine follows_issue (c := .hypervisor hv) ⟨_, hguard⟩ fun x q' hn => ?_
    obtain ⟨hx, rfl⟩ := hn
    have hclient : r.inner.hypervisors hv = x := hx.symm
    cases x with
    | some u =>
      refine ⟨rfl, rfl, rfl, .error .alreadyPresent, rfl, ?_⟩
      simp [RegistryCall.serve, Registry.registerPlugin, hclient]
    | none =>
      refine follows_issue (c := .insertHypervisor hv p) hguard fun _ q' hn => ?_
      obtain rfl := hn
      refine follows_addPlugin ⟨p, .hypervisor hv, _⟩ hguard fun e => ?_
      refine ⟨rfl, rfl, rfl, _, rfl, ?_⟩
      simp [RegistryCall.serve, Registry.registerPlugin, hclient, Faults.none]
  | networking =>
    refine follows_issue (c := .networking) ⟨_, hguard⟩ fun x q' hn => ?_
    obtain ⟨hx, rfl⟩ := hn
    have hclient : r.inner.networking = x := hx.symm
    cases x with
    | some u =>
      refine ⟨rfl, rfl, rfl, .error .alreadyPresent, rfl, ?_⟩
      simp [RegistryCall.serve, Registry.registerPlugin, hclient]
    | none =>
      refine follows_issue (c := .spawn p) trivial fun _ q' hn => ?_
      obtain rfl := hn
      refine follows_issue (c := .setNetworking (some p)) hguard fun _ q' hn => ?_
      obtain rfl := hn
      refine follows_addPlugin ⟨p, .networking, _⟩ hguard fun e => ?_
      refine ⟨rfl, rfl, rfl, _, rfl, ?_⟩
      simp [RegistryCall.serve, Registry.registerPlugin, hclient, Faults.none]
  | _ => exact ⟨rfl, rfl, rfl, .error (.unknownError "Not yet..."), rfl, rfl⟩

theorem keeps_unregister (hrole : q.role = .server n (.registry (.unregister p)))
    (hguard : q.guard = none) (hstage : q.stage = .begun) :
    Keeps (responding n (unregisterPlugin p)) q := by
  refine follows_responding (follows_serving hrole hguard hstage fun q r hguard => ?_)
  refine follows_issue (c := .getPlugin p) hguard fun x q' hn => ?_
  obtain ⟨e, hx, rfl⟩ := hn
  have hread : ∀ e', r.getPlugin ⟨e, e'⟩ p = x := fun _ => hx.symm
  cases x with
  | error err =>
    refine ⟨rfl, rfl, rfl, .error err, rfl, ?_⟩
    simp [RegistryCall.serve, Registry.unregisterPlugin, hread, Faults.none]
  | ok info =>
    obtain ⟨uuid, kind, name⟩ := info
    cases kind with
    | hypervisor hv =>
      refine follows_issue (c := .removeHypervisor hv) hguard fun _ q' hn => ?_
      obtain rfl := hn
      refine follows_removePlugin hguard fun e' => ?_
      refine ⟨rfl, rfl, rfl, _, rfl, ?_⟩
      simp [RegistryCall.serve, Registry.unregisterPlugin, hread]
    | networking =>
      refine follows_issue (c := .setNetworking none) hguard fun _ q' hn => ?_
      obtain rfl := hn
      refine follows_removePlugin hguard fun e' => ?_
      refine ⟨rfl, rfl, rfl, _, rfl, ?_⟩
      simp [RegistryCall.serve, Registry.unregisterPlugin, hread]
    | _ =>
      refine ⟨rfl, rfl, rfl, .error .unimplemented, rfl, ?_⟩
      simp [RegistryCall.serve, Registry.unregisterPlugin, hread, Faults.none]

theorem keeps_transition (hrole : q.role = .server n (.transition p)) (hguard : q.guard = none)
    (hstage : q.stage = .begun) : Keeps (responding n (transition p)) q := by
  refine follows_responding ?_
  have hend : ∀ {o : Except FError Unit}, q.Allows (.respond n o) := fun {o} =>
    ⟨hguard, Or.inl ⟨p, hrole, hstage⟩⟩
  refine follows_issue (c := .access) trivial fun r q' hn => ?_
  obtain rfl := hn
  cases r with
  | error e => exact ⟨.error e, rfl, hend⟩
  | ok u =>
    refine follows_guarded (Ψ := fun o q₁ => (∃ o' : Except FError Unit, o = o'.mapError .err) ∧
      q₁ = { q' with guard := some (.plugin p, .write) }) ⟨hguard, Or.inl ⟨n, hrole, hstage⟩⟩ ?_ ?_
    · rintro q₁ rfl
      refine follows_issue (c := .access) trivial fun r q₁ hn => ?_
      obtain rfl := hn
      exact (Prog.follows_final _ _).2 ⟨⟨r, rfl⟩, rfl⟩
    · rintro o q₁ ⟨⟨o', rfl⟩, rfl⟩
      exact ⟨⟨rfl, fun h => by cases h⟩, o', rfl, rfl, Or.inl ⟨p, hrole, hstage⟩⟩

theorem keeps_serve (n : ℕ) (c : Call) : Keeps (serve n c) (Role.server n c).opens := by
  cases c with
  | registry q =>
    cases q with
    | register p kind => exact keeps_register rfl rfl rfl
    | unregister p => exact keeps_unregister rfl rfl rfl
  | transition p => exact keeps_transition rfl rfl rfl

end Serving

/-! ### The calls of the agent -/

section Calls

variable {q : Entry} {p : Uuid} {name : String}

/-- A call with the guard of the agent. -/
structure Entry.Inside (q : Entry) : Prop where
  role : q.role = .caller
  guard : q.guard = some (.agent, .read)
  unchanged : q.before = q.now

theorem over_caller (hrole : q.role = .caller) (hguard : q.guard = none) : q.Over :=
  ⟨hguard, fun n c h => by rw [hrole] at h; cases h⟩

theorem follows_reading {b : Act Unit} (hrole : q.role = .caller) (hguard : q.guard = none)
    (hb : ∀ q', q'.Inside → b.Follows guards (fun _ q' => q'.Inside) q') :
    (guarded .agent .read b).Follows guards (fun _ q' => q'.role = .caller ∧ q'.guard = none) q := by
  refine follows_guarded (Ψ := fun _ q' => q'.Inside) ⟨hguard, hrole⟩ ?_ ?_
  · rintro q' ⟨r, rfl⟩
    exact hb _ ⟨hrole, rfl, rfl⟩
  · intro o q' hq'
    exact ⟨⟨hq'.guard, fun _ => hq'.unchanged⟩, hq'.role, rfl⟩

theorem keeps_reading {b : Act Unit} (hrole : q.role = .caller) (hguard : q.guard = none)
    (hb : ∀ q', q'.Inside → b.Follows guards (fun _ q' => q'.Inside) q') :
    Keeps (guarded .agent .read b) q :=
  (follows_reading hrole hguard hb).mono fun _ _ h => over_caller h.1 h.2

theorem follows_access {f : Unit → Act Unit} (hq : q.Inside)
    (hf : (f ()).Follows guards (fun _ q' => q'.Inside) q) :
    (issue .access >>= fun r => tried r >>= f).Follows guards (fun _ q' => q'.Inside) q :=
  follows_tried trivial (fun _ _ hn => hn) (fun _ => ⟨_, rfl⟩) (fun _ => hf) fun _ => hq

theorem follows_last (hq : q.Inside) :
    (issue .access >>= fun r => (tried r : Act Unit)).Follows guards (fun _ q' => q'.Inside) q := by
  refine follows_issue (c := .access) trivial fun r q' hn => ?_
  obtain rfl := hn
  exact (Prog.follows_final _ _).2 hq

theorem follows_poll (hq : q.Inside) :
    (Prog.invoke Proc.poll : Act Unit).Follows guards (fun _ q' => q'.Inside) q := by
  refine ⟨trivial, fun o q' hb => (Prog.follows_final o q').2 ?_⟩
  obtain rfl := hb
  exact hq

theorem follows_plugin {f : Uuid → Act Unit} (hq : q.Inside)
    (hf : ∀ p, q.now.inner.hypervisors name = some p →
      (f p).Follows guards (fun _ q' => q'.Inside) q) :
    (plugin name >>= f).Follows guards (fun _ q' => q'.Inside) q := by
  refine follows_bind (Ψ := fun o q' => q' = q ∧
    ∀ p, o = .ok p → q.now.inner.hypervisors name = some p) ?_ ?_ ?_
  · refine follows_issue (c := .hypervisor name) ⟨_, hq.guard⟩ fun x q' hn => ?_
    obtain ⟨rfl, rfl⟩ := hn
    cases hx : q'.now.inner.hypervisors name with
    | none => exact ⟨rfl, fun p hp => by cases hp⟩
    | some p => exact ⟨rfl, fun p' hp => congrArg some (Except.ok.inj hp)⟩
  · rintro p q' ⟨rfl, hp⟩
    exact hf p (hp p rfl)
  · rintro e q' ⟨rfl, -⟩
    exact hq

theorem follows_call {f : Unit → Act Unit} (hq : q.Inside)
    (hp : q.now.inner.hypervisors name = some p)
    (hf : ∀ q', q'.Inside → (f ()).Follows guards (fun _ q'' => q''.Inside) q') :
    (remote (.transition p) >>= f).Follows guards (fun _ q' => q'.Inside) q := by
  refine follows_bind (Ψ := fun _ q' => q'.Inside) ?_ (fun _ q' hq' => hf q' hq') fun _ _ h => h
  refine follows_remote ⟨hq.role, hq.guard, name, hp⟩ (fun _ => hq) (fun n => ?_) fun x => ?_
  · exact Or.inl ⟨hq.role, hq.guard, p, rfl, name, hp⟩
  · exact ⟨hq.role, hq.guard, hq.unchanged⟩

theorem follows_dispatch {work : Uuid → Act Unit} (hrole : q.role = .caller) (hguard : q.guard = none)
    (hwork : ∀ q' p, q'.Inside → q'.now.inner.hypervisors name = some p →
      (work p).Follows guards (fun _ q'' => q''.Inside) q') : Keeps (dispatch name work) q := by
  refine keeps_reading hrole hguard fun q' hq' => ?_
  refine follows_access hq' (follows_issue (c := .owned) trivial fun b q'' hn => ?_)
  obtain rfl := hn
  cases b with
  | true => exact follows_access hq' (follows_plugin hq' fun p hp => hwork _ p hq' hp)
  | false => exact follows_last hq'

theorem follows_hypervisors {f : List String → Act Unit} (hq : q.Inside)
    (hf : ∀ l, l.Nodup → (∀ name, name ∈ l ↔ q.now.inner.hypervisors name ≠ none) →
      (f l).Follows guards (fun _ q' => q'.Inside) q) :
    (issue .hypervisors >>= f).Follows guards (fun _ q' => q'.Inside) q := by
  refine follows_issue (c := .hypervisors) ⟨_, hq.guard⟩ fun l q' hn => ?_
  obtain ⟨honce, hmem, rfl⟩ := hn
  exact hf l honce hmem

theorem NodeStatus.reports_report {r : Registry} {hvs : List String} (honce : hvs.Nodup)
    (hmem : ∀ name, name ∈ hvs ↔ r.inner.hypervisors name ≠ none) :
    (NodeStatus.report r.inner.networking hvs).Reports r := by
  refine ⟨honce, hmem, ?_⟩
  have hsome : (∃ name, r.inner.hypervisors name ≠ none) ↔ hvs ≠ [] := by
    simp only [← hmem]
    exact ⟨fun ⟨x, hx⟩ => List.ne_nil_of_mem hx, List.exists_mem_of_ne_nil hvs⟩
  rw [hsome]
  cases hvs <;> cases r.inner.networking <;> simp [NodeStatus.report]

theorem keeps_monitoring (hrole : q.role = .caller) (hguard : q.guard = none) :
    Keeps monitoring q := by
  refine follows_bind (follows_reading hrole hguard fun q' hq' => ?_) ?_ fun _ _ h =>
    over_caller h.1 h.2
  · refine follows_hypervisors hq' fun hvs honce hmem => ?_
    refine follows_issue (c := .networking) ⟨_, hq'.guard⟩ fun c q'' hn => ?_
    obtain ⟨rfl, rfl⟩ := hn
    have hreports := NodeStatus.reports_report honce hmem
    refine follows_tried (c := .addNodeStatus _) ⟨hq'.guard, hreports⟩ (fun _ _ hn => hn)
      (fun _ => ⟨_, rfl⟩) (fun _ => ?_) fun _ => hq'
    refine follows_issue (c := .localAddNodeStatus _) ⟨hq'.guard, hreports⟩ fun r q₁ hn => ?_
    rw [show q₁ = q'' from hn]
    exact (Prog.follows_final _ _).2 hq'
  · rintro a q' ⟨hrole, hguard⟩
    exact ⟨⟨hrole, hguard⟩, fun o q'' hb => (Prog.follows_final o q'').2 hb⟩

theorem follows_poll_body : poll.Follows guards (fun _ q' => q' = q) q := by
  refine follows_issue (c := .polled) trivial fun r q' hn => ?_
  obtain rfl := hn
  cases r with
  | some o => exact (Prog.follows_final _ _).2 rfl
  | none => exact ⟨trivial, fun o q'' hb => (Prog.follows_final o q'').2 hb⟩

end Calls

/-! ### The plugins -/

section Plugin

variable {q : Entry} {p : Uuid} {kind : PluginKind}

theorem over_plugin (hrole : q.role = .plugin kind p) (hguard : q.guard = none) : q.Over :=
  ⟨hguard, fun n c h => by rw [hrole] at h; cases h⟩

theorem follows_report {call : Uuid → RegistryCall} (after : Stage)
    (hrole : q.role = .plugin kind p) (hguard : q.guard = none)
    (hstage : q.stage = .named ∨ q.stage = .leaving)
    (hask : ∀ q' : Entry, q'.role = .plugin kind p → q'.stage = q.stage →
      q'.Allows (.request (.registry (call p))))
    (hwait : ∀ q' : Entry, q'.role = .plugin kind p → q'.guard = some (.plugin p, .read) →
      ∀ n, Entry.Allows
        { q' with awaits := some (n, .registry (call p)), stage := q.stage.asked (.registry (call p)) }
        (.reply n))
    (hafter : (q.stage.asked (.registry (call p))).replied (.ok ()) = after) :
    (report p call).Follows guards (fun o q' => q'.role = .plugin kind p ∧ q'.guard = none ∧
      (o = .ok () → q'.stage = after)) q := by
  refine follows_guarded (Ψ := fun o q' => q'.role = .plugin kind p ∧
    q'.guard = some (.plugin p, .read) ∧ (o = .ok () → q'.stage = after)) ⟨hguard, kind, hrole⟩ ?_ ?_
  · rintro q' rfl
    refine follows_issue (c := .uuid p) ⟨⟨kind, hrole⟩, hstage⟩ fun x q' hn => ?_
    obtain ⟨rfl, rfl⟩ := hn
    refine follows_attempt (Ψ := fun o q' => q'.role = .plugin kind p ∧
      q'.guard = some (.plugin p, .read) ∧ (o = .ok () → q'.stage = after)) ?_ ?_
    · refine follows_remote (hask _ hrole rfl) (fun _ => ⟨hrole, rfl, fun h => by cases h⟩)
        (hwait { q with guard := some (.plugin p, .read) } hrole rfl) fun x => ?_
      refine ⟨hrole, rfl, fun h => ?_⟩
      cases x with
      | ok u => exact hafter
      | error e => cases h
    · rintro o q' ⟨hrole', hguard', hstage'⟩
      cases o with
      | ok u => exact ⟨hrole', hguard', hstage'⟩
      | error e => exact ⟨hrole', hguard', fun h => by cases h⟩
  · rintro o q' ⟨hrole', hguard', hstage'⟩
    exact ⟨⟨hguard', fun h => by cases h⟩, hrole', rfl, hstage'⟩

theorem follows_server {call : Main.ServerCall} {f : Unit → Act Unit}
    (hrole : q.role = .plugin kind p) (hguard : q.guard = none) (hf : Keeps (f ()) q) :
    Keeps (issue (.server call) >>= fun r => unwrapped r >>= f) q :=
  follows_tried trivial (fun _ _ hn => hn) (fun _ => ⟨_, rfl⟩) (fun _ => hf) fun _ =>
    over_plugin hrole hguard

theorem follows_ending (hrole : q.role = .plugin kind p) (hguard : q.guard = none) : Keeps (do
    unwrapped (← issue (.server .stop))
    unwrapped (← issue (.server .unregister))
    unwrapped (← issue (.server .disconnect))) q := by
  refine follows_server hrole hguard (follows_server hrole hguard ?_)
  refine follows_issue (c := .server .disconnect) trivial fun r q' hn => ?_
  obtain rfl := hn
  exact (Prog.follows_final _ q').2 (over_plugin hrole hguard)

theorem keeps_run : Keeps (run kind p) (Role.plugin kind p).opens := by
  refine follows_issue (c := .connect p) ⟨⟨kind, rfl⟩, rfl⟩ fun r q' hn => ?_
  cases r with
  | error e =>
    obtain rfl := hn
    exact over_plugin rfl rfl
  | ok u =>
    obtain rfl := hn
    refine follows_server rfl rfl ?_
    refine follows_bind (Ψ := fun _ q' => q'.role = .plugin kind p ∧ q'.guard = none ∧
      q'.stage = .named) ?_ ?_ fun _ _ h => over_plugin h.1 h.2.1
    · refine follows_guarded (Ψ := fun _ q' => q'.role = .plugin kind p ∧
        q'.guard = some (.plugin p, .write) ∧ q'.stage = .named) ⟨rfl, Or.inr ⟨kind, rfl⟩⟩ ?_ ?_
      · rintro q' rfl
        refine follows_issue (c := .setUuid p) ⟨⟨kind, rfl⟩, rfl⟩ fun _ q' hn => ?_
        obtain rfl := hn
        exact ⟨rfl, rfl, rfl⟩
      · rintro o q' ⟨hrole, hguard, hstage⟩
        exact ⟨⟨hguard, fun h => by cases h⟩, hrole, rfl, hstage⟩
    · rintro - q₁ ⟨hrole, hguard, hstage⟩
      refine follows_bind (follows_report .joined hrole hguard (Or.inl hstage)
        (fun q' hrole' hstage' => ⟨hrole', hstage'.trans hstage⟩)
        (fun q' hrole' hguard' n => Or.inr ⟨kind, p, hrole', hguard', Or.inl ⟨rfl, rfl⟩⟩) rfl) ?_
        fun _ _ h => over_plugin h.1 h.2.1
      rintro u q₂ ⟨hrole, hguard, hstage⟩
      refine follows_server hrole hguard (follows_server hrole hguard ?_)
      refine follows_issue (c := .recv p) ⟨hguard, ⟨kind, hrole⟩, hstage rfl⟩ fun _ q₃ hn => ?_
      obtain rfl := hn
      refine follows_bind (follows_report .left hrole hguard (Or.inr rfl)
        (fun q' hrole' hstage' => ⟨⟨kind, hrole'⟩, hstage'⟩)
        (fun q' hrole' hguard' n => Or.inr ⟨kind, p, hrole', hguard', Or.inr ⟨rfl, rfl⟩⟩) rfl) ?_
        fun _ _ h => over_plugin h.1 h.2.1
      rintro u q₄ ⟨hrole, hguard, -⟩
      exact follows_ending hrole hguard

theorem keeps_defaultNetwork (hrole : q.role = .task) (hguard : q.guard = none) :
    Keeps (defaultNetwork p) q := by
  have hover : q.Over := ⟨hguard, fun n c h => by rw [hrole] at h; cases h⟩
  refine follows_tried (c := .verifyServer p) trivial (fun _ _ hn => hn) (fun _ => ⟨_, rfl⟩)
    (fun b => ?_) fun _ => hover
  cases b with
  | true =>
    refine follows_issue (c := .createDefault p) trivial fun r q' hn => ?_
    obtain rfl := hn
    exact (Prog.follows_final _ _).2 hover
  | false => exact ⟨⟨hrole, hguard⟩, fun o q'' hb => (Prog.follows_final o q'').2 hb⟩

end Plugin

section Bodies

theorem guards_sound : guards.Sound body := by
  intro q p hc
  cases p with
  | poll => exact follows_poll_body
  | monitoring => exact keeps_monitoring hc.1 hc.2
  | defaultNetwork p => exact keeps_defaultNetwork hc.1 hc.2
  | _ => cases hc

theorem keeps_body (p : Proc) : Keeps (body p) p.role.opens := by
  have hmove : ∀ (q' : Entry) (name : String) (p : Uuid), q'.Inside →
      q'.now.inner.hypervisors name = some p → Prog.Follows guards (fun _ q'' => q''.Inside)
        (remote (.transition p) >>= fun _ => Prog.invoke Proc.poll) q' := fun q' _ _ hq' hp =>
    follows_call hq' hp fun _ h => follows_poll h
  cases p with
  | define name =>
    refine keeps_reading rfl rfl fun q' hq' => ?_
    exact follows_access hq' (follows_plugin hq' fun p hp => hmove q' name p hq' hp)
  | move name => exact follows_dispatch rfl rfl fun q' p hq' hp => hmove q' name p hq' hp
  | undefine name =>
    exact follows_dispatch rfl rfl fun q' p hq' hp =>
      follows_call hq' hp fun q'' hq'' => follows_last hq''
  | status name =>
    refine keeps_reading rfl rfl fun q' hq' => ?_
    exact follows_access hq' (follows_plugin hq' fun p hp => follows_last hq')
  | poll => exact follows_poll_body.mono fun _ _ h => h ▸ over_caller rfl rfl
  | getLocalMgmtInterface =>
    exact keeps_reading rfl rfl fun q' hq' => (Prog.follows_ret () q').2 hq'
  | monitoring => exact keeps_monitoring rfl rfl
  | plugin kind p => exact keeps_run
  | defaultNetwork p => exact keeps_defaultNetwork rfl rfl
  | serve n c => exact keeps_serve n c

end Bodies

end Fog05.Processes
