import Fog05.Proofs.Compatibility

/-! Where an FDU is placed. The agent that schedules it asks all others whether they are
compatible, itself last, and has one of those that are define it. -/

namespace Fog05

open Conc M

/-- The service uuids of the other agents, in the order of the node list. -/
def services (a : Agent) (nodes : List NodeInfo) : List Uuid :=
  nodes.filterMap fun node =>
    if node.agentServiceUuid ≠ a.instanceUuid then some node.agentServiceUuid else none

abbrev Dialogue := List (Exchange Cmd.Ans Proc.Ret Exn)

/-- The agent serving `svc` is asked whether it is compatible with FDU `f`, and what the
asking agent learns: the request fails, the reply is lost, or the check has ended so. -/
inductive Asked (z : Session) (f svc : Uuid) : Dialogue → Except Exn Bool → Prop
  | unsent (e : FError) :
      Asked z f svc [.act (.access (.request (.agent svc (.checkFduCompatibility f)))) (.error e)]
        (.error (.err e))
  | lost (o : Except Exn Bool) (e : FError) :
      Asked z f svc [.act (.access (.request (.agent svc (.checkFduCompatibility f)))) (.ok ()),
        .call (.agent svc (.checkFduCompatibility f)) o,
        .act (.access (.reply (.agent svc (.checkFduCompatibility f)) (received z o))) (.error e)]
        (.error (.err e))
  | answered (o : Except Exn Bool) :
      Asked z f svc [.act (.access (.request (.agent svc (.checkFduCompatibility f)))) (.ok ()),
        .call (.agent svc (.checkFduCompatibility f)) o,
        .act (.access (.reply (.agent svc (.checkFduCompatibility f)) (received z o)))
          (received z o)]
        ((received z o).mapError .err)

/-- These agents are asked, one after the other, with these outcomes. -/
inductive AllAsked (z : Session) (f : Uuid) :
    List Uuid → Dialogue → List (Except Exn Bool) → Prop
  | nil : AllAsked z f [] [] []
  | cons {svc ss l₁ l₂ check checks} : Asked z f svc l₁ check → AllAsked z f ss l₂ checks →
      AllAsked z f (svc :: ss) (l₁ ++ l₂) (check :: checks)

/-- The agents whose check answered true: the others in the order of the node list, then
the agent itself, by its node's uuid. -/
def compatibleNodes (a : Agent) (nodes : List NodeInfo) (checks : List (Except Exn Bool))
    (own : Except Exn Bool) : List Uuid :=
  ((checks.zip (services a nodes)).filter fun x => x.1 = .ok true).map Prod.snd ++
    if own = .ok true then [a.nodeUuid] else []

/-- The node list is this one, a reply is what the server has sent, unless the access
fails; and a random pick is among what there is to pick from. -/
def Lists (nodes : List NodeInfo) : Exchange Cmd.Ans Proc.Ret Exn → Prop
  | .act (.access .getAllNodes) r => r = .ok nodes ∨ ∃ e, r = .error e
  | .act (.access (.reply _ o)) r => r = o ∨ ∃ e, r = .error e
  | .act (.choose ns) r => ns = [] ∧ r = none ∨ ∃ u ∈ ns, r = some u
  | _ => True

/-- How the search for compatible nodes goes: the other agents are asked, all of them, and
then the agent makes its own check, in which it may panic. -/
inductive Surveyed (z : Session) (a : Agent) (f : Uuid) (nodes : List NodeInfo) :
    Dialogue → Except Exn (List Uuid) → Prop
  | unread (e : FError) :
      Surveyed z a f nodes [.act (.access .getAllNodes) (.error e)] (.error (.err e))
  | panicked {l₁ l₂ checks} : AllAsked z f (services a nodes) l₁ checks →
      (Agent.checkFduCompatibility a f).Talks l₂ (.error .panic) →
      Surveyed z a f nodes (.act (.access .getAllNodes) (.ok nodes) :: (l₁ ++ l₂)) (.error .panic)
  | found {l₁ l₂ checks own} : AllAsked z f (services a nodes) l₁ checks →
      (Agent.checkFduCompatibility a f).Talks l₂ own → own ≠ .error .panic →
      Surveyed z a f nodes (.act (.access .getAllNodes) (.ok nodes) :: (l₁ ++ l₂))
        (.ok (compatibleNodes a nodes checks own))

/-- `define_fdu` at the agent that is known as `target`. -/
def defineAt (z : Session) (a : Agent) (f target : Uuid) : M FDURecord :=
  if target = a.nodeUuid then Agent.defineFdu z a f else rpc z target (.defineFdu f)

/-- What comes of these nodes: one of them, if there is one, is to define the FDU. -/
inductive Assigned (z : Session) (a : Agent) (f : Uuid) :
    Except Exn (List Uuid) → Dialogue → Except Exn FDURecord → Prop
  | failed (e : Exn) : Assigned z a f (.error e) [] (.error e)
  | nowhere : Assigned z a f (.ok []) [.act (.choose []) none] (.error (.err .notFound))
  | defined {ns target l o} : target ∈ ns → (defineAt z a f target).Talks l o →
      Assigned z a f (.ok ns) (.act (.choose ns) (some target) :: l) o

/-- The remote calls that define an FDU, at an agent or at a plugin. -/
def Rpc.Defines : Rpc → Prop
  | .agent _ (.defineFdu _) | .plugin _ (.defineFdu _) => True
  | _ => False

/-- An agent or a plugin is asked to define an FDU. -/
def Defines : Exchange Cmd.Ans Proc.Ret Exn → Prop
  | .act (.access (.request q)) _ => q.Defines
  | _ => False

section Talks

variable {z : Session} {a : Agent} {f svc : Uuid} {nodes : List NodeInfo} {l : Dialogue}
  {checks : List (Except Exn Bool)} {own : Except Exn Bool}

theorem rpc_talks {o : Except Exn Bool} (h : (rpc z svc (.checkFduCompatibility f)).Talks l o)
    (hl : ∀ x ∈ l, Lists nodes x) : Asked z f svc l o := by
  unfold rpc remote at h
  rcases talks_ask.1 h with ⟨e, rfl, rfl⟩ | ⟨x, l', rfl, h'⟩
  · exact .unsent e
  · rw [Prog.attempt_bind] at h'
    obtain ⟨l₁, l₂, o', rfl, hcall, hreply⟩ := Prog.talks_bindE.1 h'
    obtain rfl := Prog.talks_invoke.1 hcall
    obtain ⟨y, rfl, rfl⟩ := talks_access.1 hreply
    have hy : y = received z o' ∨ ∃ e, y = .error e := hl (.act (.access (.reply _ _)) y) (by simp)
    rcases hy with rfl | ⟨e, rfl⟩
    · exact .answered o'
    · exact .lost o' e

theorem Asked.defines_none {o : Except Exn Bool} (h : Asked z f svc l o) : ∀ x ∈ l, ¬ Defines x := by
  cases h with
  | unsent e => exact List.forall_mem_singleton.2 id
  | lost o e | answered o =>
    exact List.forall_mem_cons.2 ⟨id, List.forall_mem_cons.2 ⟨id, List.forall_mem_singleton.2 id⟩⟩

theorem AllAsked.defines_none {ss : List Uuid} (h : AllAsked z f ss l checks) :
    ∀ x ∈ l, ¬ Defines x := by
  induction h with
  | nil => exact fun _ hx => absurd hx List.not_mem_nil
  | cons hasked _ ih => exact List.forall_mem_append.2 ⟨hasked.defines_none, ih⟩

theorem AllAsked.length_eq {ss : List Uuid} (h : AllAsked z f ss l checks) :
    checks.length = ss.length := by
  induction h with
  | nil => rfl
  | cons _ _ ih => simp [ih]

/-- A failing agent does not keep the next one from being asked. -/
theorem checkAll_talks {ss : List Uuid} {o : Except Exn (List (Except Exn Bool × Uuid))}
    (h : (Agent.checkAll z f ss).Talks l o) (hl : ∀ x ∈ l, Lists nodes x) :
    ∃ checks, AllAsked z f ss l checks ∧ o = .ok (checks.zip ss) := by
  induction ss generalizing l o with
  | nil =>
    obtain ⟨rfl, rfl⟩ := Prog.talks_ret.1 h
    exact ⟨[], .nil, rfl⟩
  | cons svc ss ih =>
    rw [Agent.checkAll, Prog.attempt_bind] at h
    obtain ⟨l₁, l₂, check, rfl, hrpc, hrest⟩ := Prog.talks_bindE.1 h
    obtain ⟨hl₁, hl₂⟩ := List.forall_mem_append.1 hl
    have hasked := rpc_talks hrpc hl₁
    rcases Prog.talks_bind.1 hrest with ⟨e, hall, -⟩ | ⟨l₂, l₃, results, rfl, hall, hend⟩
    · obtain ⟨checks, -, hr⟩ := ih hall hl₂
      cases hr
    · obtain ⟨checks, hchecks, hr⟩ := ih hall (List.forall_mem_append.1 hl₂).1
      obtain rfl := Except.ok.inj hr
      obtain ⟨rfl, rfl⟩ := Prog.talks_ret.1 hend
      exact ⟨check :: checks, by simpa using AllAsked.cons hasked hchecks, rfl⟩

/-- An error of the agent's own check is a value, a panic is the caller's. -/
theorem selfCheck_talks {o : Except Exn (Except Exn Bool)} (h : (Agent.selfCheck a f).Talks l o) :
    ∃ own, (Agent.checkFduCompatibility a f).Talks l own ∧
      (own = .error .panic ∧ o = .error .panic ∨ own ≠ .error .panic ∧ o = .ok own) := by
  obtain ⟨l₁, l₂, own, rfl, hcheck, hend⟩ := Prog.talks_bindE.1 h
  have hnil : l₂ = [] ∧
      (own = .error .panic ∧ o = .error .panic ∨ own ≠ .error .panic ∧ o = .ok own) := by
    rcases own with (e | _) | b
    · obtain ⟨rfl, rfl⟩ := Prog.talks_ret.1 hend
      exact ⟨rfl, Or.inr ⟨nofun, rfl⟩⟩
    · obtain ⟨rfl, rfl⟩ := Prog.talks_err.1 hend
      exact ⟨rfl, Or.inl ⟨rfl, rfl⟩⟩
    · obtain ⟨rfl, rfl⟩ := Prog.talks_ret.1 hend
      exact ⟨rfl, Or.inr ⟨nofun, rfl⟩⟩
  obtain ⟨rfl, ho⟩ := hnil
  exact ⟨own, by simpa using hcheck, ho⟩

theorem filterMap_results (results : List (Except Exn Bool × Uuid)) :
    (results.filterMap fun r => match r.1 with | .ok true => some r.2 | _ => none) =
      (results.filter fun r => r.1 = .ok true).map Prod.snd := by
  induction results with
  | nil => rfl
  | cons r results ih =>
    obtain ⟨check, svc⟩ := r
    rcases check with e | (_ | _) <;> simp [ih]

theorem compatibleNodes_eq : compatibleNodes a nodes checks own =
    (checks.zip (services a nodes) ++ [(own, a.nodeUuid)]).filterMap fun r =>
      match r.1 with
      | .ok true => some r.2
      | _ => none := by
  rw [filterMap_results, List.filter_append, List.map_append, compatibleNodes]
  by_cases hown : own = .ok true <;> simp [hown]

theorem services_eq : services a nodes =
    (nodes.map (·.agentServiceUuid)).filter fun svc => svc ≠ a.instanceUuid := by
  induction nodes with
  | nil => rfl
  | cons node nodes ih =>
    unfold services at ih ⊢
    rw [List.filterMap_cons, List.map_cons, List.filter_cons, ih]
    by_cases h : node.agentServiceUuid = a.instanceUuid <;> simp [h]

theorem nodup_compatibleNodes (hnodup : (nodes.map (·.agentServiceUuid)).Nodup)
    (hapart : a.nodeUuid ∉ services a nodes) (hlength : checks.length = (services a nodes).length) :
    (compatibleNodes a nodes checks own).Nodup := by
  have hservices : (services a nodes).Nodup := services_eq (a := a) ▸ hnodup.filter _
  have hsub : (((checks.zip (services a nodes)).filter fun x => x.1 = .ok true).map
      Prod.snd).Sublist (services a nodes) := by
    have hsnd : (checks.zip (services a nodes)).map Prod.snd = services a nodes :=
      List.map_snd_zip hlength.ge
    simpa only [hsnd] using (List.filter_sublist (l := checks.zip (services a nodes))
      (p := fun x => x.1 = .ok true)).map Prod.snd
  refine (hservices.sublist hsub).append ?_ fun svc hsvc hnode => ?_
  · split
    · exact List.nodup_singleton _
    · exact List.nodup_nil
  · split at hnode
    · exact hapart (List.mem_singleton.1 hnode ▸ hsub.subset hsvc)
    · exact absurd hnode List.not_mem_nil

theorem check_defines_none {o : Except Exn Bool} (h : (Agent.checkFduCompatibility a f).Talks l o) :
    ∀ x ∈ l, ¬ Defines x := by
  have hwithin : (Agent.checkFduCompatibility a f).Within (fun c => ∀ r, ¬ Defines (.act c r))
      fun _ => False := by
    have himage : ∀ image, (Agent.imageExists image).Within (fun c => ∀ r, ¬ Defines (.act c r))
        fun _ => False := by
      intro image
      unfold Agent.imageExists
      split
      · trivial
      · split
        · exact within_issue fun _ => id
        · trivial
    rw [checkFduCompatibility_eq]
    refine within_bind (within_ask fun _ => id) fun d =>
      within_bind (within_ask fun _ => id) fun info =>
        within_bind (within_ask fun _ => id) fun status =>
          within_bind (within_issue fun _ => id) fun plugin => ?_
    unfold judge
    split
    · exact within_bind (himage _) fun _ => Prog.within_final _
    · trivial
  obtain ⟨hact, hcall⟩ := hwithin.talks h
  rintro (⟨c, r⟩ | ⟨p, o'⟩) hx
  · exact hact c r hx r
  · exact id

/-- All the other agents are asked, then the agent itself; then the answers are sorted out. -/
theorem getCompatibleNodes_talks {o : Except Exn (List Uuid)}
    (h : (Agent.getCompatibleNodes z a f).Talks l o) (hl : ∀ x ∈ l, Lists nodes x) :
    Surveyed z a f nodes l o := by
  rcases talks_ask.1 h with ⟨e, rfl, rfl⟩ | ⟨nodes', l', rfl, h'⟩
  · exact .unread e
  obtain ⟨hread, hl'⟩ := List.forall_mem_cons.1 hl
  obtain rfl : nodes' = nodes := by
    rcases hread with hr | ⟨e, he⟩
    · exact Except.ok.inj hr
    · cases he
  rcases Prog.talks_bind.1 h' with ⟨e, hall, -⟩ | ⟨l₁, l₂, results, rfl, hall, hrest⟩
  · obtain ⟨checks, -, hr⟩ := checkAll_talks hall hl'
    cases hr
  obtain ⟨checks, hchecks, hr⟩ := checkAll_talks hall (List.forall_mem_append.1 hl').1
  obtain rfl := Except.ok.inj hr
  rcases Prog.talks_bind.1 hrest with ⟨e, hself, rfl⟩ | ⟨l₂, l₃, own, rfl, hself, hend⟩
  · obtain ⟨own, hcheck, ho⟩ := selfCheck_talks hself
    rcases ho with ⟨rfl, he⟩ | ⟨-, he⟩
    · cases he
      exact .panicked hchecks hcheck
    · cases he
  · obtain ⟨own', hcheck, ho⟩ := selfCheck_talks hself
    obtain ⟨rfl, rfl⟩ := Prog.talks_ret.1 hend
    rcases ho with ⟨-, he⟩ | ⟨hne, he⟩
    · cases he
    obtain rfl := Except.ok.inj he
    rw [List.append_nil]
    exact compatibleNodes_eq (a := a) ▸ Surveyed.found hchecks hcheck hne

theorem Surveyed.nodup {ns : List Uuid} (h : Surveyed z a f nodes l (.ok ns))
    (hnodup : (nodes.map (·.agentServiceUuid)).Nodup) (hapart : a.nodeUuid ∉ services a nodes) :
    ns.Nodup := by
  cases h with
  | found hchecks _ _ => exact nodup_compatibleNodes hnodup hapart hchecks.length_eq

theorem Surveyed.defines_none {o : Except Exn (List Uuid)} (h : Surveyed z a f nodes l o) :
    ∀ x ∈ l, ¬ Defines x := by
  cases h with
  | unread e => exact List.forall_mem_singleton.2 id
  | panicked hchecks hcheck | found hchecks hcheck _ =>
    exact List.forall_mem_cons.2 ⟨id,
      List.forall_mem_append.2 ⟨hchecks.defines_none, check_defines_none hcheck⟩⟩

/-- A remote agent is picked by its service uuid, the agent itself by its node's. -/
theorem scheduleFdu_talks {o : Except Exn FDURecord} (h : (Agent.scheduleFdu z a f).Talks l o)
    (hl : ∀ x ∈ l, Lists nodes x) :
    ∃ l₁ l₂ o₁, l = l₁ ++ l₂ ∧ Surveyed z a f nodes l₁ o₁ ∧ Assigned z a f o₁ l₂ o := by
  rcases Prog.talks_bind.1 h with ⟨e, hget, rfl⟩ | ⟨l₁, l₂, ns, rfl, hget, hrest⟩
  · exact ⟨l, [], _, (List.append_nil _).symm, getCompatibleNodes_talks hget hl, .failed e⟩
  · obtain ⟨hl₁, hl₂⟩ := List.forall_mem_append.1 hl
    refine ⟨l₁, l₂, _, rfl, getCompatibleNodes_talks hget hl₁, ?_⟩
    obtain ⟨selected, l₃, rfl, hdefine⟩ := talks_issue.1 hrest
    have hpick : ns = [] ∧ selected = none ∨ ∃ u ∈ ns, selected = some u :=
      hl₂ (.act (.choose ns) selected) List.mem_cons_self
    rcases hpick with ⟨rfl, rfl⟩ | ⟨target, htarget, rfl⟩
    · obtain ⟨rfl, rfl⟩ := Prog.talks_err.1 hdefine
      exact .nowhere
    · exact .defined htarget hdefine

end Talks

section Placement

variable {z : Session} {a : Agent} {f : Uuid} {nodes : List NodeInfo} {l l' : Dialogue}
  {o : Except Exn (List Uuid)} {o' : Except Exn FDURecord}

theorem exec_lists {c : Cmd} {ch : Choice} {r : c.Ans} {s s' : Fos}
    (hx : exec c ch s = some (r, s')) :
    Lists s.global.nodes.rows (.act c r) ∧ s'.global.nodes = s.global.nodes := by
  cases c with
  | access x =>
    rcases exec_access hx with ⟨-, hr⟩ | ⟨e, -, rfl, rfl⟩
    · obtain ⟨rfl, rfl⟩ := Prod.mk.inj hr
      cases x with
      | getAllNodes | reply q o => exact ⟨Or.inl rfl, rfl⟩
      | _ => exact ⟨trivial, rfl⟩
    · refine ⟨?_, rfl⟩
      cases x with
      | getAllNodes | reply q o => exact Or.inr ⟨e, rfl⟩
      | _ => trivial
  | choose ns =>
    obtain ⟨rfl, hpick⟩ := exec_choose hx
    exact ⟨hpick, rfl⟩
  | _ => exact ⟨trivial, by rw [(exec_internal (fun _ h => by cases h) hx).1]⟩

/-- Whatever fails in a run, the node list stays as it is. -/
theorem lists_of_runs {α : Type} {ok : Choice → Prop} {k : ℕ} {s s' : Fos} {b : M α}
    {o : Except Exn α} (hnodes : s.global.nodes.rows = nodes)
    (h : (system z ok).Runs k s b s' (.final o)) : ∃ l, b.Talks l o ∧ ∀ x ∈ l, Lists nodes x := by
  have henv : ∀ s s' : Fos, s.global.nodes.rows = nodes → (system z ok).env s s' →
      s'.global.nodes.rows = nodes := by
    rintro s s' hs ⟨n, hm⟩
    obtain ⟨st, hst, rfl⟩ := Option.map_eq_some_iff.1 hm
    exact (congrArg Table.rows (monitor_moves hst).nodes).trans hs
  have hact : ∀ c (s : Fos) r s', s.global.nodes.rows = nodes → (system z ok).act c s r s' →
      Lists nodes (.act c r) ∧ s'.global.nodes.rows = nodes := by
    rintro c s r s' hs ⟨ch, -, hx⟩
    obtain ⟨hlists, hkept⟩ := exec_lists hx
    exact ⟨hs ▸ hlists, (congrArg Table.rows hkept).trans hs⟩
  obtain ⟨l, htalk, hlists, -⟩ := h.exists_talk henv hact (fun _ _ => trivial) hnodes
  exact ⟨l, htalk, hlists⟩

/-- `get_compatible_nodes` asks every other agent in the order of the node list and returns
those whose check answered true, each once, the agent itself last; `schedule_fdu` has one of
them define the FDU, if there is one. Every run of the two is such a dialogue. -/
theorem placed_once (hnodup : (nodes.map (·.agentServiceUuid)).Nodup)
    (hapart : a.nodeUuid ∉ services a nodes)
    (h : (Agent.getCompatibleNodes z a f).Talks l o) (hl : ∀ x ∈ l, Lists nodes x)
    (h' : (Agent.scheduleFdu z a f).Talks l' o') (hl' : ∀ x ∈ l', Lists nodes x) :
    (Surveyed z a f nodes l o ∧ ∀ ns, o = .ok ns → ns.Nodup) ∧
    (∃ l₁ l₂ o₁, l' = l₁ ++ l₂ ∧ Surveyed z a f nodes l₁ o₁ ∧ (∀ x ∈ l₁, ¬ Defines x) ∧
      (∀ ns, o₁ = .ok ns → ns.Nodup) ∧ Assigned z a f o₁ l₂ o') ∧
    ∀ {α : Type} {ok : Choice → Prop} {k : ℕ} {s s' : Fos} {b : M α} {o : Except Exn α},
      s.global.nodes.rows = nodes → (system z ok).Runs k s b s' (.final o) →
        ∃ l, b.Talks l o ∧ ∀ x ∈ l, Lists nodes x := by
  refine ⟨?_, ?_, fun hnodes hrun => lists_of_runs hnodes hrun⟩
  · have hsurvey := getCompatibleNodes_talks h hl
    refine ⟨hsurvey, ?_⟩
    rintro ns rfl
    exact hsurvey.nodup hnodup hapart
  · obtain ⟨l₁, l₂, o₁, hl', hsurvey, hplaced⟩ := scheduleFdu_talks h' hl'
    refine ⟨l₁, l₂, o₁, hl', hsurvey, hsurvey.defines_none, ?_, hplaced⟩
    rintro ns rfl
    exact hsurvey.nodup hnodup hapart

end Placement

def fleet : List Site := (List.range 6).map fun i => .small i (100 + i) 7

/-- The request to 102 fails, and all stores answer. -/
def fleetAnswer : (c : Cmd) → c.Ans
  | .access (.request (.agent 102 _)) => .error (.zError "timeout")
  | .access (.request _) => .ok ()
  | .access (.reply _ o) => o
  | .access .getAllNodes => .ok (fleet.map (·.info))
  | .access (.getFdu f) => .ok (.plain f)
  | .access (.getNodeInfo n) => .ok (Site.small n 100 7).info
  | .access (.getNodeStatus n) => .ok (Site.small n 100 7).status
  | .access _ => .error .notFound
  | .net _ _ => .error .notFound
  | .hypervisor _ _ => some 7
  | .newUuid => 0
  | .choose ns => ns.head?
  | .pathExists _ => true
  | .lock _ | .unlock _ | .insert _ _ | .remove _ _ | .spawn _ => ()

/-- 101 and 105 are compatible, 103 is not, and the check of 104 fails. -/
def fleetOutcome : (q : Proc) → Except Exn q.Ret
  | .agent 101 (.checkFduCompatibility _) | .agent 105 (.checkFduCompatibility _) => .ok true
  | .agent 103 (.checkFduCompatibility _) => .ok false
  | _ => .error (.err .notFound)

theorem fleetAnswer_lists (c : Cmd) : Lists (fleet.map (·.info)) (.act c (fleetAnswer c)) := by
  cases c with
  | access x =>
    cases x with
    | getAllNodes | reply q o => exact Or.inl rfl
    | _ => trivial
  | choose ns =>
    cases ns with
    | nil => exact Or.inl ⟨rfl, rfl⟩
    | cons u ns => exact Or.inr ⟨u, List.mem_cons_self, rfl⟩
  | _ => trivial

theorem fleet_lists {α : Type} (b : M α) :
    ∀ x ∈ (b.answered fleetAnswer fleetOutcome).1, Lists (fleet.map (·.info)) x :=
  Prog.forall_answered fleetAnswer_lists (fun _ => trivial) b

theorem placed_once_fleet : ∃ l l' o', (Agent.getCompatibleNodes (Site.session fleet) ⟨0, 100⟩ 50).Talks
      l (.ok [101, 105, 0]) ∧
    Surveyed (Site.session fleet) ⟨0, 100⟩ 50 (fleet.map (·.info)) l (.ok [101, 105, 0]) ∧
    (Agent.scheduleFdu (Site.session fleet) ⟨0, 100⟩ 50).Talks l' o' ∧
    ∃ l₁ l₂ o₁, l' = l₁ ++ l₂ ∧ (∀ x ∈ l₁, ¬ Defines x) ∧
      Assigned (Site.session fleet) ⟨0, 100⟩ 50 o₁ l₂ o' := by
  have htalk := Prog.talks_answered fleetAnswer fleetOutcome
    (Agent.getCompatibleNodes (Site.session fleet) ⟨0, 100⟩ 50)
  have hfound : ((Agent.getCompatibleNodes (Site.session fleet) ⟨0, 100⟩ 50).answered fleetAnswer
      fleetOutcome).2 = .ok [101, 105, 0] := by
    decide +kernel
  rw [hfound] at htalk
  have htalk' := Prog.talks_answered fleetAnswer fleetOutcome
    (Agent.scheduleFdu (Site.session fleet) ⟨0, 100⟩ 50)
  obtain ⟨⟨hsurvey, -⟩, ⟨l₁, l₂, o₁, hl', -, hno, -, hplaced⟩, -⟩ :=
    placed_once (by decide) (by decide) htalk (fleet_lists _) htalk' (fleet_lists _)
  exact ⟨_, _, _, htalk, hsurvey, htalk', l₁, l₂, o₁, hl', hno, hplaced⟩

end Fog05
