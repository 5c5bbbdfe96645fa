import Fog05.Proofs.Identity

/-! The plugin that an instance is left to. It is looked up again for every call, under
the hypervisor that the FDU's descriptor names at that time: calls go to the plugin that
defined the instance as long as no onboarding changes that name. -/

namespace Fog05

open Conc M

def Thread.defining : Thread Cmd.Ans Proc.Ret Exn → Option (FDURecord × Uuid)
  | ⟨_, .act (.access (.localPutInstance _ r)) k⟩ =>
      match k (.ok ()) with
      | .act (.insert p r') _ => if r'.uuid = r.uuid then some (r, p) else none
      | _ => none
  | _ => none

/-- In this step `define_fdu` is given the uuid of its new instance `r`, which it is about
to store on its node and to leave to plugin `p`. -/
def Creation (z : Session) (r : FDURecord) (p : Uuid) (w w' : Calls) : Prop :=
  ∃ i t, w.upcoming i = some .newUuid ∧ (machine z).Step (.fire i (.uuid r.uuid)) w w' ∧
    w'.threads[i]? = some t ∧ Thread.defining t = some (r, p)

/-- No descriptor of FDU `f` is put that names another hypervisor. -/
def KeepsName (f : Uuid) (h : String) (l : Label Proc Choice Uuid) (w : Calls) : Prop :=
  ∀ i d, l = .fire i .go → w.upcoming i = some (.access (.putFdu d)) → d.uuid = some f →
    d.hypervisor = h

/-- All that a call knows of instance `r` leads to plugin `p`, which its node has
registered under `h`. -/
structure Bound (r : FDURecord) (p : Uuid) (h : String) (q : Ledger) : Prop where
  identity : ∀ f n, q.knows (.fdu r.uuid f n) → f = r.fduUuid ∧ n = r.node
  descriptor : ∀ f n, q.knows (.fdu r.uuid f n) → ∀ d, q.descriptor = some d →
    d.uuid = some r.fduUuid → d.hypervisor = h
  plugin : ∀ p', q.knows (.plugin r.uuid p') → p' = p

/-- And so does all that the state tells. -/
structure Leading (r : FDURecord) (p : Uuid) (h : String) (s : Fos) : Prop where
  identity : ∀ f n, s.Shows (.fdu r.uuid f n) → f = r.fduUuid ∧ n = r.node
  issued : r.uuid ∈ s.issued
  catalog : ∀ d ∈ s.global.fdus, d.uuid = some r.fduUuid → d.hypervisor = h
  registered : (s.node r.node).hypervisors h = some p

section Steps

variable {z : Session} {r : FDURecord} {p : Uuid} {h : String} {q : Ledger} {s s' : Fos} {c : Cmd}
  {ch : Choice} {x : c.Ans}

theorem thread_defining {t : Thread Cmd.Ans Proc.Ret Exn} (ht : Thread.defining t = some (r, p)) :
    ∃ n k r' k', t = ⟨t.proc, .act (.access (.localPutInstance n r)) k⟩ ∧
      k (.ok ()) = .act (.insert p r') k' ∧ r'.uuid = r.uuid := by
  unfold Thread.defining at ht
  split at ht
  · split at ht
    · next hk =>
      split at ht
      · next hu =>
        cases ht
        exact ⟨_, _, _, _, rfl, hk, hu⟩
      · cases ht
    · cases ht
  · cases ht

theorem Bound.of_silent (hq : Bound r p h q)
    (hdescr : ∀ d, (q.note c x).descriptor = some d → q.descriptor = some d)
    (hfdu : ∀ f n, ¬ q.Learns (.fdu r.uuid f n) c x)
    (hplugin : ∀ p', ¬ q.Learns (.plugin r.uuid p') c x) : Bound r p h (q.after c x) := by
  refine ⟨fun f n hk => ?_, fun f n hk d hd => ?_, fun p' hk => ?_⟩
  · exact hq.identity f n (hk.resolve_right (hfdu f n))
  · exact hq.descriptor f n (hk.resolve_right (hfdu f n)) d (hdescr d hd)
  · exact hq.plugin p' (hk.resolve_right (hplugin p'))

theorem Bound.of_read {i : FDURecord} (hq : Bound r p h q) (hs : Leading r p h s)
    (hshows : s.Shows i.datum) (hdescr : (q.note c x).descriptor = none)
    (hlearns : ∀ y, q.Learns y c x → y = i.datum) : Bound r p h (q.after c x) := by
  refine ⟨fun f n hk => ?_, fun f n _ d hd => ?_, fun p' hk => ?_⟩
  · rcases hk with hk | hl
    · exact hq.identity f n hk
    · exact hs.identity f n (hlearns _ hl ▸ hshows)
  · cases hdescr.symm.trans hd
  · exact hq.plugin p' (hk.resolve_right fun hl => by cases hlearns _ hl)

theorem note_reply {q' : Rpc} {o : Except FError q'.Ret} {x : Except FError q'.Ret} :
    (q.note (.access (.reply q' o)) x).descriptor = q.descriptor := by
  cases q' with
  | agentPlugin n r => cases r <;> cases x <;> rfl
  | _ => rfl

theorem Bound.after (hq : Bound r p h q) (hs : Leading r p h s) (hx : exec c ch s = some (x, s')) :
    Bound r p h (q.after c x) := by
  cases c with
  | newUuid =>
    have hne : x ≠ r.uuid := fun hu => (exec_newUuid hx).1 (hu ▸ hs.issued)
    refine hq.of_silent (fun d (hd : none = some d) => by cases hd) (fun f n hl => ?_) fun p' hl => ?_
    · rcases learns_newUuid hl with ⟨f', n', hy⟩ | ⟨e, hy⟩ | ⟨p', hy⟩ <;> cases hy
      exact hne rfl
    · rcases learns_newUuid hl with ⟨f', n', hy⟩ | ⟨e, hy⟩ | ⟨p', hy⟩ <;> cases hy
      exact hne rfl
  | hypervisor n name =>
    cases x with
    | none => exact hq.of_silent (fun _ => id) (fun _ _ => id) fun _ => id
    | some p₁ =>
      refine ⟨fun f m hk => ?_, fun f m hk d hd => ?_, fun p' hk => ?_⟩
      · rcases hk with hk | ⟨_, _, _, _, _, _, _, hy⟩
        · exact hq.identity f m hk
        · cases hy
      · rcases hk with hk | ⟨_, _, _, _, _, _, _, hy⟩
        · exact hq.descriptor f m hk d hd
        · cases hy
      · rcases hk with hk | ⟨d, f, u, hd, hname, hf, hu, hy⟩
        · exact hq.plugin p' hk
        · cases hy
          obtain ⟨rfl, rfl⟩ := hq.identity f n hu
          have hreg : some p₁ = (s.node r.node).hypervisors name := (exec_hypervisor hx).1
          rw [← hname, hq.descriptor _ _ hu d hd hf, hs.registered] at hreg
          exact Option.some.inj hreg
  | access a =>
    cases x with
    | error e =>
      have hnote : (q.note (.access a) (.error e)).descriptor = q.descriptor := by
        cases a <;> first | rfl | exact note_reply
      exact hq.of_silent (fun _ hd => hnote ▸ hd) (fun f n => by cases a <;> exact id)
        fun p' => by cases a <;> exact id
    | ok y =>
      cases a with
      | getFdu f =>
        obtain ⟨-, hr⟩ | ⟨e, -, he, -⟩ := exec_access hx
        · have hget : single (s.global.fdus.select (· = some f)) = .ok y := congrArg Prod.fst hr
          refine ⟨fun f n hk => hq.identity f n (hk.resolve_right id), fun f' n _ d hd hf => ?_,
            fun p' hk => hq.plugin p' (hk.resolve_right id)⟩
          obtain rfl : y = d := Option.some.inj hd
          exact hs.catalog y (single_select_key hget).1 hf
        · cases he
      | getInstance u => exact hq.of_read hs (exec_tells hx rfl) rfl fun _ => id
      | localGetInstance n u => exact hq.of_read hs (exec_tells hx rfl) rfl fun _ => id
      | getEntityInstance u =>
        refine hq.of_silent (fun _ => id) (fun f n hl => ?_) fun p' hl => ?_
        · rcases List.mem_pair.1 hl with hl | hl <;> cases hl
        · rcases List.mem_pair.1 hl with hl | hl <;> cases hl
      | reply q' o =>
        exact hq.of_silent (fun _ hd => note_reply ▸ hd) (fun _ _ => id) fun _ => id
      | _ => exact hq.of_silent (fun _ => id) (fun _ _ => id) fun _ => id
  | _ => exact hq.of_silent (fun _ => id) (fun _ _ => id) fun _ => id

theorem Bound.of_entities {q : Ledger} (hk : ∀ x, q.knows x → ∃ i : EntityRecord, x ∈ i.data) : Bound r p h q := by
  have hno : (∀ f n, ¬ q.knows (.fdu r.uuid f n)) ∧ ∀ p', ¬ q.knows (.plugin r.uuid p') := by
    refine ⟨fun f n hx => ?_, fun p' hx => ?_⟩
    · obtain ⟨i, hi⟩ := hk _ hx
      rcases List.mem_pair.1 hi with hi | hi <;> cases hi
    · obtain ⟨i, hi⟩ := hk _ hx
      rcases List.mem_pair.1 hi with hi | hi <;> cases hi
  exact ⟨fun f n hx => absurd hx (hno.1 f n), fun f n hx => absurd hx (hno.1 f n),
    fun p' hx => absurd hx (hno.2 p')⟩

end Steps

/-- The invariant after the creation of `r`. -/
structure Led (r : FDURecord) (p : Uuid) (h : String) (w : Calls) : Prop where
  accounted : ∃ T, r.datum.Holds T ∧ Accounted T w
  catalog : ∀ d ∈ w.state.global.fdus, d.uuid = some r.fduUuid → d.hypervisor = h
  registered : (w.state.node r.node).hypervisors h = some p
  bound : w.Follows Provenance Proc.Reports fun _ q _ => Bound r p h q

section Runs

variable {z : Session} {r : FDURecord} {p : Uuid} {h : String} {w w' : Calls}
  {l : Label Proc Choice Uuid}

theorem hypervisors_step (hs : (machine z).Step l w w') (n : Uuid) :
    (w'.state.node n).hypervisors = (w.state.node n).hypervisors := by
  cases hs with
  | act hi hx => exact exec_hypervisors hx
  | env hm =>
    obtain ⟨st, hst, rfl⟩ := Option.map_eq_some_iff.1 hm
    exact (monitor_moves hst).hypervisors n
  | launch hlaunch =>
    obtain ⟨t, ts, -, -, rfl⟩ := launch_eq_some hlaunch
    rfl
  | _ => rfl

theorem Led.leading (hw : Led r p h w) : Leading r p h w.state := by
  obtain ⟨T, hr, hT⟩ := hw.accounted
  refine ⟨fun f n hs => ?_, ?_, hw.catalog, hw.registered⟩
  · exact fdu_unique (hT.state.shown _ hs) hr
  · obtain ⟨q, hq, -⟩ := hr
    exact hT.state.issued _ q hq

theorem Led.step (hw : Led r p h w) (hl : FromClients l) (hname : KeepsName r.fduUuid h l w)
    (hs : (machine z).Step l w w') : Led r p h w' := by
  refine ⟨?_, ?_, ?_, ?_⟩
  · obtain ⟨T, hr, hT⟩ := hw.accounted
    obtain ⟨T', hext, hT'⟩ := hT.step hl hs
    exact ⟨T', hr.extend hext, hT'⟩
  · cases hs with
    | @act _ i ch p c k x s hi hx =>
      intro d hd hf
      rcases (exec_adds hx).fdus d hd with hd | rfl
      · exact hw.catalog d hd hf
      · rcases exec_access hx with ⟨rfl, -⟩ | ⟨e, -, -, rfl⟩
        · exact hname i d rfl (Pool.upcoming_eq_some.2 ⟨p, k, hi⟩) hf
        · exact hw.catalog d hd hf
    | env hm =>
      obtain ⟨st, hst, rfl⟩ := Option.map_eq_some_iff.1 hm
      exact fun d hd => hw.catalog d ((monitor_moves hst).fdus ▸ hd)
    | launch hlaunch =>
      obtain ⟨t, ts, -, -, rfl⟩ := launch_eq_some hlaunch
      exact hw.catalog
    | _ => exact hw.catalog
  · rw [hypervisors_step hs]
    exact hw.registered
  · refine hs.follows provenance_sound hw.bound (fun p hp => ?_) (fun p s _ hlaunch => ?_)
      (fun i ch p q c x s _ _ hq _ hx => ⟨_, ⟨rfl, exec_honest hx⟩, hq.after hw.leading hx⟩)
      fun _ _ h => h
    · subst hp
      cases p with
      | agent svc q =>
        exact ⟨⟨none, none, none, none, none, [], fun _ => False⟩, provenance_reports trivial,
          .of_entities fun _ => False.elim⟩
      | _ => exact hl.elim
    · obtain ⟨T, -, hT⟩ := hw.accounted
      obtain ⟨-, t, ht, rfl⟩ := hT.state.launch hlaunch
      exact ⟨t.ledger, task_reports (hT.state.fresh t ht), .of_entities fun x hx => ⟨_, hx⟩⟩

/-- What is known of the new instance is what its creator made up. -/
theorem bound_of_creator {q : Ledger} {n : Uuid} {k : Except FError Unit → M α} {k' : Unit → M α}
    {r' : FDURecord} {Φ : Except Exn α → Ledger → Prop}
    (hfdu : ∀ f n, ¬ q.knows (.fdu r.uuid f n)) (hplugin : ∀ p', ¬ q.knows (.plugin r.uuid p'))
    (hb : Prog.Follows Provenance Φ (.act (.access (.localPutInstance n r)) k) (q.after .newUuid r.uuid))
    (hk : k (.ok ()) = .act (.insert p r') k') (hu : r'.uuid = r.uuid) :
    Bound r p h (q.after .newUuid r.uuid) := by
  have hown : q.Learns r.datum .newUuid r.uuid := (hb.1.1 _ rfl).resolve_left (hfdu _ _)
  obtain ⟨d, hd, hf, hn⟩ := learns_fdu.1 hown
  have hkeep := hb.2 (.ok ()) _ ⟨rfl, trivial⟩
  rw [hk] at hkeep
  have hp : q.plugin = some p := by
    have hknown : (q.after .newUuid r.uuid).knows (.plugin r'.uuid p) :=
      Or.resolve_right (hkeep.1.2 : _ ∨ _) id
    rw [hu] at hknown
    exact learns_plugin.1 (hknown.resolve_left (hplugin p))
  refine ⟨fun f n hk => ?_, fun f n _ d hd => ?_, fun p' hk => ?_⟩
  · obtain ⟨d', hd', hf', hn'⟩ := learns_fdu.1 (hk.resolve_left (hfdu f n))
    obtain rfl := Option.some.inj (hd.symm.trans hd')
    exact ⟨Option.some.inj (hf'.symm.trans hf), Option.some.inj (hn'.symm.trans hn)⟩
  · cases hd
  · exact Option.some.inj ((learns_plugin.1 (hk.resolve_left (hplugin p'))).symm.trans hp)

/-- When the instance is created, no other call knows of it. -/
theorem led_of_creation {T : Origins} (hw : Accounted T w) (hnew : Creation z r p w w')
    (hcat : ∀ d ∈ w'.state.global.fdus, d.uuid = some r.fduUuid → d.hypervisor = h)
    (hreg : (w'.state.node r.node).hypervisors h = some p) : Led r p h w' := by
  obtain ⟨i, t, hc, hs, ht, hdef⟩ := hnew
  obtain ⟨n, k₁, r', k', ht', hk₁, hu⟩ := thread_defining hdef
  have hfires : FromClients (.fire i (.uuid r.uuid)) := trivial
  obtain ⟨T', -, hw'⟩ := hw.step hfires hs
  have hholds : r.datum.Holds T' := by
    obtain ⟨q, hq, hv⟩ := hw'.calls.threads t (List.mem_of_getElem? ht)
    rw [ht'] at hq
    exact hv.knows _ (hq.1.1 _ rfl)
  refine ⟨⟨T', hholds, hw'⟩, hcat, hreg, ?_⟩
  obtain ⟨pr, k, v, s, hi, hx, rfl⟩ := hs.of_upcoming hc
  have hx : exec .newUuid (.uuid r.uuid) w.state = some (v, s) := hx
  obtain rfl : r.uuid = v := by
    simp only [exec] at hx
    split at hx <;> cases hx
    rfl
  have hnone : T r.uuid = none := by
    cases hT : T r.uuid with
    | none => rfl
    | some q' => exact absurd (hw.state.issued _ q' hT) (exec_newUuid hx).1
  -- nobody knows of an instance without origin
  have hfdu : ∀ q, Vouched T q → ∀ f n, ¬ q.knows (.fdu r.uuid f n) := fun q hv f n hk => by
    obtain ⟨q', hq', -⟩ := hv.knows _ hk
    cases hnone.symm.trans hq'
  have hplugin : ∀ q, Vouched T q → ∀ p', ¬ q.knows (.plugin r.uuid p') := fun q hv p' hk => by
    obtain ⟨q', hq'⟩ := hv.knows _ hk
    cases hnone.symm.trans hq'
  obtain ⟨q, hq, hv⟩ := hw.calls.threads _ (List.mem_of_getElem? hi)
  have hb : (k r.uuid).Follows Provenance (Proc.Reports pr) (q.after .newUuid r.uuid) :=
    hq.2 r.uuid _ ⟨rfl, trivial⟩
  refine hw.calls.act hb ?_ fun _ q hv => ⟨fun f n hk => absurd hk (hfdu q hv f n),
    fun f n hk => absurd hk (hfdu q hv f n), fun p' hk => absurd hk (hplugin q hv p')⟩
  have hlt : i < w.threads.length := (List.getElem?_eq_some_iff.1 hi).1
  have hthread : (⟨pr, k r.uuid⟩ : Thread Cmd.Ans Proc.Ret Exn) = t := by
    simpa [List.getElem?_set, hlt] using ht
  subst hthread
  obtain ⟨-, hprog⟩ := Thread.mk.inj ht'
  rw [eq_of_heq hprog] at hb
  exact bound_of_creator (hfdu q hv) (hplugin q hv) hb hk₁ hu

variable {sites : List Site} {fdus : List FDUDescriptor} {entities : List EntityDescriptor}
  {w₀ w₁ w₂ : Calls}

/-- In every run, the calls on an instance go to the plugin that `define_fdu` has left it
to, found under hypervisor `h`, as long as the descriptor of its FDU names `h`. -/
theorem handled_by_creator {j : ℕ} {p' : Uuid} {q : PluginRequest}
    (hreach : (machine z).Reach (fun l _ => FromClients l) (Pool.idle (boot sites fdus entities)) w₀)
    (hnew : Creation z r p w₀ w₁) (hreg : (w₁.state.node r.node).hypervisors h = some p)
    (hcat : ∀ d ∈ w₁.state.global.fdus, d.uuid = some r.fduUuid → d.hypervisor = h)
    (hrun : (machine z).Reach (fun l w => FromClients l ∧ KeepsName r.fduUuid h l w) w₁ w₂)
    (hcall : w₂.upcoming j = some (.access (.request (.plugin p' q)))) (hq : q.Handles r.uuid) :
    p' = p := by
  obtain ⟨T, -, hw₀⟩ := accounted_of_reach (boot_accounted sites fdus entities) hreach
  have hled : Led r p h w₂ := by
    apply hrun.inv (Led r p h) (led_of_creation hw₀ hnew hcat hreg)
    intro l w w' hw hl hs
    exact hw.step hl.1 hl.2 hs
  obtain ⟨pr, k, hj⟩ := Pool.upcoming_eq_some.1 hcall
  obtain ⟨l, hl, hb⟩ := hled.bound.threads _ (List.mem_of_getElem? hj)
  exact hb.plugin p' (hl.1.2 r.uuid hq)

end Runs

def twoPlugins : Site :=
  { Site.small 0 100 7 with hypervisors := fun name =>
      if name = "dummy" then some 7 else if name = "other" then some 8 else none }

def creating (u p : Uuid) (w w' : Calls) : Bool :=
  match w.upcoming 0 with
  | some .newUuid => (w'.threads[0]?.bind Thread.defining).any fun x =>
      x.1.uuid = u ∧ x.1.fduUuid = 50 ∧ x.1.node = 0 ∧ x.2 = p
  | _ => false

theorem creating_sound {z : Session} {u p : Uuid} {w w' : Calls}
    (hs : (machine z).step (.fire 0 (.uuid u)) w = some w') (h : creating u p w w' = true) :
    ∃ r, Creation z r p w w' ∧ r.uuid = u ∧ r.fduUuid = 50 ∧ r.node = 0 := by
  unfold creating at h
  split at h
  · next hc =>
    obtain ⟨⟨r, p'⟩, hdef, hr⟩ := (Option.any_eq_true _ _).1 h
    obtain ⟨rfl, hf, hn, rfl⟩ := of_decide_eq_true hr
    obtain ⟨t, ht, hdef⟩ := Option.bind_eq_some_iff.1 hdef
    exact ⟨r, ⟨0, t, hc, Machine.step_cases hs, ht, hdef⟩, rfl, hf, hn⟩
  · cases h

def configuring (u p : Uuid) (w : Calls) : Bool :=
  match w.upcoming 0 with
  | some (.access (.request (.plugin p' (.configureFdu v)))) => p' = p ∧ v = u
  | _ => false

theorem configuring_sound {u p : Uuid} {w : Calls} (h : configuring u p w = true) :
    w.upcoming 0 = some (.access (.request (.plugin p (.configureFdu u)))) := by
  unfold configuring at h
  split at h
  · next hc =>
    obtain ⟨rfl, rfl⟩ := of_decide_eq_true h
    exact hc
  · cases h

def keepsName (f : Uuid) (h : String) (l : Label Proc Choice Uuid) (w : Calls) : Bool :=
  decide (FromClients l) && match l with
    | .fire i _ =>
      match w.upcoming i with
      | some (.access (.putFdu d)) => d.uuid ≠ some f ∨ d.hypervisor = h
      | _ => true
    | _ => true

theorem keepsName_sound {f : Uuid} {h : String} {l : Label Proc Choice Uuid} {w : Calls}
    (hk : keepsName f h l w = true) : FromClients l ∧ KeepsName f h l w := by
  obtain ⟨hl, hk⟩ := Bool.and_eq_true_iff.1 hk
  refine ⟨of_decide_eq_true hl, ?_⟩
  rintro i d rfl hc
  have hd : d.uuid ≠ some f ∨ d.hypervisor = h := by simpa [hc] using hk
  exact hd.neg_resolve_left

def defineStart : List (Turn Proc Uuid) := [.start (.agent 100 (.defineFdu 50))] ++ fires 0 6

def defineEnd : List (Turn Proc Uuid) := fires 0 1 ++ [.env 0] ++ fires 0 6

/-- The FDU is onboarded again, and its instance configured, up to the plugin call. -/
def onboardConfigure (name : String) : List (Turn Proc Uuid) :=
  [.start (.agent 100 (.onboardFdu { FDUDescriptor.plain 50 with hypervisor := name }))] ++
    fires 0 2 ++ [.start (.agent 100 (.configureFdu 0))] ++ fires 0 3

/-- Define, then onboard and configure: does the call go from `w` over `w'` to `p`? -/
def playDefine (g : Label Proc Choice Uuid → Calls → Bool) (name : String) (p : Uuid) : Option Bool :=
  (playClients [twoPlugins] defineStart (Pool.idle (boot [twoPlugins] [.plain 50] []))).bind fun w =>
    ((machine (Site.session [twoPlugins])).step (.fire 0 (.uuid 0)) w).bind fun w' =>
      ((machine (Site.session [twoPlugins])).script resolve g (defineEnd ++ onboardConfigure name) w').map
        fun w'' => creating 0 7 w w' && configuring 0 p w'' &&
          decide ((w'.state.node 0).hypervisors "dummy" = some 7 ∧
            ∀ d ∈ w'.state.global.fdus.rows, d.uuid = some 50 → d.hypervisor = "dummy")

theorem playDefine_sound {g : Label Proc Choice Uuid → Calls → Bool} {name : String} {p : Uuid}
    (h : playDefine g name p = some true) : ∃ w w' w'' r,
      (machine (Site.session [twoPlugins])).Reach (fun l _ => FromClients l)
        (Pool.idle (boot [twoPlugins] [.plain 50] [])) w ∧
      Creation (Site.session [twoPlugins]) r 7 w w' ∧
      (machine (Site.session [twoPlugins])).script resolve g (defineEnd ++ onboardConfigure name) w' =
        some w'' ∧
      w''.upcoming 0 = some (.access (.request (.plugin p (.configureFdu r.uuid)))) ∧
      (w'.state.node r.node).hypervisors "dummy" = some 7 ∧
      (∀ d ∈ w'.state.global.fdus, d.uuid = some r.fduUuid → d.hypervisor = "dummy") ∧
      r.fduUuid = 50 := by
  obtain ⟨w, hw, h⟩ := Option.bind_eq_some_iff.1 h
  obtain ⟨w', hw', h⟩ := Option.bind_eq_some_iff.1 h
  obtain ⟨w'', hw'', h⟩ := Option.map_eq_some_iff.1 h
  obtain ⟨h, hdummy⟩ := Bool.and_eq_true_iff.1 h
  obtain ⟨hnew, hcall⟩ := Bool.and_eq_true_iff.1 h
  obtain ⟨r, hnew, hu, hf, hn⟩ := creating_sound hw' hnew
  obtain ⟨hreg, hcat⟩ := of_decide_eq_true hdummy
  exact ⟨w, w', w'', r, reach_of_playClients hw, hnew, hw'', hu ▸ configuring_sound hcall,
    hn ▸ hreg, hf ▸ hcat, hf⟩

/-- The FDU is onboarded again with the same hypervisor. -/
theorem handled_by_creator_again : ∃ w w' w'' r p',
    Creation (Site.session [twoPlugins]) r 7 w w' ∧
    (machine (Site.session [twoPlugins])).Reach
      (fun l w => FromClients l ∧ KeepsName r.fduUuid "dummy" l w) w' w'' ∧
    w''.upcoming 0 = some (.access (.request (.plugin p' (.configureFdu r.uuid)))) ∧ p' = 7 := by
  have hrun : playDefine (keepsName 50 "dummy") "dummy" 7 = some true := by decide +kernel
  obtain ⟨w, w', w'', r, hreach, hnew, hplay, hcall, hreg, hcat, hf⟩ := playDefine_sound hrun
  have hlater : (machine (Site.session [twoPlugins])).Reach
      (fun l w => FromClients l ∧ KeepsName r.fduUuid "dummy" l w) w' w'' :=
    Machine.reach_of_script (fun _ _ hk => hf ▸ keepsName_sound hk) hplay
  exact ⟨w, w', w'', r, 7, hnew, hlater, hcall,
    handled_by_creator hreach hnew hreg hcat hlater hcall (Or.inl rfl)⟩

/-- It is onboarded again with another one: the call goes to a plugin that is not the one
registered under the hypervisor that `define_fdu` has used. -/
theorem handled_by_another : ∃ w w' w'' r p',
    (machine (Site.session [twoPlugins])).Reach (fun l _ => FromClients l)
      (Pool.idle (boot [twoPlugins] [.plain 50] [])) w ∧
    Creation (Site.session [twoPlugins]) r 7 w w' ∧
    (∀ d ∈ w'.state.global.fdus, d.uuid = some r.fduUuid → d.hypervisor = "dummy") ∧
    (machine (Site.session [twoPlugins])).Reach (fun l _ => FromClients l) w' w'' ∧
    w''.upcoming 0 = some (.access (.request (.plugin p' (.configureFdu r.uuid)))) ∧
    (w''.state.node r.node).hypervisors "dummy" = some 7 ∧ p' ≠ 7 := by
  have hrun : playDefine (fun l _ => decide (FromClients l)) "other" 8 = some true := by decide +kernel
  obtain ⟨w, w', w'', r, hreach, hnew, hplay, hcall, hreg, hcat, -⟩ := playDefine_sound hrun
  have hlater := reach_of_playClients hplay
  have hsame : (w''.state.node r.node).hypervisors = (w'.state.node r.node).hypervisors :=
    hlater.inv (fun v => (v.state.node r.node).hypervisors = (w'.state.node r.node).hypervisors) rfl
      fun l v v' hv _ hs => (hypervisors_step hs r.node).trans hv
  exact ⟨w, w', w'', r, 8, hreach, hnew, hcat, hlater, hcall, hsame ▸ hreg, by decide⟩

end Fog05
