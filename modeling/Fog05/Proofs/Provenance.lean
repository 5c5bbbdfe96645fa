import Fog05.Proofs.Footprint
import Mathlib.Data.List.Infix

/-! Where a call has the identities from that it hands on: the FDU and the node of an
instance, the plugin that it is left to, the entity of an entity instance and its FDU
instances. A call makes them up for a uuid that it has just been given, and otherwise
passes on what it has read. -/

namespace Fog05

open Conc M

/-- What is said of an FDU instance, of an entity instance, of the FDU instances of
an entity instance, and of an FDU instance that plugin `p` is called for. -/
inductive Datum
  | fdu (u f n : Uuid)
  | entity (u e : Uuid)
  | members (u : Uuid) (l : List Uuid)
  | plugin (u p : Uuid)

def FDURecord.datum (r : FDURecord) : Datum := .fdu r.uuid r.fduUuid r.node

theorem FDURecord.datum_congr {r r' : FDURecord} (hpath : r.path = r'.path) (hnode : r.node = r'.node) :
    r.datum = r'.datum := by
  obtain ⟨hf, hu⟩ := Prod.mk.inj hpath
  rw [datum, datum, hf, hu, hnode]

def EntityRecord.data (i : EntityRecord) : List Datum :=
  [.entity i.uuid i.id, .members i.uuid i.fdus]

def Task.inst : Task → EntityRecord
  | .schedule _ _ inst _ | .deschedule _ _ inst => inst

/-! The record that a call returns. -/

def Request.record : (q : Request) → q.Ret → Option FDURecord
  | .scheduleFdu _, r | .defineFdu _, r | .configureFdu _, r | .startFdu _, r | .stopFdu _, r
  | .cleanFdu _, r | .undefineFdu _, r | .fduStatus _, r => some r
  | _, _ => none

def Rpc.record : (q : Rpc) → q.Ret → Option FDURecord
  | .agent _ q, a => q.record a
  | .plugin _ (.defineFdu _), r | .plugin _ (.getFduStatus _), r => some r
  | _, _ => none

def Proc.record : (p : Proc) → p.Ret → Option FDURecord
  | .agent _ q, a => q.record a
  | .poll _ _, r => some r
  | .task _, _ => none

namespace Cmd

/-- The command stores this, hands it to a task or replies it. -/
def Gives (x : Datum) : Cmd → Prop
  | .access (.localPutInstance _ r) | .insert _ r => x = r.datum
  | .access (.putEntityInstance i) => x ∈ i.data
  | .spawn t => x ∈ t.inst.data
  | .access (.reply q o) => ∃ a r, o = .ok a ∧ q.record a = some r ∧ x = r.datum
  | _ => False

/-- The answer is a record that says this. -/
def Tells (x : Datum) : (c : Cmd) → c.Ans → Prop
  | .access (.getInstance _), .ok r | .access (.localGetInstance _ _), .ok r => x = r.datum
  | .access (.getEntityInstance _), .ok i => x ∈ i.data
  | _, _ => False

end Cmd

/-- What a call has read last (the descriptor of an FDU and the plugin found under its
hypervisor, a node, an entity), the entity instance whose task it is, the uuids it has
been given and all it knows. -/
structure Ledger where
  descriptor : Option FDUDescriptor
  plugin : Option Uuid
  node : Option Uuid
  entity : Option Uuid
  task : Option Uuid
  own : List Uuid
  knows : Datum → Prop

namespace Ledger

variable (q : Ledger)

/-- What the call knows from an answer. -/
def Learns (x : Datum) : (c : Cmd) → c.Ans → Prop
  | .newUuid, v =>
      (∃ d f n, q.descriptor = some d ∧ d.uuid = some f ∧ q.node = some n ∧ x = .fdu v f n) ∨
        (∃ e, q.entity = some e ∧ x = .entity v e) ∨ ∃ p, q.plugin = some p ∧ x = .plugin v p
  | .hypervisor n name, some p =>
      ∃ d f u, q.descriptor = some d ∧ d.hypervisor = name ∧ d.uuid = some f ∧
        q.knows (.fdu u f n) ∧ x = .plugin u p
  | c, r => c.Tells x r

def note : (c : Cmd) → c.Ans → Ledger
  | .access (.getFdu _), .ok d => { q with descriptor := some d, plugin := none }
  | .access (.getInstance _), .ok _ | .access (.localGetInstance _ _), .ok _ =>
      { q with descriptor := none, plugin := none }
  | .access (.getEntity e), .ok _ => { q with entity := some e }
  | .access (.reply (.agentPlugin _ .getNodeUuid) _), .ok n => { q with node := some n }
  | .hypervisor _ _, some p => { q with plugin := some p }
  | .newUuid, v => { q with own := q.own ++ [v], descriptor := none, plugin := none }
  | _, _ => q

def after (c : Cmd) (r : c.Ans) : Ledger :=
  { q.note c r with knows := fun x => q.knows x ∨ q.Learns x c r }

/-- What the call may say: a list of FDU instances, if it has read it or if it has been
given all of them, for this entity instance. -/
def Has : Datum → Prop
  | .members u l => q.knows (.members u l) ∨ l = [] ∨ q.task = some u ∧ l.Sublist q.own
  | x => q.knows x

/-- The later ledger of the same call. -/
structure Grows (q q' : Ledger) : Prop where
  task : q'.task = q.task
  own : q.own <+: q'.own
  knows : ∀ x, q.knows x → q'.knows x

/-- The call has not looked up another FDU. -/
def Looks (q q' : Ledger) : Prop := q'.descriptor = q.descriptor ∧ q'.plugin = q.plugin

/-- At the end of a call, the record that it returns is known, and meets `X`. -/
def Ends {α : Type} (record : α → Option FDURecord) (X : FDURecord → Ledger → Prop)
    (o : Except Exn α) (q' : Ledger) : Prop :=
  q.Grows q' ∧ ∀ a r, o = .ok a → record a = some r → q'.knows r.datum ∧ X r q'

end Ledger

/-- The plugin calls on an instance that already exists. -/
def PluginRequest.Handles (u : Uuid) (q : PluginRequest) : Prop := q.Moves u ∨ q = .undefineFdu u

theorem PluginRequest.Handles.unique {u v : Uuid} {q : PluginRequest} (h : q.Handles u)
    (h' : q.Handles v) : u = v := by
  cases q with
  | undefineFdu w =>
    obtain h | h := h
    · exact h.elim
    obtain h' | h' := h'
    · exact h'.elim
    exact (PluginRequest.undefineFdu.inj h).symm.trans (PluginRequest.undefineFdu.inj h')
  | configureFdu w | cleanFdu w | startFdu w | stopFdu w =>
    exact (h.resolve_right nofun).symm.trans (h'.resolve_right nofun)
  | defineFdu d | getFduStatus w => exact h.elim False.elim nofun

theorem PluginRequest.Handles.record {u p : Uuid} {q : PluginRequest} (h : q.Handles u) (a : q.Ret) :
    (Rpc.plugin p q).record a = none := by
  cases q with
  | defineFdu d | getFduStatus w => exact h.elim False.elim nofun
  | _ => rfl

/-- Instances are kept and handled by the plugin that is known for them, and the task
of `schedule_entity` gets a record without FDU instances. -/
def Ledger.Permits (q : Ledger) : Cmd → Prop
  | .insert p r => q.knows (.plugin r.uuid p)
  | .access (.request (.plugin p r)) => ∀ u, r.Handles u → q.knows (.plugin u p)
  | .spawn (.schedule _ _ inst _) => inst.fdus = []
  | _ => True

/-- Which instance a call returns: the one that was polled, or a new one. -/
def Proc.Yields (q q' : Ledger) (r : FDURecord) : Proc → Prop
  | .poll u _ => r.uuid = u
  | .agent _ (.scheduleFdu _) | .agent _ (.defineFdu _) => (q.own ++ [r.uuid]).Sublist q'.own
  | _ => True

def Proc.Called : Proc → Prop
  | .task _ => False
  | _ => True

/-- To say only what one knows. -/
def Provenance : Discipline Cmd.Ans Proc.Ret Exn Ledger where
  allows q c := (∀ x, c.Gives x → q.Has x) ∧ q.Permits c
  next q c r q' := q' = q.after c r ∧ c.Honest r
  calls _ p := p.Called
  back q p := q.Ends p.record fun r q' => p.Yields q q' r

/-- Nothing is said, and no plugin is concerned. -/
def Cmd.Free (c : Cmd) : Prop := (∀ x, ¬ c.Gives x) ∧ ∀ q : Ledger, q.Permits c

theorem Cmd.Plain.free {c : Cmd} (h : c.Plain) : c.Free := by
  constructor
  · intro x hx
    unfold Cmd.Gives at hx
    split at hx
    · exact h
    · exact h
    · exact h
    · exact h
    · next q o =>
      obtain ⟨a, r, -, hr, -⟩ := hx
      cases q with
      | agent svc q => cases q <;> first | exact h | cases hr
      | plugin p q => exact h
      | agentPlugin n q => cases hr
    · exact hx
  · intro q
    unfold Ledger.Permits
    split
    · exact h.elim
    · exact h.elim
    · exact h.elim
    · trivial

namespace Ledger

variable {q q' q'' : Ledger} {c : Cmd} {r : c.Ans} {u p : Uuid} {x : Datum}

theorem Grows.refl (q : Ledger) : q.Grows q := ⟨rfl, List.prefix_rfl, fun _ => id⟩

theorem Grows.trans (h : q.Grows q') (h' : q'.Grows q'') : q.Grows q'' :=
  ⟨h'.task.trans h.task, h.own.trans h'.own, fun x hx => h'.knows x (h.knows x hx)⟩

theorem Grows.has (h : q.Grows q') (hx : q.Has x) : q'.Has x := by
  cases x with
  | members u l =>
    refine hx.imp (h.knows _) fun hx => hx.imp_right fun ⟨ht, hl⟩ => ?_
    exact ⟨h.task.trans ht, hl.trans h.own.sublist⟩
  | _ => exact h.knows _ hx

theorem has_of_knows (h : q.knows x) : q.Has x := by
  cases x with
  | members u l => exact Or.inl h
  | _ => exact h

theorem note_task : (q.note c r).task = q.task := by
  unfold note
  split <;> rfl

theorem note_own : q.own <+: (q.note c r).own := by
  unfold note
  split <;> first | exact List.prefix_rfl | exact List.prefix_append _ _

end Ledger

section Follows

variable {α : Type} {z : Session} {a : Agent} {n p u f svc : Uuid} {q q' : Ledger}

theorem provenance_grows {c : Cmd} {r : c.Ans} (h : Provenance.next q c r q') : q.Grows q' := by
  obtain ⟨rfl, -⟩ := h
  exact ⟨Ledger.note_task, Ledger.note_own, fun x => Or.inl⟩

theorem provenance_learns {c : Cmd} {r : c.Ans} {x : Datum} (h : Provenance.next q c r q')
    (hx : q.Learns x c r) : q'.knows x := by
  obtain ⟨rfl, -⟩ := h
  exact Or.inr hx

theorem provenance_of_free {c : Cmd} (h : c.Free) : Provenance.allows q c :=
  ⟨fun x hx => absurd hx (h.1 x), h.2 q⟩

theorem provenance_of_within {b : M α} (h : b.Within Cmd.Free Proc.Called) :
    b.Follows Provenance (fun _ q' => q.Grows q') q :=
  h.grows (G := Ledger.Grows) (fun _ _ _ => Ledger.Grows.trans)
    (fun _ _ hc => ⟨provenance_of_free hc, fun _ _ hn => provenance_grows hn⟩)
    (fun _ _ hp => ⟨hp, fun _ _ hb => hb.1⟩) (Ledger.Grows.refl q)

theorem provenance_bind {β : Type} {b : M α} {k : α → M β} {Φ : Except Exn β → Ledger → Prop}
    (hb : b.Within Cmd.Free Proc.Called) (hk : ∀ x q', q.Grows q' → (k x).Follows Provenance Φ q')
    (herr : ∀ e q', q.Grows q' → Φ (.error e) q') : (b >>= k).Follows Provenance Φ q :=
  follows_bind (provenance_of_within hb) hk herr

theorem ends_error {β : Type} {record : β → Option FDURecord} {X : FDURecord → Ledger → Prop}
    {e : Exn} (h : q.Grows q') : q.Ends record X (.error e) q' := ⟨h, fun _ _ h => by cases h⟩

theorem remote_provenance {r : Rpc} {b : M r.Ret} {X : FDURecord → Ledger → Prop}
    (hX : ∀ i q₁ q₂, q₁.Grows q₂ → X i q₁ → X i q₂)
    (hrequest : Provenance.allows q (.access (.request r)))
    (hb : ∀ q₁, q.Grows q₁ → q.Looks q₁ → b.Follows Provenance (q.Ends r.record X) q₁) :
    (remote z r b).Follows Provenance (q.Ends r.record X) q := by
  refine follows_remote hrequest (fun _ q₁ hn => ?_) fun _ _ hn => ends_error (provenance_grows hn)
  have hlooks : q.Looks q₁ := by rw [hn.1]; exact ⟨rfl, rfl⟩
  refine (hb q₁ (provenance_grows hn) hlooks).mono fun o q₂ h₂ => ⟨⟨?_, trivial⟩, fun y q₃ hn' => ?_⟩
  · rintro x ⟨b, i, ho, hi, rfl⟩
    exact Ledger.has_of_knows (h₂.2 b i (received_eq_ok.1 ho) hi).1
  · have h₃ := provenance_grows hn'
    refine ⟨h₂.1.trans h₃, fun b i hy hi => ?_⟩
    cases y with
    | error e => cases hy
    | ok y =>
      cases hy
      obtain ⟨hknown, hx⟩ := h₂.2 b i (received_eq_ok.1 hn'.2) hi
      exact ⟨h₃.knows _ hknown, hX i _ _ h₃ hx⟩

theorem yields_grows {r : FDURecord} {q₁ q₂ : Ledger} {p : Proc} (h : q₁.Grows q₂)
    (hp : p.Yields q q₁ r) : p.Yields q q₂ r := by
  unfold Proc.Yields at hp ⊢
  split at hp <;> first | exact hp | exact hp.trans h.own.sublist

theorem yields_since {r : FDURecord} {q₁ q₂ : Ledger} {p : Proc} (h : q.Grows q₁)
    (hp : p.Yields q₁ q₂ r) : p.Yields q q₂ r := by
  unfold Proc.Yields at hp ⊢
  split at hp <;> first | exact hp | exact (h.own.sublist.append_right _).trans hp

theorem rpc_provenance {r : Request} :
    (rpc z svc r).Follows Provenance (Provenance.back q (.agent svc r)) q := by
  refine remote_provenance (fun _ _ _ => yields_grows)
    (provenance_of_free (Cmd.Plain.free trivial)) fun q₁ h₁ _ => ?_
  refine follows_invoke trivial fun o q₂ hb => ⟨h₁.trans hb.1, fun b i ho hi => ?_⟩
  exact (hb.2 b i ho hi).imp_right (yields_since h₁)

/-! The hypervisor plugin. -/

theorem getNodeUuid_provenance : (DummyHypervisor.getNodeUuid z n).Follows Provenance
    (fun o q' => (q.Grows q' ∧ q.Looks q') ∧ ∀ m, o = .ok m → m = n ∧ q'.node = some n) q := by
  have hfree : ∀ a : Access, (Cmd.access a).Plain → Provenance.allows q (.access a) := fun _ h =>
    provenance_of_free h.free
  refine follows_remote (hfree _ trivial) (fun x q₁ hn => ⟨provenance_of_free (Cmd.Plain.free trivial),
    fun y q₂ hn' => ?_⟩) fun e q₁ hn => ⟨⟨provenance_grows hn, ?_⟩, nofun⟩
  · refine ⟨⟨(provenance_grows hn).trans (provenance_grows hn'), ?_⟩, fun m hm => ?_⟩
    · rw [hn'.1, hn.1]
      cases y <;> exact ⟨rfl, rfl⟩
    · cases y with
      | error e => cases hm
      | ok y =>
        cases hm
        obtain rfl : n = m := Except.ok.inj (received_eq_ok.1 hn'.2)
        obtain ⟨rfl, -⟩ := hn'
        exact ⟨rfl, rfl⟩
  · obtain ⟨rfl, -⟩ := hn
    exact ⟨rfl, rfl⟩

theorem store_provenance {r : FDURecord} (hr : q.knows r.datum) (hp : q.knows (.plugin r.uuid p)) :
    (DummyHypervisor.store n p r).Follows Provenance (fun _ q' => q.Grows q') q := by
  have hgive : ∀ q' : Ledger, q.Grows q' → ∀ x, x = r.datum → q'.Has x := by
    rintro q' h x rfl
    exact h.knows _ hr
  refine follows_ask_bind ⟨hgive q (.refl q), trivial⟩ (fun _ q₁ hn => ?_) fun _ _ => provenance_grows
  have h₁ := provenance_grows hn
  exact ⟨⟨hgive q₁ h₁, h₁.knows _ hp⟩, fun _ _ hn' => h₁.trans (provenance_grows hn')⟩

theorem withLock_provenance {b : M α} {Φ : Except Exn α → Ledger → Prop}
    (hb : ∀ q', q.Grows q' → q.Looks q' → q'.node = q.node →
      b.Follows Provenance (fun o q₁ => ∀ q₂, q₁.Grows q₂ → Φ o q₂) q') :
    (DummyHypervisor.withLock p b).Follows Provenance Φ q := by
  have hfree : ∀ {c : Cmd} {q : Ledger}, c = .lock p ∨ c = .unlock p → Provenance.allows q c := by
    rintro c q (rfl | rfl)
    · exact ⟨fun _ => False.elim, trivial⟩
    · exact ⟨fun _ => False.elim, trivial⟩
  apply follows_withLock (hfree (Or.inl rfl))
  intro _ q₁ hn
  have h₁ := provenance_grows hn
  obtain ⟨rfl, -⟩ := hn
  exact (hb _ h₁ ⟨rfl, rfl⟩ rfl).mono fun o q₂ h => ⟨hfree (Or.inr rfl), fun _ q₃ hn => h q₃ (provenance_grows hn)⟩

theorem restoring_provenance {b : M Uuid} (h : DummyHypervisor.Restoring z n p u b)
    (hp : q.knows (.plugin u p)) : b.Follows Provenance (fun _ q' => q.Grows q') q := by
  obtain ⟨before, work, rfl, hwork⟩ := h
  refine provenance_bind (DummyHypervisor.within_getNodeUuid fun _ hc => hc.free) (fun _ q₁ h₁ => ?_)
    fun _ _ => id
  refine follows_ask_bind (provenance_of_free (Cmd.Plain.free trivial)) (fun inst q₂ hn => ?_)
    fun _ _ hn => h₁.trans (provenance_grows hn)
  have h₂ := h₁.trans (provenance_grows hn)
  have hu : inst.uuid = u := hn.2
  have hknown : q₂.knows inst.datum := provenance_learns hn rfl
  split
  · apply withLock_provenance
    intro q₃ h₃ _ _
    have hall : (work inst).Follows Provenance (fun _ q' => q₃.Grows q') q₃ := by
      refine (hwork inst).follows (J := fun q' => q₃.Grows q') (fun q' c hJ hc => ⟨?_, fun _ _ hn =>
        hJ.trans (provenance_grows hn)⟩) (fun _ _ _ => False.elim) (.refl q₃)
      rcases hc with hc | ⟨r, hc, hpath, hnode⟩
      · exact provenance_of_free hc.free
      · have hru : r.uuid = u := (congrArg Prod.snd hpath).trans hu
        have hgive : ∀ x, x = r.datum → q'.Has x := by
          rintro x rfl
          exact FDURecord.datum_congr hpath hnode ▸ hJ.knows _ (h₃.knows _ hknown)
        rcases hc with rfl | rfl
        · exact ⟨hgive, trivial⟩
        · obtain rfl := hru
          exact ⟨hgive, hJ.knows _ (h₃.knows _ (h₂.knows _ hp))⟩
    exact follows_bind hall (fun _ q₄ h₄ q₅ h₅ => (h₂.trans h₃).trans (h₄.trans h₅))
      fun _ q₄ h₄ q₅ h₅ => (h₂.trans h₃).trans (h₄.trans h₅)
  · exact h₂

/-- A call about an instance goes to the plugin that is known for it. -/
theorem pluginCall_provenance {r : PluginRequest} (hr : r.Handles u) (hp : q.knows (.plugin u p)) :
    (DummyHypervisor.call z n p r).Follows Provenance (fun _ q' => q.Grows q') q := by
  have hrequest : Provenance.allows q (.access (.request (.plugin p r))) :=
    ⟨fun _ => False.elim, fun v hv => hr.unique hv ▸ hp⟩
  have done : ∀ {q₁ : Ledger} {b : M r.Ret}, q.Grows q₁ →
      b.Follows Provenance (fun _ q' => q₁.Grows q') q₁ →
      b.Follows Provenance (q.Ends (Rpc.plugin p r).record fun _ _ => True) q₁ := by
    refine fun h₁ hb => hb.mono fun o q₂ h₂ => ⟨h₁.trans h₂, fun b i _ hi => ?_⟩
    rw [hr.record] at hi
    cases hi
  refine (remote_provenance (X := fun _ _ => True) (fun _ _ _ _ => id) hrequest
    fun q₁ h₁ _ => ?_).mono fun _ _ h => h.1
  rcases hr with hr | rfl
  · cases r with
    | configureFdu v =>
      obtain rfl := hr
      exact done h₁ (restoring_provenance DummyHypervisor.restoring_configureFdu (h₁.knows _ hp))
    | cleanFdu v =>
      obtain rfl := hr
      exact done h₁ (restoring_provenance DummyHypervisor.restoring_cleanFdu (h₁.knows _ hp))
    | startFdu v =>
      obtain rfl := hr
      exact done h₁ (restoring_provenance DummyHypervisor.restoring_startFdu (h₁.knows _ hp))
    | stopFdu v =>
      obtain rfl := hr
      exact done h₁ (restoring_provenance DummyHypervisor.restoring_stopFdu (h₁.knows _ hp))
    | _ => exact hr.elim
  · exact done h₁ (provenance_of_within (DummyHypervisor.within_undefineFdu (fun _ hc => hc.free)
      (fun _ => ⟨fun _ => id, fun _ => trivial⟩) (fun _ => ⟨fun _ => id, fun _ => trivial⟩)
      ⟨fun _ => id, fun _ => trivial⟩ fun _ _ => ⟨fun _ => id, fun _ => trivial⟩))

theorem pluginDefine_provenance {d : FDUDescriptor} (hd : q.descriptor = some d)
    (hp : q.plugin = some p) :
    (DummyHypervisor.call z n p (.defineFdu d)).Follows Provenance
      (q.Ends some fun r q' => (q.own ++ [r.uuid]).Sublist q'.own) q := by
  have hrequest : Provenance.allows q (.access (.request (.plugin p (.defineFdu d)))) :=
    ⟨fun _ => False.elim, fun v hv => hv.elim False.elim nofun⟩
  apply remote_provenance (fun _ _ _ h hx => hx.trans h.own.sublist) hrequest
  intro q₁ h₁ hd₁
  refine follows_bind getNodeUuid_provenance (fun m q₂ hm => ?_)
    fun _ _ hm => ends_error (h₁.trans hm.1.1)
  obtain ⟨⟨h₂, hd₂⟩, hm⟩ := hm
  obtain ⟨rfl, hnode⟩ := hm m rfl
  apply withLock_provenance
  intro q₃ h₃ hd₃ hn₃
  have hdescr : q₃.descriptor = some d := hd₃.1.trans (hd₂.1.trans (hd₁.1.trans hd))
  have hplugin : q₃.plugin = some p := hd₃.2.trans (hd₂.2.trans (hd₁.2.trans hp))
  have h₁₃ := (h₁.trans h₂).trans h₃
  refine follows_issue_bind ⟨fun _ => False.elim, trivial⟩ fun v q₄ hn => ?_
  have h₁₄ := h₁₃.trans (provenance_grows hn)
  refine follows_unwrap_bind (fun f hf => ?_) fun _ q₅ h₅ => ends_error (h₁₄.trans h₅)
  have hknown : q₄.knows (.fdu v f m) :=
    provenance_learns hn (Or.inl ⟨d, f, m, hdescr, hf, hn₃.trans hnode, rfl⟩)
  have hserves : q₄.knows (.plugin v p) :=
    provenance_learns hn (Or.inr (Or.inr ⟨p, hplugin, rfl⟩))
  have hown : (q.own ++ [v]).Sublist q₄.own := by
    obtain ⟨rfl, -⟩ := hn
    exact h₁₃.own.sublist.append_right _
  refine follows_bind (store_provenance hknown hserves)
    (fun _ q₅ h₅ q₆ h₆ => ?_) fun _ q₅ h₅ q₆ h₆ => ends_error (h₁₄.trans (h₅.trans h₆))
  refine ⟨h₁₄.trans (h₅.trans h₆), fun b r hb hr => ?_⟩
  cases hb
  cases hr
  exact ⟨(h₅.trans h₆).knows _ hknown, hown.trans (h₅.trans h₆).own.sublist⟩

theorem pluginStatus_provenance : (DummyHypervisor.call z n p (.getFduStatus u)).Follows Provenance
    (q.Ends some fun _ _ => True) q := by
  have hrequest : Provenance.allows q (.access (.request (.plugin p (.getFduStatus u)))) :=
    ⟨fun _ => False.elim, fun v hv => hv.elim False.elim nofun⟩
  apply remote_provenance (fun _ _ _ _ => id) hrequest
  intro q₁ h₁ _
  refine provenance_bind (DummyHypervisor.within_getNodeUuid fun _ hc => hc.free)
    (fun _ q₂ h₂ => ?_) fun _ _ h => ends_error (h₁.trans h)
  refine follows_ask (provenance_of_free (Cmd.Plain.free trivial)) fun r q₃ hn => ?_
  refine ⟨(h₁.trans h₂).trans (provenance_grows hn), fun b i hb hi => ?_⟩
  cases hi
  cases r with
  | error e => cases hb
  | ok i => cases hb; exact ⟨provenance_learns hn rfl, trivial⟩

/-! The agent. -/

theorem ends_since {β : Type} {record : β → Option FDURecord} {X : FDURecord → Ledger → Prop}
    {o : Except Exn β} {q₁ : Ledger} (h : q.Grows q₁) (ho : q₁.Ends record X o q') :
    q.Ends record X o q' := ⟨h.trans ho.1, ho.2⟩

theorem dispatch_provenance {work : FDURecord → Uuid → M FDURecord} {forward : Uuid → M FDURecord}
    (hwork : ∀ inst p q, q.knows inst.datum → q.knows (.plugin u p) →
      (work inst p).Follows Provenance (q.Ends some fun _ _ => True) q)
    (hforward : ∀ svc q, (forward svc).Follows Provenance (q.Ends some fun _ _ => True) q) :
    (Agent.dispatch a u work forward).Follows Provenance (q.Ends some fun _ _ => True) q := by
  have hfree : ∀ {c : Cmd} {q : Ledger}, c.Plain → Provenance.allows q c := fun h =>
    provenance_of_free h.free
  refine follows_ask_bind (hfree trivial) (fun inst q₁ hn => ?_)
    fun _ _ hn => ends_error (provenance_grows hn)
  have h₁ := provenance_grows hn
  have hknown : q₁.knows inst.datum := provenance_learns hn rfl
  have hdatum : inst.datum = .fdu u inst.fduUuid inst.node := by rw [← (hn.2 : inst.uuid = u)]; rfl
  split
  · next hnode =>
    refine follows_ask_bind (hfree trivial) (fun d q₂ hn₂ => ?_)
      fun _ _ hn => ends_error (h₁.trans (provenance_grows hn))
    have h₂ := provenance_grows hn₂
    have hd : q₂.descriptor = some d := by rw [hn₂.1]; rfl
    refine follows_issue_bind (hfree trivial) fun hv q₃ hn₃ => ?_
    have h₃ := provenance_grows hn₃
    refine follows_okOr_bind (fun p hp => ?_) fun _ => ends_error ((h₁.trans h₂).trans h₃)
    subst hp
    have hserves : q₃.knows (.plugin u p) :=
      provenance_learns hn₃ ⟨d, _, u, hd, rfl, hn₂.2, hnode ▸ hdatum ▸ h₂.knows _ hknown, rfl⟩
    exact (hwork inst p q₃ ((h₂.trans h₃).knows _ hknown) hserves).mono fun o q₄ =>
      ends_since ((h₁.trans h₂).trans h₃)
  · refine provenance_bind (within_ask (Cmd.Plain.free trivial)) (fun _ q₂ h₂ => ?_)
      fun _ _ h => ends_error (h₁.trans h)
    exact (hforward _ q₂).mono fun o q₃ => ends_since (h₁.trans h₂)

theorem poll_provenance {awaited : FDUState} {v : Uuid} :
    (Prog.invoke (Proc.poll v awaited) : M FDURecord).Follows Provenance
      (q.Ends some fun r _ => r.uuid = v) q :=
  follows_invoke trivial fun _ _ h => h

theorem moving_provenance {r : PluginRequest} (hr : r.Moves u) {awaited : FDUState}
    {forward : Uuid → M FDURecord}
    (hforward : ∀ svc q, (forward svc).Follows Provenance (q.Ends some fun _ _ => True) q) :
    (Agent.dispatch a u (fun _ => Agent.move z a r awaited u) forward).Follows Provenance
      (q.Ends some fun _ _ => True) q := by
  refine dispatch_provenance (fun inst p q _ hp => ?_) hforward
  refine follows_bind (pluginCall_provenance (Or.inl hr) hp) (fun _ q₁ h₁ => ?_)
    fun _ _ => ends_error
  exact poll_provenance.mono fun o q₂ h₂ => ⟨h₁.trans h₂.1, fun b i ho hi =>
    ⟨(h₂.2 b i ho hi).1, trivial⟩⟩

theorem undefineFdu_provenance :
    (Agent.undefineFdu z a u).Follows Provenance (q.Ends some fun _ _ => True) q := by
  refine dispatch_provenance (fun inst p q hinst hp => ?_) fun svc q =>
    rpc_provenance (r := .cleanFdu u)
  refine follows_bind (pluginCall_provenance (Or.inr rfl) hp) (fun _ q₁ h₁ => ?_)
    fun _ _ => ends_error
  have hremove : (removeInstance u).Within Cmd.Free Proc.Called :=
    within_bind (within_ask (Cmd.Plain.free trivial)) fun _ =>
      within_ask ⟨fun _ => id, fun _ => trivial⟩
  refine provenance_bind hremove (fun _ q₂ h₂ => ⟨h₁.trans h₂, fun b i hb hi => ?_⟩)
    fun _ _ h => ends_error (h₁.trans h)
  cases hb
  cases hi
  exact ⟨(h₁.trans h₂).knows _ hinst, trivial⟩

theorem fduStatus_provenance :
    (Agent.fduStatus z a u).Follows Provenance (q.Ends some fun _ _ => True) q := by
  refine provenance_bind (within_ask (Cmd.Plain.free trivial)) (fun inst q₁ h₁ => ?_)
    fun _ _ => ends_error
  refine provenance_bind (within_ask (Cmd.Plain.free trivial)) (fun d q₂ h₂ => ?_)
    fun _ _ h => ends_error (h₁.trans h)
  refine provenance_bind (within_issue (Cmd.Plain.free trivial)) (fun hv q₃ h₃ => ?_)
    fun _ _ h => ends_error ((h₁.trans h₂).trans h)
  refine follows_okOr_bind (fun p _ => ?_) fun _ => ends_error ((h₁.trans h₂).trans h₃)
  exact pluginStatus_provenance.mono fun o q₄ => ends_since ((h₁.trans h₂).trans h₃)

theorem defineFdu_provenance : (Agent.defineFdu z a f).Follows Provenance
    (q.Ends some fun r q' => (q.own ++ [r.uuid]).Sublist q'.own) q := by
  have hfree : ∀ {c : Cmd} {q : Ledger}, c.Plain → Provenance.allows q c := fun h =>
    provenance_of_free h.free
  refine follows_ask_bind (hfree trivial) (fun d q₁ hn₁ => ?_)
    fun _ _ hn => ends_error (provenance_grows hn)
  have h₁ := provenance_grows hn₁
  have hd : q₁.descriptor = some d := by rw [hn₁.1]; rfl
  refine follows_issue_bind (hfree trivial) fun hv q₂ hn₂ => ?_
  have h₂ := h₁.trans (provenance_grows hn₂)
  refine follows_okOr_bind (fun p hp => ?_) fun _ => ends_error h₂
  subst hp
  have hd₂ : q₂.descriptor = some d := by rw [hn₂.1]; exact hd
  have hp₂ : q₂.plugin = some p := by rw [hn₂.1]; rfl
  refine follows_bind (pluginDefine_provenance hd₂ hp₂) (fun inst q₃ h₃ => ?_)
    fun _ _ h => ends_error (h₂.trans h.1)
  refine poll_provenance.mono fun o q₄ h₄ => ⟨h₂.trans (h₃.1.trans h₄.1), fun b r ho hr => ?_⟩
  obtain ⟨hknown, hu⟩ := h₄.2 b r ho hr
  have hown : (q₂.own ++ [r.uuid]).Sublist q₄.own :=
    hu ▸ (h₃.2 inst inst rfl rfl).2.trans h₄.1.own.sublist
  exact ⟨hknown, (h₂.own.sublist.append_right _).trans hown⟩

theorem scheduleFdu_provenance : (Agent.scheduleFdu z a f).Follows Provenance
    (q.Ends some fun r q' => (q.own ++ [r.uuid]).Sublist q'.own) q := by
  refine provenance_bind (Agent.within_getCompatibleNodes (fun _ hc => hc.free) fun _ => trivial)
    (fun l q₁ h₁ => ?_) fun _ _ => ends_error
  refine provenance_bind (within_issue (Cmd.Plain.free trivial)) (fun x q₂ h₂ => ?_)
    fun _ _ h => ends_error (h₁.trans h)
  have h₁₂ := h₁.trans h₂
  have hsince : ∀ {o : Except Exn FDURecord} {q' : Ledger},
      q₂.Ends some (fun r q' => (q₂.own ++ [r.uuid]).Sublist q'.own) o q' →
      q.Ends some (fun r q' => (q.own ++ [r.uuid]).Sublist q'.own) o q' := fun ho =>
    ⟨h₁₂.trans ho.1, fun b r hb hr => (ho.2 b r hb hr).imp_right
      (h₁₂.own.sublist.append_right _).trans⟩
  cases x with
  | none => exact ends_error h₁₂
  | some selected =>
    dsimp only
    split
    · exact defineFdu_provenance.mono fun _ _ => hsince
    · exact (rpc_provenance (r := .defineFdu f)).mono fun _ _ => hsince

theorem scheduleEntity_provenance {e : Uuid} :
    (Agent.scheduleEntity a e).Follows Provenance (fun _ q' => q.Grows q') q := by
  refine follows_ask_bind (provenance_of_free (Cmd.Plain.free trivial)) (fun d q₁ hn₁ => ?_)
    fun _ _ => provenance_grows
  have h₁ := provenance_grows hn₁
  have he : q₁.entity = some e := by rw [hn₁.1]; rfl
  refine follows_issue_bind ⟨fun _ => False.elim, trivial⟩ fun v q₂ hn₂ => ?_
  have h₂ := h₁.trans (provenance_grows hn₂)
  refine follows_okOr_bind (fun id hid => ?_) fun _ => h₂
  obtain rfl : e = id := Option.some.inj (hn₁.2.symm.trans hid)
  have hknown : q₂.knows (.entity v e) := provenance_learns hn₂ (Or.inr (Or.inl ⟨e, he, rfl⟩))
  have hgive : ∀ q', q₂.Grows q' → ∀ x ∈ [Datum.entity v e, .members v []], q'.Has x := by
    intro q' h' x hx
    rcases List.mem_pair.1 hx with rfl | rfl
    · exact h'.knows _ hknown
    · exact Or.inr (Or.inl rfl)
  refine follows_ask_bind ⟨hgive q₂ (.refl q₂), trivial⟩ (fun _ q₃ hn₃ => ?_)
    fun _ _ hn => h₂.trans (provenance_grows hn)
  have h₃ := provenance_grows hn₃
  exact follows_issue_bind ⟨hgive q₃ h₃, rfl⟩ fun _ q₄ hn₄ =>
    (h₂.trans h₃).trans (provenance_grows hn₄)

theorem descheduleEntity_provenance {e : Uuid} :
    (Agent.descheduleEntity a e).Follows Provenance (fun _ q' => q.Grows q') q := by
  refine follows_ask_bind (provenance_of_free (Cmd.Plain.free trivial)) (fun inst q₁ hn₁ => ?_)
    fun _ _ => provenance_grows
  refine follows_issue_bind ⟨fun x hx => ?_, trivial⟩ fun _ q₂ hn₂ =>
    (provenance_grows hn₁).trans (provenance_grows hn₂)
  exact Ledger.has_of_knows (provenance_learns hn₁ hx)

theorem handle_provenance {r : Request} :
    (Agent.handle z a r).Follows Provenance (Provenance.back q (.agent svc r)) q := by
  have hplain : ∀ c : Cmd, c.Plain → c.Free := fun _ h => h.free
  have silent : ∀ {r : Request}, (∀ a, r.record a = none) →
      (Agent.handle z a r).Follows Provenance (fun _ q' => q.Grows q') q →
      (Agent.handle z a r).Follows Provenance (Provenance.back q (.agent svc r)) q := by
    refine fun hr h => h.mono fun o q' hq => ⟨hq, fun b i _ hi => ?_⟩
    cases (hr b).symm.trans hi
  cases r with
  | checkFduCompatibility f =>
    exact silent (fun _ => rfl) (provenance_of_within (Agent.within_checkFduCompatibility hplain))
  | scheduleEntity e => exact silent (fun _ => rfl) scheduleEntity_provenance
  | descheduleEntity e => exact silent (fun _ => rfl) descheduleEntity_provenance
  | scheduleFdu f => exact scheduleFdu_provenance
  | onboardFdu fdu =>
    exact silent (fun _ => rfl) (provenance_of_within (Agent.within_onboardFdu fdu
      ⟨fun _ => id, fun _ => trivial⟩ fun _ => ⟨fun _ => id, fun _ => trivial⟩))
  | onboardEntity entity =>
    exact silent (fun _ => rfl) (provenance_of_within (Agent.within_onboardEntity entity
      ⟨fun _ => id, fun _ => trivial⟩ fun _ => ⟨fun _ => id, fun _ => trivial⟩))
  | defineFdu f => exact defineFdu_provenance
  | configureFdu u =>
    have hforward : ∀ svc q, (rpc z svc (.configureFdu u)).Follows Provenance
        (q.Ends some fun _ _ => True) q := fun _ _ => rpc_provenance
    exact moving_provenance (q := q) (r := .configureFdu u) rfl hforward
  | startFdu u =>
    have hforward : ∀ svc q, (rpc z svc (.startFdu u)).Follows Provenance
        (q.Ends some fun _ _ => True) q := fun _ _ => rpc_provenance
    exact moving_provenance (q := q) (r := .startFdu u) rfl hforward
  | stopFdu u =>
    have hforward : ∀ svc q, (rpc z svc (.stopFdu u)).Follows Provenance
        (q.Ends some fun _ _ => True) q := fun _ _ => rpc_provenance
    exact moving_provenance (q := q) (r := .stopFdu u) rfl hforward
  | cleanFdu u =>
    have hforward : ∀ svc q, (rpc z svc (.cleanFdu u)).Follows Provenance
        (q.Ends some fun _ _ => True) q := fun _ _ => rpc_provenance
    exact moving_provenance (q := q) (r := .cleanFdu u) rfl hforward
  | undefineFdu u => exact undefineFdu_provenance
  | offloadFdu f =>
    exact silent (fun _ => rfl) (provenance_of_within (Agent.within_offloadFdu hplain
      ⟨fun _ => id, fun _ => trivial⟩))
  | offloadEntity e =>
    exact silent (fun _ => rfl) (provenance_of_within (Agent.within_offloadEntity hplain
      ⟨fun _ => id, fun _ => trivial⟩))
  | fduStatus u => exact fduStatus_provenance

theorem provenance_sound : Provenance.Sound (body z) := by
  intro q p hp
  cases p with
  | poll u awaited =>
    refine Prog.follows_retry (provenance_of_free (Cmd.Plain.free trivial)) (fun r q₁ hn => ?_)
      fun r q₁ o hn ho => ?_
    · exact poll_provenance.mono fun o q₂ => ends_since (provenance_grows hn)
    · refine ⟨provenance_grows hn, fun b i hb hi => ?_⟩
      subst hb
      cases hi
      obtain rfl := settle_ok ho
      exact ⟨provenance_learns hn rfl, hn.2⟩
  | task t => exact hp.elim
  | agent svc r =>
    simp only [body]
    split
    · exact handle_provenance
    · exact (Prog.follows_err _ _).2 ⟨.refl q, fun _ _ h => by cases h⟩

/-! The tasks. -/

theorem rpc_grows {r : Request} : (rpc z svc r).Follows Provenance (fun _ q' => q.Grows q') q :=
  rpc_provenance.mono fun _ _ h => h.1

theorem grows_bind {β : Type} {b : M α} {k : α → M β}
    (hb : b.Follows Provenance (fun _ q' => q.Grows q') q)
    (hk : ∀ x q', q.Grows q' → (k x).Follows Provenance (fun _ q'' => q'.Grows q'') q') :
    (b >>= k).Follows Provenance (fun _ q' => q.Grows q') q :=
  follows_bind hb (fun x q₁ h₁ => (hk x q₁ h₁).mono fun _ _ h => h₁.trans h) fun _ _ => id

theorem client_grows {owner : Uuid} :
    (Agent.client a owner).Follows Provenance (fun _ q' => q.Grows q') q :=
  provenance_of_within (Agent.within_client fun _ hc => hc.free)

theorem onboardFdus_grows (fdus : List FDUDescriptor) :
    (Agent.onboardFdus z a fdus).Follows Provenance (fun _ q' => q.Grows q') q := by
  induction fdus generalizing q with
  | nil => exact .refl q
  | cons fdu fdus ih => exact grows_bind rpc_grows fun _ _ _ => ih

theorem offloadFdus_grows (fdus : List FDUDescriptor) :
    (Agent.offloadFdus z a fdus).Follows Provenance (fun _ q' => q.Grows q') q := by
  induction fdus generalizing q with
  | nil => exact .refl q
  | cons fdu fdus ih =>
    exact grows_bind (provenance_of_within within_okOr) fun _ _ _ => grows_bind rpc_grows fun _ _ _ => ih

theorem unscheduleFdus_grows (l : List Uuid) :
    (Agent.unscheduleFdus z a l).Follows Provenance (fun _ q' => q.Grows q') q := by
  induction l generalizing q with
  | nil => exact .refl q
  | cons u l ih =>
    refine grows_bind (provenance_of_within (within_ask (Cmd.Plain.free trivial))) fun _ _ _ =>
      grows_bind client_grows fun _ _ _ => grows_bind ?_ fun _ _ _ => ih
    exact grows_bind rpc_grows fun _ _ _ => grows_bind rpc_grows fun _ _ _ =>
      grows_bind rpc_grows fun _ q _ => .refl q

/-- The record of an entity instance is the call's to write. -/
def Ledger.Writes (q : Ledger) (inst : EntityRecord) : Prop := ∀ x ∈ inst.data, q.Has x

theorem Ledger.Grows.writes {inst : EntityRecord} (h : q.Grows q') (hw : q.Writes inst) :
    q'.Writes inst := fun x hx => h.has (hw x hx)

theorem writeStatus_provenance {inst : EntityRecord} {status : EntityStatus} (hw : q.Writes inst) :
    (Agent.writeStatus inst status).Follows Provenance
      (fun o q' => q.Grows q' ∧ ∀ i, o = .ok i → i = { inst with status }) q :=
  follows_ask_bind ⟨hw, trivial⟩
    (fun _ _ hn => ⟨provenance_grows hn, fun _ hi => (Except.ok.inj hi).symm⟩)
    fun _ _ hn => ⟨provenance_grows hn, nofun⟩

theorem scheduleFdus_provenance (fdus : List FDUDescriptor) {inst : EntityRecord}
    (htask : q.task = some inst.uuid) (hfdus : inst.fdus.Sublist q.own)
    (hid : q.knows (.entity inst.uuid inst.id)) :
    (Agent.scheduleFdus z a fdus inst).Follows Provenance
      (fun o q' => q.Grows q' ∧ ∀ i, o = .ok i → q'.Writes i) q := by
  induction fdus generalizing inst q with
  | nil =>
    refine ⟨.refl q, fun i hi x hx => ?_⟩
    cases hi
    rcases List.mem_pair.1 hx with rfl | rfl
    · exact hid
    · exact Or.inr (Or.inr ⟨htask, hfdus⟩)
  | cons fdu fdus ih =>
    refine follows_okOr_bind (fun f _ => ?_) fun _ => ⟨.refl q, nofun⟩
    refine follows_bind (rpc_provenance (r := .scheduleFdu f)) (fun r q₁ h₁ => ?_)
      fun _ _ h => ⟨h.1, nofun⟩
    refine follows_bind client_grows (fun svc q₂ h₂ => ?_) fun _ _ h => ⟨h₁.1.trans h, nofun⟩
    have hup : (Agent.bringUp z svc r.uuid).Follows Provenance (fun _ q' => q₂.Grows q') q₂ :=
      grows_bind rpc_grows fun _ _ _ => grows_bind rpc_grows fun _ q _ => .refl q
    refine follows_bind hup (fun _ q₃ h₃ => ?_) fun _ _ h => ⟨h₁.1.trans (h₂.trans h), nofun⟩
    have h₁₃ := h₂.trans h₃
    have hnew : (q.own ++ [r.uuid]).Sublist q₁.own := (h₁.2 r r rfl rfl).2
    have htask₃ : q₃.task = some inst.uuid := (h₁.1.trans h₁₃).task.trans htask
    have hfdus₃ : (inst.fdus ++ [r.uuid]).Sublist q₃.own :=
      ((hfdus.append_right _).trans hnew).trans h₁₃.own.sublist
    let inst' : EntityRecord := { inst with fdus := inst.fdus ++ [r.uuid] }
    apply (@ih q₃ inst' htask₃ hfdus₃ ((h₁.1.trans h₁₃).knows _ hid)).mono
    intro o q₄ h₄
    exact ⟨(h₁.1.trans h₁₃).trans h₄.1, h₄.2⟩

theorem entityScheduling_provenance {inst : EntityRecord} {descriptor : EntityDescriptor}
    (htask : q.task = some inst.uuid) (hfdus : inst.fdus = [])
    (hid : q.knows (.entity inst.uuid inst.id)) :
    (Agent.entityScheduling z a inst descriptor).Follows Provenance (fun _ q' => q.Grows q') q := by
  have hw : q.Writes inst := by
    intro x hx
    rcases List.mem_pair.1 hx with rfl | rfl
    · exact hid
    · exact Or.inr (Or.inl hfdus)
  apply grows_bind (onboardFdus_grows _)
  intro _ q₁ h₁
  refine follows_bind (writeStatus_provenance (h₁.writes hw)) (fun i q₂ hi => ?_) fun _ _ h => h.1
  obtain rfl := hi.2 i rfl
  refine follows_bind (writeStatus_provenance (hi.1.writes (h₁.writes hw))) (fun i q₃ hi' => ?_)
    fun _ _ h => hi.1.trans h.1
  obtain rfl := hi'.2 i rfl
  have h₃ := hi.1.trans hi'.1
  have hnone : inst.fdus.Sublist q₃.own := hfdus ▸ List.nil_sublist _
  refine follows_bind (scheduleFdus_provenance _ ((h₁.trans h₃).task.trans htask) hnone
    ((h₁.trans h₃).knows _ hid)) (fun i q₄ h₄ => ?_) fun _ _ h => h₃.trans h.1
  refine follows_bind (writeStatus_provenance (h₄.2 i rfl))
    (fun _ _ h => h₃.trans (h₄.1.trans h.1)) fun _ _ h => h₃.trans (h₄.1.trans h.1)

theorem entityUnscheduling_provenance {inst : EntityRecord} (hw : q.Writes inst) :
    (Agent.entityUnscheduling z a inst).Follows Provenance (fun _ q' => q.Grows q') q := by
  refine grows_bind (provenance_of_within (within_ask (Cmd.Plain.free trivial))) fun d q₁ h₁ => ?_
  refine follows_bind (writeStatus_provenance (h₁.writes hw)) (fun i q₂ h₂ => ?_) fun _ _ h => h.1
  obtain rfl := h₂.2 i rfl
  have hw₂ : q₂.Writes inst := h₂.1.writes (h₁.writes hw)
  refine follows_bind (unscheduleFdus_grows _) (fun _ q₃ h₃ => ?_) fun _ _ h => h₂.1.trans h
  refine follows_bind (writeStatus_provenance (h₃.writes hw₂)) (fun i q₄ h₄ => ?_)
    fun _ _ h => h₂.1.trans (h₃.trans h.1)
  obtain rfl := h₄.2 i rfl
  have hw₄ : q₄.Writes inst := h₄.1.writes (h₃.writes hw₂)
  refine follows_bind (writeStatus_provenance hw₄) (fun i q₅ h₅ => ?_)
    fun _ _ h => h₂.1.trans (h₃.trans (h₄.1.trans h.1))
  obtain rfl := h₅.2 i rfl
  have h₁₅ := h₂.1.trans (h₃.trans (h₄.1.trans h₅.1))
  refine follows_bind (offloadFdus_grows _) (fun _ q₆ h₆ => ?_) fun _ _ h => h₁₅.trans h
  exact follows_bind (writeStatus_provenance (h₆.writes (h₅.1.writes hw₄)))
    (fun _ _ h => h₁₅.trans (h₆.trans h.1)) fun _ _ h => h₁₅.trans (h₆.trans h.1)

/-- What a task is given by the call that spawned it. -/
def Task.ledger (t : Task) : Ledger where
  descriptor := none
  plugin := none
  node := none
  entity := none
  task := match t with
    | .schedule _ _ inst _ => some inst.uuid
    | .deschedule _ _ _ => none
  own := []
  knows x := x ∈ t.inst.data

theorem task_provenance {t : Task}
    (ht : ∀ n svc inst d, t = .schedule n svc inst d → inst.fdus = []) :
    (t.body z).Follows Provenance (fun _ q' => t.ledger.Grows q') t.ledger := by
  have hw : t.ledger.Writes t.inst := fun x hx => Ledger.has_of_knows hx
  have hreport : ∀ {b : M Unit}, b.Follows Provenance (fun _ q' => t.ledger.Grows q') t.ledger →
      (Agent.report t.inst b).Follows Provenance (fun _ q' => t.ledger.Grows q') t.ledger := by
    refine fun hb => (Prog.follows_bindE _ _ _).2 (hb.mono fun o q' h' => ?_)
    rcases o with (e | _) | _
    · exact ⟨⟨h'.writes hw, trivial⟩, fun _ q'' hn => by
        cases ‹Except FError Unit› <;> exact h'.trans (provenance_grows hn)⟩
    · exact h'
    · exact h'
  cases t with
  | schedule n svc inst d =>
    exact hreport (entityScheduling_provenance rfl (ht n svc inst d rfl) List.mem_cons_self)
  | deschedule n svc inst => exact hreport (entityUnscheduling_provenance hw)

end Follows

end Fog05
