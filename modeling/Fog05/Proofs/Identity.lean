import Fog05.Proofs.Boot
import Fog05.Proofs.Provenance

/-! Identities never diverge. Every uuid has an origin, what the call that was given it
knew then; all that is said of it, by records that are stored or in the hands of a call,
agrees with the origin. Nothing has to be known of the order of steps. -/

namespace Fog05

open Conc M

/-- This is said by a record in a store, in a queue, with a plugin or with a task. -/
inductive Fos.Shows (s : Fos) : Datum → Prop
  | stored {r} : r ∈ s.global.instances → s.Shows r.datum
  | copy {n r} : r ∈ (s.node n).instances → s.Shows r.datum
  | pending {n r} : r ∈ (s.node n).changes → s.Shows r.datum
  | kept {p r} : r ∈ (s.plugin p).fdus → s.Shows r.datum
  | entity {i x} : i ∈ s.global.entityInstances → x ∈ i.data → s.Shows x
  | task {t x} : t ∈ s.tasks → x ∈ t.inst.data → s.Shows x

/-- For every uuid, the ledger of the call that was given it. -/
abbrev Origins := Uuid → Option Ledger

def Origins.Extends (T' T : Origins) : Prop := ∀ u q, T u = some q → T' u = some q

/-- What is said of a uuid is what the call that was given it made up; the instances of
an entity instance were given to its task, and plugins are called for given uuids. -/
def Datum.Holds (T : Origins) : Datum → Prop
  | .fdu u f n => ∃ q, T u = some q ∧ q.Learns (.fdu u f n) .newUuid u
  | .entity u e => ∃ q, T u = some q ∧ q.Learns (.entity u e) .newUuid u
  | .members u l => l.Nodup ∧ ∀ v ∈ l, ∃ q, T v = some q ∧ q.task = some u
  | .plugin u _ => ∃ q, T u = some q

/-- All that is said in the state holds. -/
structure Attested (T : Origins) (s : Fos) : Prop where
  issued : ∀ u q, T u = some q → u ∈ s.issued
  shown : ∀ x, s.Shows x → x.Holds T
  fresh : ∀ t ∈ s.tasks, ∀ n svc inst d, t = .schedule n svc inst d → inst.fdus = []

/-- And all that a call knows, whose uuids are its own. -/
structure Vouched (T : Origins) (q : Ledger) : Prop where
  knows : ∀ x, q.knows x → x.Holds T
  nodup : q.own.Nodup
  own : ∀ v ∈ q.own, ∃ q', T v = some q' ∧ q'.task = q.task

/-- A call that is over knows the record it has returned. -/
def Proc.Reports (p : Proc) (o : Except Exn p.Ret) (q : Ledger) : Prop :=
  ∀ a r, o = .ok a → p.record a = some r → q.knows r.datum

structure Accounted (T : Origins) (w : Calls) : Prop where
  state : Attested T w.state
  calls : w.Follows Provenance Proc.Reports fun _ q _ => Vouched T q

section Holds

variable {T T' : Origins} {x : Datum} {q : Ledger} {s : Fos} {u f f' n n' e e' : Uuid}

theorem Origins.Extends.refl (T : Origins) : T.Extends T := fun _ _ => id

theorem Origins.Extends.trans {T₁ T₂ T₃ : Origins} (h : T₂.Extends T₁) (h' : T₃.Extends T₂) :
    T₃.Extends T₁ := fun u q hu => h' u q (h u q hu)

theorem extends_update {v : Uuid} (hv : T v = none) :
    Origins.Extends (Function.update T v (some q)) T := by
  intro u q' hu
  rw [Function.update_of_ne, hu]
  rintro rfl
  cases hv.symm.trans hu

theorem Datum.Holds.extend (h : x.Holds T) (hT : T'.Extends T) : x.Holds T' := by
  cases x with
  | fdu u f n => obtain ⟨q, hq, hl⟩ := h; exact ⟨q, hT u q hq, hl⟩
  | entity u e => obtain ⟨q, hq, hl⟩ := h; exact ⟨q, hT u q hq, hl⟩
  | members u l =>
    refine ⟨h.1, fun v hv => ?_⟩
    obtain ⟨q, hq, ht⟩ := h.2 v hv
    exact ⟨q, hT v q hq, ht⟩
  | plugin u p => obtain ⟨q, hq⟩ := h; exact ⟨q, hT u q hq⟩

theorem learns_newUuid (h : q.Learns x .newUuid u) :
    (∃ f n, x = .fdu u f n) ∨ (∃ e, x = .entity u e) ∨ ∃ p, x = .plugin u p := by
  rcases h with ⟨d, f, n, -, -, -, rfl⟩ | ⟨e, -, rfl⟩ | ⟨p, -, rfl⟩
  · exact Or.inl ⟨f, n, rfl⟩
  · exact Or.inr (Or.inl ⟨e, rfl⟩)
  · exact Or.inr (Or.inr ⟨p, rfl⟩)

theorem learns_fdu : q.Learns (.fdu u f n) .newUuid u ↔
    ∃ d, q.descriptor = some d ∧ d.uuid = some f ∧ q.node = some n := by
  constructor
  · rintro (⟨d, f', n', hd, hf, hn, hx⟩ | ⟨e, -, hx⟩ | ⟨p, -, hx⟩)
    · cases hx; exact ⟨d, hd, hf, hn⟩
    · cases hx
    · cases hx
  · rintro ⟨d, hd, hf, hn⟩
    exact Or.inl ⟨d, f, n, hd, hf, hn, rfl⟩

theorem learns_entity : q.Learns (.entity u e) .newUuid u ↔ q.entity = some e := by
  constructor
  · rintro (⟨d, f', n', -, -, -, hx⟩ | ⟨e', he, hx⟩ | ⟨p, -, hx⟩)
    · cases hx
    · cases hx; exact he
    · cases hx
  · exact fun he => Or.inr (Or.inl ⟨e, he, rfl⟩)

theorem learns_plugin {p : Uuid} : q.Learns (.plugin u p) .newUuid u ↔ q.plugin = some p := by
  constructor
  · rintro (⟨d, f', n', -, -, -, hx⟩ | ⟨e, -, hx⟩ | ⟨p', hp, hx⟩)
    · cases hx
    · cases hx
    · cases hx; exact hp
  · exact fun hp => Or.inr (Or.inr ⟨p, hp, rfl⟩)

theorem fdu_unique (h : (Datum.fdu u f n).Holds T) (h' : (Datum.fdu u f' n').Holds T) :
    f = f' ∧ n = n' := by
  obtain ⟨q, hq, hl⟩ := h
  obtain ⟨q', hq', hl'⟩ := h'
  obtain rfl := Option.some.inj (hq.symm.trans hq')
  obtain ⟨d, hd, hf, hn⟩ := learns_fdu.1 hl
  obtain ⟨d', hd', hf', hn'⟩ := learns_fdu.1 hl'
  obtain rfl := Option.some.inj (hd.symm.trans hd')
  exact ⟨Option.some.inj (hf.symm.trans hf'), Option.some.inj (hn.symm.trans hn')⟩

theorem entity_unique (h : (Datum.entity u e).Holds T) (h' : (Datum.entity u e').Holds T) :
    e = e' := by
  obtain ⟨q, hq, hl⟩ := h
  obtain ⟨q', hq', hl'⟩ := h'
  obtain rfl := Option.some.inj (hq.symm.trans hq')
  exact Option.some.inj ((learns_entity.1 hl).symm.trans (learns_entity.1 hl'))

theorem same_path {r r' : FDURecord} (h : r.datum.Holds T) (h' : r'.datum.Holds T)
    (hu : r.uuid = r'.uuid) : r.path = r'.path := by
  have h' : (Datum.fdu r.uuid r'.fduUuid r'.node).Holds T := by rw [hu]; exact h'
  exact Prod.ext (fdu_unique h h').1 hu

theorem members_disjoint {u' : Uuid} {l l' : List Uuid} (h : (Datum.members u l).Holds T)
    (h' : (Datum.members u' l').Holds T) (hu : u ≠ u') : l.Disjoint l' := by
  intro v hv hv'
  obtain ⟨q, hq, ht⟩ := h.2 v hv
  obtain ⟨q', hq', ht'⟩ := h'.2 v hv'
  obtain rfl := Option.some.inj (hq.symm.trans hq')
  exact hu (Option.some.inj (ht.symm.trans ht'))

theorem Vouched.extend (h : Vouched T q) (hT : T'.Extends T) : Vouched T' q := by
  refine ⟨fun x hx => (h.knows x hx).extend hT, h.nodup, fun v hv => ?_⟩
  obtain ⟨q', hq', ht⟩ := h.own v hv
  exact ⟨q', hT v q' hq', ht⟩

theorem Vouched.has (h : Vouched T q) (hx : q.Has x) : x.Holds T := by
  cases x with
  | members u l =>
    rcases hx with hx | rfl | ⟨ht, hl⟩
    · exact h.knows _ hx
    · exact ⟨List.nodup_nil, nofun⟩
    · refine ⟨h.nodup.sublist hl, fun v hv => ?_⟩
      obtain ⟨q', hq', ht'⟩ := h.own v (hl.subset hv)
      exact ⟨q', hq', ht'.trans ht⟩
  | _ => exact h.knows _ hx

end Holds

section Steps

variable {z : Session} {T : Origins} {x : Datum} {q : Ledger} {s s' : Fos} {c : Cmd} {ch : Choice}
  {r : c.Ans}

theorem exec_entrusts (hx : exec c ch s = some (r, s')) :
    (∀ p, ∀ i ∈ (s'.plugin p).fdus, i ∈ (s.plugin p).fdus ∨ c = .insert p i) ∧
      ∀ t ∈ s'.tasks, t ∈ s.tasks ∨ c = .spawn t := by
  cases c with
  | access a =>
    have hsame : s'.plugin = s.plugin ∧ s'.tasks = s.tasks := by
      rcases exec_access hx with ⟨-, hr⟩ | ⟨e, -, -, rfl⟩
      · obtain ⟨-, rfl⟩ := Prod.mk.inj hr
        cases a <;> exact ⟨rfl, rfl⟩
      · exact ⟨rfl, rfl⟩
    rw [hsame.1, hsame.2]
    exact ⟨fun _ _ => Or.inl, fun _ => Or.inl⟩
  | insert p inst =>
    rw [exec_insert hx]
    refine ⟨fun p' i hi => ?_, fun _ => Or.inl⟩
    rw [Fos.setFdus_fdus] at hi
    split at hi
    · next hp =>
      subst hp
      rcases Table.mem_put.1 hi with rfl | ⟨hi, -⟩
      · exact Or.inr rfl
      · exact Or.inl hi
    · exact Or.inl hi
  | remove p u =>
    rw [exec_remove hx]
    refine ⟨fun p' i hi => Or.inl ?_, fun _ => Or.inl⟩
    rw [Fos.setFdus_fdus] at hi
    split at hi
    · next hp =>
      subst hp
      exact (Table.mem_erase.1 hi).1
    · exact hi
  | spawn t =>
    rw [exec_spawn hx]
    refine ⟨fun _ _ => Or.inl, fun t' ht => ?_⟩
    rcases List.mem_append.1 ht with ht | ht
    · exact Or.inl ht
    · exact Or.inr (by rw [List.mem_singleton.1 ht])
  | lock p =>
    obtain ⟨-, rfl⟩ := exec_lock hx
    exact ⟨fun p' i hi => Or.inl (by rwa [Fos.setLock_fdus] at hi), fun _ => Or.inl⟩
  | unlock p =>
    rw [exec_unlock hx]
    exact ⟨fun p' i hi => Or.inl (by rwa [Fos.setLock_fdus] at hi), fun _ => Or.inl⟩
  | net n q => obtain ⟨-, rfl⟩ := exec_net hx; exact ⟨fun _ _ => Or.inl, fun _ => Or.inl⟩
  | hypervisor n name =>
    obtain ⟨-, rfl⟩ := exec_hypervisor hx
    exact ⟨fun _ _ => Or.inl, fun _ => Or.inl⟩
  | newUuid => obtain ⟨-, rfl⟩ := exec_newUuid hx; exact ⟨fun _ _ => Or.inl, fun _ => Or.inl⟩
  | choose l => obtain ⟨rfl, -⟩ := exec_choose hx; exact ⟨fun _ _ => Or.inl, fun _ => Or.inl⟩
  | pathExists path =>
    obtain ⟨-, rfl⟩ := exec_pathExists hx
    exact ⟨fun _ _ => Or.inl, fun _ => Or.inl⟩

theorem exec_tells (hx : exec c ch s = some (r, s')) (h : c.Tells x r) : s.Shows x := by
  cases c with
  | access a =>
    obtain ⟨-, hr⟩ | ⟨e, -, rfl, -⟩ := exec_access hx
    · have hrun : (a.run s).1 = r := congrArg Prod.fst hr
      cases r with
      | error e => cases a <;> exact h.elim
      | ok y =>
        cases a with
        | getInstance u => cases h; exact .stored (single_select_key hrun).1
        | localGetInstance n u => cases h; exact .copy (single_select_key hrun).1
        | getEntityInstance u => exact .entity (single_select_key hrun).1 h
        | _ => exact h.elim
    · cases a <;> exact h.elim
  | _ => exact h.elim

theorem exec_shows (hx : exec c ch s = some (r, s')) (h : s'.Shows x) : s.Shows x ∨ c.Gives x := by
  have hadds := exec_adds hx
  have hentrusts := exec_entrusts hx
  cases h with
  | stored hr => exact Or.inl (.stored (hadds.stored _ hr))
  | copy hr =>
    rcases hadds.copies _ _ hr with hr | rfl
    · exact Or.inl (.copy hr)
    · exact Or.inr rfl
  | pending hr =>
    rcases hadds.pending _ _ hr with hr | rfl
    · exact Or.inl (.pending hr)
    · exact Or.inr rfl
  | kept hr =>
    rcases hentrusts.1 _ _ hr with hr | rfl
    · exact Or.inl (.kept hr)
    · exact Or.inr rfl
  | entity hi hd =>
    rcases hadds.entities _ hi with hi | rfl
    · exact Or.inl (.entity hi hd)
    · exact Or.inr hd
  | task ht hd =>
    rcases hentrusts.2 _ ht with ht | rfl
    · exact Or.inl (.task ht hd)
    · exact Or.inr hd

/-- A call learns what the state shows, and besides only of the uuid it is given, or of
a plugin. -/
theorem Vouched.after (h : Vouched T q) (hs : ∀ x, s.Shows x → x.Holds T)
    (hx : exec c ch s = some (r, s')) (hc : c ≠ .newUuid) : Vouched T (q.after c r) := by
  have hown : (q.after c r).own = q.own := by
    change (q.note c r).own = q.own
    unfold Ledger.note
    split <;> first | rfl | exact absurd rfl hc
  refine ⟨fun x hknown => ?_, hown ▸ h.nodup, fun v hv => ?_⟩
  · rcases hknown with hknown | hlearns
    · exact h.knows x hknown
    · unfold Ledger.Learns at hlearns
      split at hlearns
      · exact absurd rfl hc
      · obtain ⟨d, f, u, -, -, -, hu, rfl⟩ := hlearns
        obtain ⟨q', hq', -⟩ := h.knows _ hu
        exact ⟨q', hq'⟩
      · exact hs x (exec_tells hx hlearns)
  · rw [show (q.after c r).task = q.task from Ledger.note_task]
    exact h.own v (hown ▸ hv)

theorem Vouched.after_newUuid {v : Uuid} (h : Vouched T q) (hv : T v = none) :
    Vouched (Function.update T v (some q)) (q.after .newUuid v) := by
  have hT : Origins.Extends (Function.update T v (some q)) T := extends_update hv
  have hself : Function.update T v (some q) v = some q := Function.update_self ..
  refine ⟨fun x hx => ?_, ?_, fun w hw => ?_⟩
  · rcases hx with hx | hx
    · exact (h.knows x hx).extend hT
    · rcases hx with ⟨d, f, n, hd, hf, hn, rfl⟩ | ⟨e, he, rfl⟩ | ⟨p, -, rfl⟩
      · exact ⟨q, hself, learns_fdu.2 ⟨d, hd, hf, hn⟩⟩
      · exact ⟨q, hself, learns_entity.2 he⟩
      · exact ⟨q, hself⟩
  · refine List.nodup_append.2 ⟨h.nodup, List.nodup_singleton v, fun w hw w' hw' hww' => ?_⟩
    obtain ⟨q', hq', -⟩ := h.own w hw
    rw [hww', List.mem_singleton.1 hw', hv] at hq'
    cases hq'
  · rcases List.mem_append.1 hw with hw | hw
    · obtain ⟨q', hq', ht⟩ := h.own w hw
      exact ⟨q', hT w q' hq', ht⟩
    · obtain rfl := List.mem_singleton.1 hw
      exact ⟨q, hself, rfl⟩

theorem Attested.exec (h : Attested T s) (hq : Vouched T q) (hallow : Provenance.allows q c)
    (hx : exec c ch s = some (r, s')) : Attested T s' := by
  refine ⟨fun u q hu => exec_issued hx (h.issued u q hu), fun x hs => ?_, fun t ht n svc inst d hd => ?_⟩
  · exact (exec_shows hx hs).elim (h.shown x) fun hg => hq.has (hallow.1 x hg)
  · rcases (exec_entrusts hx).2 t ht with ht | rfl
    · exact h.fresh t ht n svc inst d hd
    · subst hd
      exact hallow.2

theorem Attested.newUuid {v : Uuid} (h : Attested T s)
    (hx : Fog05.exec .newUuid ch s = some (v, s'))
    (hv : T v = none) : Attested (Function.update T v (some q)) s' := by
  refine ⟨fun u q' hu => ?_, fun x hs => ?_, fun t ht => ?_⟩
  · obtain ⟨-, rfl⟩ := exec_newUuid hx
    by_cases huv : u = v
    · exact huv ▸ List.mem_cons_self
    · rw [Function.update_of_ne huv] at hu
      exact List.mem_cons_of_mem _ (h.issued u q' hu)
  · exact (h.shown x ((exec_shows hx hs).resolve_right id)).extend (extends_update hv)
  · exact h.fresh t (((exec_entrusts hx).2 t ht).resolve_right nofun)

theorem Attested.launch {p : Proc} (h : Attested T s) (hl : Fog05.launch s = some (p, s')) :
    Attested T s' ∧ ∃ t ∈ s.tasks, p = .task t := by
  obtain ⟨t, ts, hts, rfl, rfl⟩ := launch_eq_some hl
  have hmem : ∀ t' ∈ ts, t' ∈ s.tasks := fun t' ht => hts ▸ List.mem_cons_of_mem _ ht
  refine ⟨⟨h.issued, fun x hs => h.shown x ?_, fun t' ht => h.fresh t' (hmem t' ht)⟩, t,
    hts ▸ List.mem_cons_self, rfl⟩
  cases hs with
  | stored hr => exact .stored hr
  | copy hr => exact .copy hr
  | pending hr => exact .pending hr
  | kept hr => exact .kept hr
  | entity hi hd => exact .entity hi hd
  | task ht hd => exact .task (hmem _ ht) hd

theorem Attested.move {n : Uuid} {st : Store} (h : Attested T s) (hm : s.toStore.monitor n = some st) :
    Attested T { s with toStore := st } := by
  have hmoves := monitor_moves hm
  refine ⟨h.issued, fun x hs => h.shown x ?_, h.fresh⟩
  cases hs with
  | stored hr => exact (hmoves.stored _ hr).elim .stored .pending
  | copy hr => exact .copy (hmoves.copies _ ▸ hr)
  | pending hr => exact .pending (hmoves.pending _ _ hr)
  | entity hi hd => exact .entity (hmoves.entities ▸ hi) hd
  | kept hr => exact .kept hr
  | task ht hd => exact .task ht hd

/-- Clients call agents; tasks are launched by the agents themselves. -/
def FromClients : Label Proc Choice Uuid → Prop
  | .start (.agent _ _) => True
  | .start _ => False
  | _ => True

instance : DecidablePred FromClients
  | .start (.agent _ _) | .launch | .fire _ _ | .env _ => .isTrue trivial
  | .start (.poll _ _) | .start (.task _) => .isFalse id

theorem provenance_reports {p : Proc} (hp : p.Called) :
    (body z p).Follows Provenance p.Reports q :=
  (provenance_sound q p hp).mono fun _ _ h a r ho hr => (h.2 a r ho hr).1

theorem task_reports {t : Task}
    (ht : ∀ n svc inst d, t = .schedule n svc inst d → inst.fdus = []) :
    (body z (.task t)).Follows Provenance (Proc.task t).Reports t.ledger :=
  (task_provenance ht).mono fun _ _ _ a r _ hr => by cases hr

theorem Vouched.of_own {q : Ledger} (hq : q.own = []) (hk : ∀ x, q.knows x → x.Holds T) :
    Vouched T q :=
  ⟨hk, hq ▸ List.nodup_nil, fun v hv => by rw [hq] at hv; cases hv⟩

theorem Accounted.step {w w' : Calls} {l : Label Proc Choice Uuid} (h : Accounted T w)
    (hl : FromClients l) (hs : (machine z).Step l w w') :
    ∃ T', T'.Extends T ∧ Accounted T' w' := by
  by_cases hnew : ∃ i ch, l = .fire i ch ∧ w.upcoming i = some .newUuid
  · obtain ⟨i, ch, rfl, hc⟩ := hnew
    obtain ⟨p, k, v, s, hi, hx, rfl⟩ := hs.of_upcoming hc
    obtain ⟨q, hq, hv⟩ := h.calls.threads _ (List.mem_of_getElem? hi)
    have hnone : T v = none := by
      cases hT : T v with
      | none => rfl
      | some q' => exact absurd (h.state.issued v q' hT) (exec_newUuid hx).1
    refine ⟨Function.update T v (some q), extends_update hnone, h.state.newUuid hx hnone, ?_⟩
    exact h.calls.act (hq.2 v _ ⟨rfl, trivial⟩) (hv.after_newUuid hnone)
      fun _ _ h => h.extend (extends_update hnone)
  · refine ⟨T, .refl T, ?_, ?_⟩
    · cases hs with
      | @act _ i ch p c k r s hi hx =>
        obtain ⟨q, hq, hv⟩ := h.calls.threads _ (List.mem_of_getElem? hi)
        exact h.state.exec hv hq.1 hx
      | env hm =>
        obtain ⟨st, hst, rfl⟩ := Option.map_eq_some_iff.1 hm
        exact h.state.move hst
      | launch hl => exact (h.state.launch hl).1
      | _ => exact h.state
    · refine hs.follows provenance_sound h.calls (fun p hp => ?_) (fun p s _ hlaunch => ?_)
        (fun i ch p q c r s hl hc hv _ hx => ?_) fun _ _ h => h
      · subst hp
        cases p with
        | agent svc r =>
          exact ⟨⟨none, none, none, none, none, [], fun _ => False⟩, provenance_reports trivial,
            .of_own rfl fun _ => False.elim⟩
        | _ => exact hl.elim
      · obtain ⟨-, t, ht, rfl⟩ := h.state.launch hlaunch
        exact ⟨t.ledger, task_reports (h.state.fresh t ht),
          .of_own rfl fun x hx => h.state.shown x (.task ht hx)⟩
      · subst hl
        have hcn : c ≠ .newUuid := by
          rintro rfl
          exact hnew ⟨i, ch, rfl, hc⟩
        exact ⟨_, ⟨rfl, exec_honest hx⟩, hv.after h.state.shown hx hcn⟩

/-- A run only adds origins. -/
theorem accounted_of_reach {w w' : Calls} (h : Accounted T w)
    (hreach : (machine z).Reach (fun l _ => FromClients l) w w') :
    ∃ T', T'.Extends T ∧ Accounted T' w' := by
  apply hreach.inv (fun w' => ∃ T', Origins.Extends T' T ∧ Accounted T' w') ⟨T, .refl T, h⟩
  rintro l w w' ⟨T₁, hT, hw⟩ hl hs
  obtain ⟨T₂, hT', hw'⟩ := hw.step hl hs
  exact ⟨T₂, hT.trans hT', hw'⟩

theorem boot_accounted (sites : List Site) (fdus : List FDUDescriptor)
    (entities : List EntityDescriptor) :
    Accounted (fun _ => none) (Pool.idle (boot sites fdus entities)) := by
  refine ⟨⟨nofun, fun x hs => ?_, fun t ht => absurd ht List.not_mem_nil⟩, Pool.follows_idle _⟩
  cases hs with
  | stored h => exact absurd h (Table.not_mem_empty _)
  | copy h => exact absurd h (Table.not_mem_empty _)
  | pending h => exact absurd h List.not_mem_nil
  | kept h => exact absurd h (Table.not_mem_empty _)
  | entity h _ => exact absurd h (Table.not_mem_empty _)
  | task h _ => exact absurd h List.not_mem_nil

end Steps

/-- What a record or a new uuid brings to the call that is answered with it. -/
def Cmd.Brings (x : Datum) : (c : Cmd) → c.Ans → Prop
  | .newUuid, v => (∃ f n, x = .fdu v f n) ∨ ∃ e, x = .entity v e
  | c, r => c.Tells x r

/-- What a call brings to its caller; a poll is answered with the instance it polls. -/
def Proc.Brings (x : Datum) (p : Proc) (o : Except Exn p.Ret) : Prop :=
  ∃ a r, o = .ok a ∧ p.record a = some r ∧ x = r.datum

def Proc.Honest (p : Proc) (o : Except Exn p.Ret) : Prop :=
  ∀ u awaited a r, p = .poll u awaited → o = .ok a → p.record a = some r → r.uuid = u

/-- The rest of a call stores, hands on or returns a record that says this, without
having been told so before. -/
inductive InHands (x : Datum) (p₀ : Proc) : M p₀.Ret → Prop
  | given {c k} : c.Gives x → InHands x p₀ (.act c k)
  | later {c k r} : c.Honest r → ¬ c.Brings x r → InHands x p₀ (k r) → InHands x p₀ (.act c k)
  | after {p k o} : p.Honest o → ¬ p.Brings x o → InHands x p₀ (k o) → InHands x p₀ (.call p k)
  | result {a} : p₀.Brings x (.ok a) → InHands x p₀ (.ret a)

/-- A record says this, wherever it is: in a store, in a queue, with a plugin or a task,
or in the hands of a call, also of one that has returned it. -/
inductive Present (x : Datum) (w : Calls) : Prop
  | shown : w.state.Shows x → Present x w
  | held {t} : t ∈ w.threads → InHands x t.proc t.prog → Present x w
  | returned {y} : y ∈ w.done → y.1.Brings x y.2 → Present x w

section Hands

variable {x : Datum} {q : Ledger} {p₀ : Proc} {b : M p₀.Ret} {T : Origins} {w : Calls}

theorem Cmd.Brings.of_learns {c : Cmd} {r : c.Ans} (h : q.Learns x c r) (hx : ∀ u p, x ≠ .plugin u p) :
    c.Brings x r := by
  unfold Ledger.Learns at h
  split at h
  · rcases learns_newUuid h with h | h | ⟨p, rfl⟩
    · exact Or.inl h
    · exact Or.inr h
    · exact absurd rfl (hx _ p)
  · obtain ⟨d, f, u, -, -, -, -, rfl⟩ := h
    exact absurd rfl (hx u _)
  · unfold Cmd.Brings
    split
    · exact h.elim
    · exact h

theorem exists_back (q : Ledger) {p : Proc} (hp : p.Called) {o : Except Exn p.Ret} (ho : p.Honest o) :
    ∃ q', Provenance.back q p o q' ∧ ∀ x, q'.knows x → q.knows x ∨ p.Brings x o := by
  by_cases h : ∃ a r, o = .ok a ∧ p.record a = some r
  · obtain ⟨a, r, rfl, hr⟩ := h
    refine ⟨{ q with own := q.own ++ [r.uuid], knows := fun x => q.knows x ∨ p.Brings x (.ok a) },
      ⟨⟨rfl, List.prefix_append _ _, fun _ => Or.inl⟩, fun b i hb hi => ?_⟩, fun _ => id⟩
    cases hb
    obtain rfl := Option.some.inj (hr.symm.trans hi)
    refine ⟨Or.inr ⟨a, r, rfl, hr, rfl⟩, ?_⟩
    unfold Proc.Yields
    split
    · exact ho _ _ a r rfl rfl hr
    · exact List.Sublist.refl _
    · exact List.Sublist.refl _
    · trivial
  · exact ⟨q, ⟨.refl q, fun a r ha hr => absurd ⟨a, r, ha, hr⟩ h⟩, fun _ => Or.inl⟩

theorem InHands.known (h : InHands x p₀ b) (hb : b.Follows Provenance p₀.Reports q)
    (hx : ∀ u p, x ≠ .plugin u p) (hx' : ∀ u l, x ≠ .members u l) : q.knows x := by
  have hknown : ∀ q : Ledger, q.Has x → q.knows x := by
    intro q hq
    cases x with
    | members u l => exact absurd rfl (hx' u l)
    | _ => exact hq
  induction h generalizing q with
  | given hg => exact hknown q (hb.1.1 x hg)
  | @later c k r hhonest hbrings _ ih =>
    rcases ih (hb.2 r _ ⟨rfl, hhonest⟩) with hk | hl
    · exact hk
    · exact absurd (Cmd.Brings.of_learns hl hx) hbrings
  | @after p k o hhonest hbrings _ ih =>
    obtain ⟨q', hback, hq'⟩ := exists_back q hb.1 hhonest
    exact (hq' x (ih (hb.2 o q' hback))).resolve_right hbrings
  | result hbrings =>
    obtain ⟨a, r, ha, hr, rfl⟩ := hbrings
    exact hb a r ha hr

theorem Accounted.present (h : Accounted T w) (hp : Present x w) (hx : ∀ u p, x ≠ .plugin u p)
    (hx' : ∀ u l, x ≠ .members u l) : x.Holds T := by
  cases hp with
  | shown hs => exact h.state.shown x hs
  | held ht hh =>
    obtain ⟨q, hq, hv⟩ := h.calls.threads _ ht
    exact hv.knows x (hh.known hq hx hx')
  | returned hy hb =>
    obtain ⟨q, hq, hv⟩ := h.calls.done _ hy
    obtain ⟨a, r, ha, hr, rfl⟩ := hb
    exact hv.knows _ (hq a r ha hr)

end Hands

theorem single_select_ne {α κ : Type} {key : α → κ} {q : κ → Prop} [DecidablePred q] {t : Table key}
    (h : ∀ a ∈ t, ∀ b ∈ t, q (key a) → q (key b) → key a = key b) :
    single (t.select q) ≠ .error .tooMuchError := by
  intro hmuch
  by_cases hne : ∃ a ∈ t, q (key a)
  · obtain ⟨a, ha, hqa⟩ := hne
    have hok := (single_select_eq_ok fun b hb hqb => Table.eq_of_key hb ha (h b hb a ha hqb hqa)).2
      ⟨ha, hqa⟩
    cases hok.symm.trans hmuch
  · have hnil : t.select q = [] := List.eq_nil_iff_forall_not_mem.2 fun a ha =>
      hne ⟨a, Table.mem_select.1 ha⟩
    rw [hnil] at hmuch
    cases hmuch

section Runs

variable {z : Session} {sites : List Site} {fdus : List FDUDescriptor}
  {entities : List EntityDescriptor} {w w' : Calls}

/-- In every run, two records of an FDU instance agree on its FDU and its node, and two
records of an entity instance on its entity, wherever they are and also at different
times. So no lookup of an instance finds more than one record. -/
theorem identities_agree
    (hreach : (machine z).Reach (fun l _ => FromClients l) (Pool.idle (boot sites fdus entities)) w)
    (hlater : (machine z).Reach (fun l _ => FromClients l) w w') :
    (∀ r r' : FDURecord, Present r.datum w → Present r'.datum w' → r.uuid = r'.uuid →
      r.fduUuid = r'.fduUuid ∧ r.node = r'.node) ∧
    (∀ i i' : EntityRecord, Present (.entity i.uuid i.id) w → Present (.entity i'.uuid i'.id) w' →
      i.uuid = i'.uuid → i.id = i'.id) ∧
    ∀ u, w.state.global.getInstance u ≠ .error .tooMuchError ∧
      (∀ n, (w.state.node n).getInstance u ≠ .error .tooMuchError) ∧
      w.state.global.getEntityInstance u ≠ .error .tooMuchError := by
  obtain ⟨T, -, hw⟩ := accounted_of_reach (boot_accounted sites fdus entities) hreach
  obtain ⟨T', hT, hw'⟩ := accounted_of_reach hw hlater
  refine ⟨fun r r' hr hr' hu => ?_, fun i i' hi hi' hu => ?_, fun u => ⟨?_, fun n => ?_, ?_⟩⟩
  · have hr := (hw.present hr nofun nofun).extend hT
    have hr' := hw'.present hr' nofun nofun
    exact fdu_unique hr (hu ▸ hr')
  · have hi := (hw.present hi nofun nofun).extend hT
    have hi' := hw'.present hi' nofun nofun
    exact entity_unique hi (hu ▸ hi')
  · exact single_select_ne fun a ha b hb hau hbu =>
      same_path (hw.state.shown _ (.stored ha)) (hw.state.shown _ (.stored hb)) (hau.trans hbu.symm)
  · exact single_select_ne fun a ha b hb hau hbu =>
      same_path (hw.state.shown _ (.copy ha)) (hw.state.shown _ (.copy hb)) (hau.trans hbu.symm)
  · apply single_select_ne
    intro a ha b hb hau hbu
    have hu : a.uuid = b.uuid := hau.trans hbu.symm
    have hid : ∀ i ∈ w.state.global.entityInstances, (Datum.entity i.uuid i.id).Holds T := fun i hi =>
      hw.state.shown _ (.entity hi List.mem_cons_self)
    exact Prod.ext (entity_unique (hid a ha) (hu ▸ hid b hb)) hu

def playClients (sites : List Site) : List (Turn Proc Uuid) → Calls → Option Calls :=
  (machine (Site.session sites)).script resolve fun l _ => decide (FromClients l)

theorem reach_of_playClients {ts : List (Turn Proc Uuid)} (h : playClients sites ts w = some w') :
    (machine (Site.session sites)).Reach (fun l _ => FromClients l) w w' :=
  Machine.reach_of_script (fun _ _ => of_decide_eq_true) h

/-- The instance in the global store, and the record that `configure_fdu` puts. -/
theorem identities_agree_configured : ∃ w w' r r',
    (machine (Site.session oneSite)).Reach (fun l _ => FromClients l)
      (Pool.idle (boot oneSite [.plain 50] [])) w ∧
    (machine (Site.session oneSite)).Reach (fun l _ => FromClients l) w w' ∧
    r ∈ w.state.global.instances ∧ r' ∈ (w'.state.node 0).changes ∧ r.uuid = r'.uuid ∧
    r.fduUuid = r'.fduUuid ∧ r.node = r'.node := by
  have hrun : ((playClients oneSite ([.start (.agent 100 (.defineFdu 50))] ++ fires 0 8 ++ [.env 0])
      (Pool.idle (boot oneSite [.plain 50] []))).bind fun w => (playClients oneSite
        (fires 0 6 ++ [.start (.agent 100 (.configureFdu 0))] ++ fires 0 13) w).map fun w' =>
          (w.state.global.instances.rows.any fun r => r.uuid = 0) &&
            (w'.state.node 0).changes.any fun r => r.uuid = 0) = some true := by decide +kernel
  obtain ⟨w, hw, hrun⟩ := Option.bind_eq_some_iff.1 hrun
  obtain ⟨w', hw', hend⟩ := Option.map_eq_some_iff.1 hrun
  obtain ⟨hr, hr'⟩ := Bool.and_eq_true_iff.1 hend
  obtain ⟨r, hr, hu⟩ := List.any_eq_true.1 hr
  obtain ⟨r', hr', hu'⟩ := List.any_eq_true.1 hr'
  have hsame : r.uuid = r'.uuid := (of_decide_eq_true hu).trans (of_decide_eq_true hu').symm
  have hreach := reach_of_playClients hw
  have hlater := reach_of_playClients hw'
  exact ⟨w, w', r, r', hreach, hlater, hr, hr', hsame, (identities_agree hreach hlater).1 r r'
    (.shown (.stored hr)) (.shown (.pending hr')) hsame⟩

/-- In every run, the records of entity instances list every FDU instance once, and
those of different entity instances have none in common. -/
theorem members_apart
    (hreach : (machine z).Reach (fun l _ => FromClients l) (Pool.idle (boot sites fdus entities)) w) :
    ∀ i ∈ w.state.global.entityInstances, i.fdus.Nodup ∧
      ∀ j ∈ w.state.global.entityInstances, i.uuid ≠ j.uuid → i.fdus.Disjoint j.fdus := by
  obtain ⟨T, -, hw⟩ := accounted_of_reach (boot_accounted sites fdus entities) hreach
  have hholds : ∀ i ∈ w.state.global.entityInstances, (Datum.members i.uuid i.fdus).Holds T :=
    fun i hi => hw.state.shown _ (.entity hi (List.mem_cons_of_mem _ List.mem_cons_self))
  exact fun i hi => ⟨(hholds i hi).1, fun j hj => members_disjoint (hholds i hi) (hholds j hj)⟩

/-- Two entity instances of one FDU instance each, scheduled at the same time. -/
theorem members_apart_scheduled : ∃ w i j,
    (machine (Site.session oneSite)).Reach (fun l _ => FromClients l) (Pool.idle
      (boot oneSite [] [.plain 60 [.plain 50], .plain 61 [.plain 51]])) w ∧
    i ∈ w.state.global.entityInstances ∧ j ∈ w.state.global.entityInstances ∧ i.uuid ≠ j.uuid ∧
    i.fdus ≠ [] ∧ j.fdus ≠ [] ∧ i.fdus.Disjoint j.fdus := by
  have hrun : (playClients oneSite ([.start (.agent 100 (.scheduleEntity 60)),
      .start (.agent 100 (.scheduleEntity 61))] ++ fires 0 5 ++ fires 0 5 ++ [.launch, .launch] ++
        fires 0 24 ++ fires 1 24 ++ [.env 0, .env 0] ++ fires 0 21 ++ fires 1 21 ++ [.env 0, .env 0] ++
        fires 0 17 ++ fires 1 17 ++ [.env 0, .env 0] ++ fires 0 5 ++ fires 1 5)
      (Pool.idle (boot oneSite [] [.plain 60 [.plain 50], .plain 61 [.plain 51]]))).any
      (fun w => w.state.global.entityInstances.rows.any fun i =>
        w.state.global.entityInstances.rows.any fun j =>
          i.uuid ≠ j.uuid ∧ i.fdus ≠ [] ∧ j.fdus ≠ []) = true := by decide +kernel
  obtain ⟨w, hw, hend⟩ := (Option.any_eq_true _ _).1 hrun
  obtain ⟨i, hi, hend⟩ := List.any_eq_true.1 hend
  obtain ⟨j, hj, hend⟩ := List.any_eq_true.1 hend
  obtain ⟨hu, hi', hj'⟩ := of_decide_eq_true hend
  have hreach := reach_of_playClients hw
  exact ⟨w, i, j, hreach, hi, hj, hu, hi', hj', (members_apart hreach i hi).2 j hj hu⟩

end Runs

end Fog05
