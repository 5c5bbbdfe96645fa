import Fog05.Model.Host
import Fog05.Proofs.Network
import Fog05.Proofs.Steps

/-! Triples for the commands of the hypervisor plugin on its host: what each does to the
instances of its node, to its own map and to what the networking plugin keeps. -/

namespace Fog05

open Conc M

/-- A networking plugin that answers every call. -/
def NetworkingPlugin.Answering (N : NetworkingPlugin) : Prop := ∀ q m, ∃ o m', N.serve q m o m'

theorem DummyNetwork.plugin_answering {silent : Prop} : (plugin silent).Answering := by
  intro q m
  cases h : DummyNetwork.serve Env.inOrder q m with
  | ok x m' =>
    exact ⟨.ok x, m', Env.inOrder, Or.inl ⟨0, rfl⟩, by rw [h]; exact ⟨rfl, rfl⟩⟩
  | error err m' =>
    exact ⟨.error err, m', Env.inOrder, Or.inl ⟨0, rfl⟩, by rw [h]; exact ⟨rfl, rfl⟩⟩

namespace DummyHypervisor

variable {z : Session} {n p : Uuid} {N : NetworkingPlugin} {fails : Access → Prop} {σ : Type}

/-- What a call of the plugin has to know of the state. -/
structure Seen (σ : Type) where
  instances : Table FDURecord.path
  fdus : Table FDURecord.uuid
  locked : Bool
  catalog : Table FDUDescriptor.uuid
  issued : List Uuid
  net : σ

namespace Seen

def getInstance (w : Seen σ) (instanceUuid : Uuid) : Except FError FDURecord :=
  single (w.instances.select fun path => path.2 = instanceUuid)

/-- A record is written to both places. -/
def store (w : Seen σ) (inst : FDURecord) : Seen σ :=
  { w with instances := w.instances.put inst, fdus := w.fdus.put inst }

structure Of (n p : Uuid) (w : Seen σ) (s : Fos × σ) : Prop where
  instances : (s.1.node n).instances = w.instances
  plugin : s.1.plugin p = ⟨w.fdus, w.locked⟩
  catalog : s.1.global.fdus = w.catalog
  issued : w.issued ⊆ s.1.issued
  net : s.2 = w.net

theorem Of.elsewhere {w : Seen N.State} {s s' : Fos × N.State} (h : w.Of n p s)
    (he : (host z n p N fails).env s s') : w.Of n p s' where
  instances := he.1.instances.trans h.instances
  plugin := he.1.plugin.trans h.plugin
  catalog := he.1.fdus.trans h.catalog
  issued := List.Subset.trans h.issued he.1.issued
  net := he.2.trans h.net

theorem Of.getInstance {w : Seen σ} {s : Fos × σ} (h : w.Of n p s) (u : Uuid) :
    (s.1.node n).getInstance u = w.getInstance u := by
  simp only [Node.getInstance, Seen.getInstance, h.instances]

end Seen

variable (z n p N fails) in
def seen : View (host z n p N fails) (Seen N.State) where
  At := Seen.Of n p
  steady _ _ _ h he := h.elsewhere he

variable {t : Prop} {α β : Type} {w : Seen N.State} {Q : Except Exn β → Seen N.State → Prop}

theorem triple_ask {a : Access} {k : Except Exn a.Ret → M β}
    (hgo : ∀ s, w.Of n p s → ∃ w', Seen.Of n p w' ((a.run s.1).2, s.2) ∧
      (seen z n p N fails).Triple t (k ((a.run s.1).1.mapError .err)) w' Q)
    (hfault : fails a → ∀ e, (seen z n p N fails).Triple t (k (.error (.err e))) w Q) :
    (seen z n p N fails).Triple t ((ask a).bindE k) w Q := by
  apply View.triple_act
  · intro _ s _
    exact ⟨_, ((a.run s.1).2, s.2), .go, fun _ _ _ h => (by cases h), rfl, rfl⟩
  · rintro s r ⟨s', m⟩ hw ⟨ch, hfails, hx, hm⟩
    obtain rfl : m = s.2 := hm
    rcases exec_access hx with ⟨-, hr⟩ | ⟨e, rfl, rfl, hs⟩
    · obtain ⟨w', hw', hk⟩ := hgo s hw
      rw [hr] at hw' hk
      refine ⟨w', hw', ?_⟩
      simp only [Prog.bindE_final]
      exact hk
    · obtain rfl : s' = s.1 := hs
      exact ⟨w, hw, hfault (hfails a e rfl rfl) e⟩

theorem triple_issue {c : Cmd} {f : c.Ans → M β} (hc : ∀ a, c ≠ .access a)
    (hn : ∀ m q, c ≠ .net m q)
    (htotal : t → ∀ s, w.Of n p s → ∃ ch r s', exec c ch s.1 = some (r, s'))
    (h : ∀ s ch r s', w.Of n p s → exec c ch s.1 = some (r, s') →
      ∃ w', Seen.Of n p w' (s', s.2) ∧ (seen z n p N fails).Triple t (f r) w' Q) :
    (seen z n p N fails).Triple t (issue c >>= f) w Q := by
  apply View.triple_act
  · intro ht s hw
    obtain ⟨ch, r, s', hx⟩ := htotal ht s hw
    refine ⟨r, (s', s.2), ?_⟩
    cases c with
    | access a => exact absurd rfl (hc a)
    | net m q => exact absurd rfl (hn m q)
    | _ => exact ⟨ch, fun _ _ h => (by cases h), hx, rfl⟩
  · rintro s r ⟨s', m⟩ hw hstep
    cases c with
    | access a => exact absurd rfl (hc a)
    | net m q => exact absurd rfl (hn m q)
    | _ =>
      obtain ⟨ch, -, hx, hm⟩ := hstep
      obtain rfl : m = s.2 := hm
      exact h s ch r s' hw hx

/-! ### Remote calls -/

/-- What comes of an answer `o`: it arrives, or an access has failed. -/
def Arrives (fails : Access → Prop) (o : Except FError α) (o' : Except Exn α) : Prop :=
  o' = o.mapError .err ∨ (∃ a, fails a) ∧ ∃ e, o' = .error (.err e)

theorem Arrives.ne_panic {o : Except FError α} {o' : Except Exn α} (h : Arrives fails o o') :
    o' ≠ .error .panic := by
  rintro rfl
  rcases h with h | ⟨-, e, h⟩
  · cases o <;> cases h
  · cases h

theorem received_mapError (o : Except FError α) : received z (o.mapError .err) = o := by
  cases o <;> rfl

theorem triple_read {a : Access} {o : Except FError a.Ret}
    (hrun : ∀ s : Fos × N.State, w.Of n p s → a.run s.1 = (o, s.1)) :
    (seen z n p N fails).Triple t (ask a) w fun o' w' => w' = w ∧ Arrives fails o o' := by
  rw [← Prog.bindE_final_right (ask a)]
  apply triple_ask
  · intro s hw
    rw [hrun s hw]
    exact ⟨w, hw, View.triple_final ⟨rfl, Or.inl rfl⟩⟩
  · intro hfails e
    exact View.triple_final ⟨rfl, Or.inr ⟨⟨a, hfails⟩, e, rfl⟩⟩

theorem triple_remote {q : Rpc} {b : M q.Ret} {o : Except FError q.Ret}
    (hb : (seen z n p N fails).Triple t b w fun o' w' => w' = w ∧ Arrives fails o o') :
    (seen z n p N fails).Triple t (remote z q b) w fun o' w' => w' = w ∧ Arrives fails o o' := by
  have hreply : ∀ o' : Except FError q.Ret,
      (o' = o ∨ (∃ a, fails a) ∧ ∃ e, o' = .error e) →
      (seen z n p N fails).Triple t (ask (.reply q o')) w fun o' w' =>
        w' = w ∧ Arrives fails o o' := by
    intro o' ho'
    rw [← Prog.bindE_final_right (ask _)]
    apply triple_ask
    · intro s hw
      refine ⟨w, ⟨hw.instances, hw.plugin, hw.catalog, hw.issued, hw.net⟩, ?_⟩
      refine View.triple_final ⟨rfl, ?_⟩
      rcases ho' with rfl | ⟨hfails, e, rfl⟩
      · exact Or.inl rfl
      · exact Or.inr ⟨hfails, e, rfl⟩
    · intro hfails e
      exact View.triple_final ⟨rfl, Or.inr ⟨⟨_, hfails⟩, e, rfl⟩⟩
  apply triple_ask
  · intro s hw
    refine ⟨w, hw, ?_⟩
    change (seen z n p N fails).Triple t (b.attempt >>= fun o => ask (.reply q (received z o))) w _
    rw [Prog.attempt_bind]
    apply View.triple_bindE hb
    rintro o' w' ⟨rfl, ho'⟩
    apply hreply
    rcases ho' with rfl | ⟨hfails, e, rfl⟩
    · exact Or.inl (received_mapError o)
    · exact Or.inr ⟨hfails, e, rfl⟩
  · intro hfails e
    exact View.triple_err ⟨rfl, Or.inr ⟨⟨_, hfails⟩, e, rfl⟩⟩

theorem triple_arrives {b : M α} {o : Except FError α} {f : α → M β}
    (hb : (seen z n p N fails).Triple t b w fun o' w' => w' = w ∧ Arrives fails o o')
    (hok : ∀ x, o = .ok x → (seen z n p N fails).Triple t (f x) w Q)
    (herr : ∀ e, (∃ a, fails a) ∨ o = .error e → Q (.error (.err e)) w) :
    (seen z n p N fails).Triple t (b >>= f) w Q := by
  apply View.triple_bind hb
  · rintro x w' ⟨rfl, hx⟩
    rcases hx with hx | ⟨-, e, hx⟩
    · cases o with
      | ok y => cases hx; exact hok x rfl
      | error e => cases hx
    · cases hx
  · rintro e w' ⟨rfl, he⟩
    rcases he with he | ⟨hfails, e', he⟩
    · cases o with
      | ok y => cases he
      | error e' => cases he; exact herr e' (Or.inr rfl)
    · cases he
      exact herr e' (Or.inl hfails)

theorem triple_getNodeUuid {f : Uuid → M β} (hok : (seen z n p N fails).Triple t (f n) w Q)
    (herr : ∀ e, (∃ a, fails a) → Q (.error (.err e)) w) :
    (seen z n p N fails).Triple t (getNodeUuid z n >>= f) w Q := by
  apply triple_arrives (o := .ok n) (triple_remote (View.triple_pure ⟨rfl, Or.inl rfl⟩))
  · intro x hx
    cases hx
    exact hok
  · rintro e (hfails | he)
    · exact herr e hfails
    · cases he

theorem triple_fduInfo {fduUuid : Uuid} {f : FDUDescriptor → M β}
    (hok : ∀ d, single (w.catalog.select (· = some fduUuid)) = .ok d →
      (seen z n p N fails).Triple t (f d) w Q)
    (herr : ∀ e, (∃ a, fails a) ∨ single (w.catalog.select (· = some fduUuid)) = .error e →
      Q (.error (.err e)) w) :
    (seen z n p N fails).Triple t (fduInfo z n fduUuid >>= f) w Q := by
  refine triple_arrives (triple_remote (triple_read fun s hw => ?_)) hok herr
  rw [← hw.catalog]
  rfl

/-! ### The plugin's own commands -/

section Commands

variable (hlocal : ∀ a, AtLocalStore a → ¬ fails a) {u : Uuid}

theorem triple_localGetInstance {f : FDURecord → M β}
    (hok : ∀ inst, w.getInstance u = .ok inst → (seen z n p N fails).Triple t (f inst) w Q)
    (herr : ∀ e, fails (.localGetInstance n u) ∨ w.getInstance u = .error e →
      Q (.error (.err e)) w) :
    (seen z n p N fails).Triple t (ask (.localGetInstance n u) >>= f) w Q := by
  apply triple_ask
  · intro s hw
    refine ⟨w, hw, ?_⟩
    change (seen z n p N fails).Triple t
      (Prog.onOk f (((s.1.node n).getInstance u).mapError .err)) w Q
    rw [hw.getInstance]
    cases h : w.getInstance u with
    | ok inst => exact hok inst h
    | error e => exact View.triple_err (herr e (Or.inr h))
  · exact fun hfails e => View.triple_err (herr e (Or.inl hfails))

theorem Seen.Of.localPut {w : Seen σ} {s : Fos × σ} (hw : w.Of n p s) (inst : FDURecord) :
    Seen.Of n p { w with instances := w.instances.put inst }
      ({ s.1 with toStore := s.1.toStore.localPut n inst }, s.2) where
  instances := by simp [Store.localPut, Store.setNode, hw.instances]
  plugin := hw.plugin
  catalog := hw.catalog
  issued := hw.issued
  net := hw.net

theorem Seen.Of.localDelete {w : Seen σ} {s : Fos × σ} (hw : w.Of n p s) (f v : Uuid) :
    Seen.Of n p { w with instances := w.instances.erase (f, v) }
      ({ s.1 with toStore := s.1.toStore.localDelete n f v }, s.2) where
  instances := by simp [Store.localDelete, Store.setNode, hw.instances]
  plugin := hw.plugin
  catalog := hw.catalog
  issued := hw.issued
  net := hw.net

theorem Seen.Of.setFdus {w : Seen σ} {s : Fos × σ} (hw : w.Of n p s) {fdus : Table FDURecord.uuid} :
    Seen.Of n p { w with fdus } (s.1.setFdus p fdus, s.2) where
  instances := hw.instances
  plugin := by simp [Fos.setFdus, hw.plugin]
  catalog := hw.catalog
  issued := hw.issued
  net := hw.net

theorem Seen.Of.setLock {w : Seen σ} {s : Fos × σ} (hw : w.Of n p s) {locked : Bool} :
    Seen.Of n p { w with locked } (s.1.setLock p locked, s.2) where
  instances := hw.instances
  plugin := by simp [Fos.setLock, hw.plugin]
  catalog := hw.catalog
  issued := hw.issued
  net := hw.net

theorem triple_store {inst : FDURecord} (hput : ¬ fails (.localPutInstance n inst)) :
    (seen z n p N fails).Triple t (store n p inst) w
      fun o w' => o = .ok () ∧ w' = w.store inst := by
  apply triple_ask
  · intro s hw
    refine ⟨{ w with instances := w.instances.put inst }, hw.localPut inst, ?_⟩
    rw [← Prog.bindE_final_right (Prog.onOk _ _)]
    apply triple_issue (f := fun _ => Prog.final (.ok ())) (by simp) (by simp)
    · exact fun _ s _ => ⟨.go, _, _, rfl⟩
    · intro s ch r s' hw' hx
      rw [exec_insert hx, hw'.plugin]
      exact ⟨_, hw'.setFdus, View.triple_final ⟨rfl, rfl⟩⟩
  · exact fun hfails => absurd hfails hput

include hlocal in
theorem triple_removeInstance {inst : FDURecord} (hinst : w.getInstance u = .ok inst) :
    (seen z n p N fails).Triple t (removeInstance n u) w fun o w' =>
      o = .ok () ∧ w' = { w with instances := w.instances.erase inst.path } := by
  apply triple_localGetInstance
  · intro inst' hinst'
    rw [hinst] at hinst'
    cases hinst'
    rw [← Prog.bindE_final_right (ask _)]
    apply triple_ask
    · intro s hw
      exact ⟨_, hw.localDelete _ _, View.triple_final ⟨rfl, rfl⟩⟩
    · intro hfails
      exact absurd hfails (hlocal _ trivial)
  · rintro e (hfails | he)
    · exact absurd hfails (hlocal _ trivial)
    · rw [hinst] at he
      cases he

theorem triple_remove {f : Unit → M β}
    (h : (seen z n p N fails).Triple t (f ()) { w with fdus := w.fdus.erase u } Q) :
    (seen z n p N fails).Triple t (issue (.remove p u) >>= f) w Q := by
  apply triple_issue (by simp) (by simp)
  · exact fun _ s _ => ⟨.go, _, _, rfl⟩
  · intro s ch r s' hw hx
    rw [exec_remove hx, hw.plugin]
    exact ⟨_, hw.setFdus, h⟩

theorem triple_newUuid {f : Uuid → M β} (h : ∀ v, v ∉ w.issued →
      (seen z n p N fails).Triple t (f v) { w with issued := v :: w.issued } Q) :
    (seen z n p N fails).Triple t (issue .newUuid >>= f) w Q := by
  apply triple_issue (by simp) (by simp)
  · intro _ s _
    obtain ⟨v, hv⟩ := Infinite.exists_notMem_finset s.1.issued.toFinset
    have hnew : v ∉ s.1.issued := fun h => hv (List.mem_toFinset.2 h)
    exact ⟨.uuid v, v, _, if_neg hnew⟩
  · intro s ch v s' hw hx
    obtain ⟨hv, rfl⟩ := exec_newUuid hx
    refine ⟨{ w with issued := v :: w.issued }, ?_, h v fun hv' => hv (hw.issued hv')⟩
    exact ⟨hw.instances, hw.plugin, hw.catalog, List.cons_subset_cons v hw.issued, hw.net⟩

theorem triple_withLock {b : M β} (hfree : w.locked = false)
    (hb : (seen z n p N fails).Triple t b { w with locked := true } fun o w' =>
      Q o { w' with locked := false }) :
    (seen z n p N fails).Triple t (withLock p b) w Q := by
  apply triple_issue (by simp) (by simp)
  · intro _ s hw
    exact ⟨.go, (), _, if_neg (by simp [hw.plugin, hfree])⟩
  · intro s ch r s' hw hx
    obtain ⟨-, rfl⟩ := exec_lock hx
    refine ⟨_, hw.setLock, ?_⟩
    rw [Prog.attempt_bind]
    apply View.triple_bindE hb
    intro o w' ho
    apply triple_issue (by simp) (by simp)
    · exact fun _ s _ => ⟨.go, _, _, rfl⟩
    · intro s ch r s' hw hx
      rw [exec_unlock hx]
      exact ⟨_, hw.setLock, View.triple_final ho⟩

theorem triple_callNet {q : NetRequest} {f : NetObject → M β}
    (htotal : t → ∃ o m', N.serve q w.net o m')
    (hok : ∀ x m', N.serve q w.net (.ok x) m' →
      (seen z n p N fails).Triple t (f x) { w with net := m' } Q)
    (herr : ∀ e m', N.serve q w.net (.error e) m' → Q (.error (.err e)) { w with net := m' }) :
    (seen z n p N fails).Triple t (callNet n q >>= f) w Q := by
  apply View.triple_act
  · intro ht s hw
    obtain ⟨o, m', hserve⟩ := htotal ht
    exact ⟨o, (s.1, m'), rfl, hw.net ▸ hserve⟩
  · rintro s o ⟨s', m'⟩ hw ⟨rfl, hserve⟩
    rw [hw.net] at hserve
    refine ⟨{ w with net := m' }, ⟨hw.instances, hw.plugin, hw.catalog, hw.issued, rfl⟩, ?_⟩
    cases o with
    | ok x => exact hok x m' hserve
    | error e => exact View.triple_err (herr e m' hserve)

/-- The frame of every call on an instance. -/
theorem triple_transition (hfree : w.locked = false) {before : FDUState}
    {work : FDURecord → M Unit} {Q : Except Exn Uuid → Seen N.State → Prop}
    (hwork : ∀ inst, w.getInstance u = .ok inst → inst.status = before →
      (seen z n p N fails).Triple t (work inst) { w with locked := true } fun o w' =>
        Q (o.map fun _ => u) { w' with locked := false })
    (herr : ∀ e, (∃ a, fails a) ∨
      (∀ inst, w.getInstance u = .ok inst → inst.status ≠ before) → Q (.error (.err e)) w) :
    (seen z n p N fails).Triple t (transition z n p before u work) w Q := by
  apply triple_getNodeUuid
  · apply triple_localGetInstance
    · intro inst hinst
      split
      · next hstatus =>
        apply triple_withLock hfree
        apply View.triple_bind (hwork inst hinst hstatus)
        · intro a w' hw'
          exact View.triple_pure hw'
        · intro e w' hw'
          exact hw'
      · next hstatus =>
        apply View.triple_err (herr _ (Or.inr ?_))
        intro inst' hinst'
        rw [hinst] at hinst'
        cases hinst'
        exact hstatus
    · rintro e (hfails | he)
      · exact herr e (Or.inl ⟨_, hfails⟩)
      · refine herr e (Or.inr fun inst hinst => ?_)
        rw [he] at hinst
        cases hinst
  · exact fun e hfails => herr e (Or.inl hfails)

end Commands

end DummyHypervisor

end Fog05
