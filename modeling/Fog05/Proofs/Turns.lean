import Fog05.Proofs.Standing

/-! Every step of a node keeps its books: so the calls on the registry are served in turn,
whatever else goes on, and what the monitoring publishes is what the registry was in between. -/

namespace Fog05.Processes

open Conc

structure Orderly (qs : List Entry) (s : Node) : Prop where
  custody : Custody qs s
  tasks : ∀ q ∈ qs, q.role = .task → q.guard = none
  books : Books qs s
  mail : Mail qs s
  standing : Standing qs s

theorem Stage.replied_eq_begun {st : Stage} {x : Except FError Unit} :
    st.replied x = .begun ↔ st = .begun := by
  cases st <;> cases x <;> simp [Stage.replied]

namespace Orderly

variable {qs : List Entry} {s s' : Node} {i j : ℕ} {q q' : Entry} {l : Lock} {m : Mode} {n : ℕ}
  {p : Uuid} {kind : PluginKind}

theorem idle : Orderly [] .new :=
  ⟨Custody.idle, fun _ hq => absurd hq List.not_mem_nil, Books.idle, Mail.idle, Standing.idle⟩

theorem tasks_set (h : Orderly qs s) (hq' : q'.role = .task → q'.guard = none) :
    ∀ q ∈ qs.set i q', q.role = .task → q.guard = none :=
  forall_mem_set h.tasks hq' i

theorem still (h : Orderly qs s) (hi : qs[i]? = some q) : Orderly (qs.set i q) s := by
  rw [set_of_getElem? hi]
  exact h

theorem keep (h : Orderly qs s) (hi : qs[i]? = some q) (hcustody : Custody (qs.set i q') s')
    (htask : q'.role = .task → q'.guard = none) (hbooks : Books (qs.set i q') s')
    (hrole : q'.role = q.role) (hstage : q'.stage = q.stage) (hawaits : q'.awaits = q.awaits)
    (hsent : s'.sent = s.sent) (htasks : s'.tasks = s.tasks) (hreplies : s'.replies = s.replies)
    (hserved : s'.served = s.served) (hissued : s'.issued = s.issued) (huuids : s'.uuids = s.uuids)
    (hstopping : s'.stopping = s.stopping) : Orderly (qs.set i q') s' where
  custody := hcustody
  tasks := h.tasks_set htask
  books := hbooks
  mail := by
    have hq := h.mail.awaits q (List.mem_of_getElem? hi)
    exact (h.mail.same hi hrole (fun _ _ _ => hstage) (hawaits ▸ hq)).outside hsent htasks hreplies
      hserved
  standing := by
    refine (h.standing.same hi hrole hstage).outside hsent hissued (fun p hp => ?_) (fun p hp => ?_)
      (hserved ▸ List.prefix_rfl)
    · rw [huuids, hp]
    · rw [hstopping, hp]

theorem quiet (h : Orderly qs s) (hi : qs[i]? = some q) (f : Faults) {global here : Option NodeStatus}
    (hreported : ∀ st, global = some st ∨ here = some st →
      ∃ l r, l <+: s.served ∧ Served l r ∧ st.Reports r) :
    Orderly (qs.set i { q with faults := f })
      { s with globalStatus := global, localStatus := here } := by
  refine h.keep hi (h.custody.same hi rfl rfl) (h.tasks q (List.mem_of_getElem? hi)) ?_
    rfl rfl rfl rfl rfl rfl rfl rfl rfl rfl
  refine Books.outside (s := s) ?_ rfl rfl hreported
  exact h.books.same hi (fun _ => Iff.rfl) rfl rfl

theorem lock (h : Orderly qs s) (hi : qs[i]? = some q) {x : RwLock} (hq : q.Allows (.lock l m))
    (hx : (s.locks l).acquire m = some x) :
    ∃ q', q.Next (.lock l m) () q' ∧ q'.role = q.role ∧ Orderly (qs.set i q') (s.setLock l x) := by
  have hguard := hq.unguarded
  have htask := hq.not_task
  cases l with
  | agent =>
    refine ⟨_, ⟨s.registry, rfl⟩, rfl, h.keep hi (h.custody.acquire hi hguard hx rfl)
      (fun ht => absurd ht htask) ?_ rfl rfl rfl rfl rfl rfl rfl rfl rfl rfl⟩
    refine Books.outside (s := s) ?_ rfl rfl h.books.reported
    exact h.books.lock hi (h.custody.no_writer_of_acquire hx) rfl rfl rfl
  | plugin p =>
    refine ⟨_, rfl, rfl, h.keep hi (h.custody.acquire hi hguard hx rfl)
      (fun ht => absurd ht htask) ?_ rfl rfl rfl rfl rfl rfl rfl rfl rfl rfl⟩
    refine Books.outside (s := s) ?_ rfl rfl h.books.reported
    refine h.books.same hi (fun m' => ?_) rfl rfl
    rw [hguard]
    exact iff_of_false (fun h => by cases h) fun h => by cases h

theorem unlock (h : Orderly qs s) (hi : qs[i]? = some q) (hq : q.Allows (.unlock l m)) :
    Orderly (qs.set i { q with guard := none }) (s.setLock l ((s.locks l).release m)) := by
  refine h.keep hi (h.custody.release hi hq.1 rfl) (fun _ => rfl) ?_
    rfl rfl rfl rfl rfl rfl rfl rfl rfl rfl
  refine Books.outside (s := s) ?_ rfl rfl h.books.reported
  cases l with
  | agent => exact h.books.unlock hi hq.1 (hq.2 rfl) rfl
  | plugin p =>
    refine h.books.same hi (fun m' => ?_) rfl rfl
    rw [hq.1]
    exact iff_of_false (fun h => by cases h) fun h => by cases h

theorem write (h : Orderly qs s) (hi : qs[i]? = some q) (hq : q.guard = some (.agent, .write))
    {a : Inner} {t : Table PluginInfo.uuid} {f : Faults} :
    Orderly (qs.set i { q with now := ⟨⟨a.networking, a.client⟩, t⟩, faults := f })
      { s with inner := a, plugins := t } := by
  obtain ⟨-, hserved, -⟩ := h.books.seen q (List.mem_of_getElem? hi) _ hq
  refine h.keep hi (h.custody.same hi rfl rfl) (h.tasks q (List.mem_of_getElem? hi)) ?_
    rfl rfl rfl rfl rfl rfl rfl rfl rfl rfl
  exact h.books.write hi hq (fun j q₁ m hij hj => h.custody.alone hi hq hij hj) rfl hserved
    List.prefix_rfl rfl rfl

theorem seen (h : Orderly qs s) (hi : qs[i]? = some q) (hq : q.guard = some (.agent, m)) :
    s.registry = q.now :=
  (h.books.seen q (List.mem_of_getElem? hi) _ hq).1

theorem insertHypervisor (h : Orderly qs s) (hi : qs[i]? = some q)
    (hq : q.guard = some (.agent, .write)) (name : String) (p : Uuid) :
    Orderly (qs.set i { q with now := q.now.setHypervisor name (some p) })
      { s with inner := { s.inner with hypervisors := s.inner.hypervisors.put (name, p) } } := by
  have hwrite := h.write hi hq (t := s.plugins) (f := q.faults)
    (a := { s.inner with hypervisors := s.inner.hypervisors.put (name, p) })
  rw [Inner.client_put] at hwrite
  rw [← h.seen hi hq]
  exact hwrite

theorem removeHypervisor (h : Orderly qs s) (hi : qs[i]? = some q)
    (hq : q.guard = some (.agent, .write)) (name : String) :
    Orderly (qs.set i { q with now := q.now.setHypervisor name none })
      { s with inner := { s.inner with hypervisors := s.inner.hypervisors.erase name } } := by
  have hwrite := h.write hi hq (t := s.plugins) (f := q.faults)
    (a := { s.inner with hypervisors := s.inner.hypervisors.erase name })
  rw [Inner.client_erase] at hwrite
  rw [← h.seen hi hq]
  exact hwrite

theorem hypervisors (h : Orderly qs s) (hi : qs[i]? = some q) (hq : q.guard = some (.agent, m))
    {names : List String} (hperm : names.Perm (s.inner.hypervisors.rows.map Prod.fst)) :
    names.Nodup ∧ ∀ name, name ∈ names ↔ q.now.inner.hypervisors name ≠ none := by
  refine ⟨hperm.nodup_iff.2 s.inner.hypervisors.distinct, fun name => ?_⟩
  rw [hperm.mem_iff, Inner.mem_names, ← h.seen hi hq]
  rfl

theorem publish (h : Orderly qs s) (hi : qs[i]? = some q) {st : NodeStatus}
    (hq : q.Allows (.addNodeStatus st)) :
    Orderly (qs.set i q) { s with globalStatus := some st } ∧
      Orderly (qs.set i q) { s with localStatus := some st } := by
  refine ⟨h.quiet hi q.faults fun st' hst => ?_, h.quiet hi q.faults fun st' hst => ?_⟩
  · rcases hst with hst | hst
    · exact Option.some.inj hst ▸ h.books.publish hi hq
    · exact h.books.reported st' (Or.inr hst)
  · rcases hst with hst | hst
    · exact h.books.reported st' (Or.inl hst)
    · exact Option.some.inj hst ▸ h.books.publish hi hq

/-- A call on the registry is answered as if it were served here, at once. -/
theorem answered (h : Orderly qs s) (hi : qs[i]? = some q) {c : RegistryCall}
    {o : Except FError Uuid} (hq : q.Allows (.answered c o)) :
    Orderly (qs.set i { q with before := q.now, stage := .answered o })
      { s with served := s.served ++ [(c, o)] } := by
  obtain ⟨hguard, ⟨n, hrole⟩, hstage, hserve⟩ := hq
  obtain ⟨hseen, hserved, -⟩ := h.books.seen q (List.mem_of_getElem? hi) _ hguard
  refine ⟨h.custody.same hi rfl rfl, h.tasks_set (h.tasks q (List.mem_of_getElem? hi)), ?_,
    h.mail.answered hi hrole hstage o rfl rfl rfl, ?_⟩
  · refine h.books.write hi hguard (fun j q₁ m hij hj => h.custody.alone hi hguard hij hj) hseen ?_
      (List.prefix_append _ _) rfl rfl
    have hcall := Served.call c q.faults hserved
    rwa [hserve] at hcall
  · refine Standing.outside (s := s) ?_ rfl rfl (fun _ h => h) (fun _ h => h) (List.prefix_append _ _)
    exact h.standing.server hi hrole rfl

theorem respond (h : Orderly qs s) (hi : qs[i]? = some q) {o : Except FError Unit}
    (hq : q.Allows (.respond n o)) :
    Orderly (qs.set i { q with stage := .responded })
      { s with replies := s.replies ++ [(n, o)] } := by
  have hmem := List.mem_of_getElem? hi
  obtain ⟨-, hcall⟩ := hq
  obtain ⟨c, hrole, hstage, hpending, ho⟩ : ∃ c, q.role = .server n c ∧ q.stage ≠ .responded ∧
      q.pending = none ∧ ∀ c', c = .registry c' → ∃ o', (c', o') ∈ s.served ∧ o = o'.map fun _ => () := by
    rcases hcall with ⟨p, hrole, hstage⟩ | ⟨c, o', hrole, hstage, rfl⟩
    · refine ⟨_, hrole, fun hr => ?_, ?_, fun c' hc => ?_⟩
      · rw [hstage] at hr
        cases hr
      · unfold Entry.pending
        rw [hrole, hstage]
        rfl
      · cases hc
    · refine ⟨_, hrole, fun hr => ?_, ?_, fun c' hc => ?_⟩
      · rw [hstage] at hr
        cases hr
      · unfold Entry.pending
        rw [hrole, hstage]
      · cases hc
        exact ⟨o', h.mail.answers q hmem n c o' hrole hstage, rfl⟩
  exact {
    custody := h.custody.same hi rfl rfl
    tasks := h.tasks_set (h.tasks q hmem)
    books := Books.outside (s := s) (h.books.same hi (fun _ => Iff.rfl) rfl rfl) rfl rfl
      h.books.reported
    mail := h.mail.respond hi hrole hstage hpending ho
    standing := Standing.outside (s := s) (h.standing.server hi hrole rfl) rfl rfl (fun _ h => h)
      (fun _ h => h) List.prefix_rfl }

theorem request (h : Orderly qs s) (hi : qs[i]? = some q) {c : Call} (hq : q.Allows (.request c)) :
    Orderly (qs.set i { q with awaits := some (s.sent.length, c), stage := q.stage.asked c })
      { s with
        sent := s.sent ++ [c]
        tasks := s.tasks ++ [.serve s.sent.length c] } := by
  have hmem := List.mem_of_getElem? hi
  have hserver : ∀ n c, q.role ≠ .server n c := fun n c' hr => by
    cases c with
    | transition p =>
      have hrole : q.role = .caller := hq.1
      rw [hr] at hrole
      cases hrole
    | registry c =>
      cases c with
      | register p kind =>
        have hrole : q.role = .plugin kind p := hq.1
        rw [hr] at hrole
        cases hrole
      | unregister p =>
        obtain ⟨⟨kind, hrole⟩, -⟩ := hq
        rw [hr] at hrole
        cases hrole
  refine ⟨h.custody.same hi rfl rfl, h.tasks_set (h.tasks q hmem), ?_,
    h.mail.request hi rfl hserver rfl, ?_⟩
  · refine Books.outside (s := s) ?_ rfl rfl h.books.reported
    exact h.books.same hi (fun _ => Iff.rfl) rfl rfl
  · cases c with
    | transition p =>
      refine Standing.call (c := .transition p) ?_ rfl _
      exact h.standing.same hi rfl rfl
    | registry c =>
      cases c with
      | register p kind =>
        obtain ⟨hrole, hstage⟩ := hq
        have hst := h.standing.stands q hmem kind p hrole
        rw [hstage] at hst
        have hbegun : q.stage ≠ .begun := fun hb => by rw [hstage] at hb; cases hb
        refine h.standing.ask (c := .registry (.register p kind)) hi hrole ?_ hbegun ?_ rfl rfl
          (hst.join (Or.inr rfl)) hst.to_joining
        · rfl
        · exact fun hb => by cases hb
      | unregister p =>
        obtain ⟨⟨kind, hrole⟩, hstage⟩ := hq
        have hst := h.standing.stands q hmem kind p hrole
        rw [hstage] at hst
        have hbegun : q.stage ≠ .begun := fun hb => by rw [hstage] at hb; cases hb
        have hleave := hst.leave (fun hb => by cases hb) fun hb => by cases hb
        refine h.standing.ask (c := .registry (.unregister p)) hi hrole ?_ hbegun ?_ rfl rfl
          hleave hst.to_left
        · rfl
        · exact fun hb => by cases hb

theorem reply (h : Orderly qs s) (hi : qs[i]? = some q) (hq : q.Allows (.reply n))
    {x : Except FError Unit} (hx : x = .ok () → (n, x) ∈ s.replies) :
    Orderly (qs.set i { q with awaits := none, stage := q.stage.replied x }) s := by
  have hmem := List.mem_of_getElem? hi
  refine ⟨h.custody.same hi rfl rfl, h.tasks_set (h.tasks q hmem), ?_, ?_, ?_⟩
  · exact h.books.same hi (fun _ => Iff.rfl) rfl rfl
  · refine h.mail.same hi rfl (fun n' c hr => ?_) fun n' c hc => by cases hc
    rcases hq with ⟨hrole, -⟩ | ⟨kind, p, hrole, -⟩ <;> rw [hr] at hrole <;> cases hrole
  · refine h.standing.move hi rfl Stage.replied_eq_begun fun kind p hrole => ?_
    have hst := h.standing.stands q hmem kind p hrole
    rcases hq with ⟨hcaller, -⟩ | ⟨kind', p', hrole', -, ⟨hawaits, hstage⟩ | ⟨-, hstage⟩⟩
    · rw [hrole] at hcaller
      cases hcaller
    · obtain ⟨rfl, rfl⟩ := Role.plugin.inj (hrole.symm.trans hrole')
      rw [hstage] at hst ⊢
      cases x with
      | error e => exact hst
      | ok u =>
        obtain ⟨o, hserved, ho⟩ :=
          h.mail.replies n _ _ (hx rfl) (h.mail.awaits q hmem n _ hawaits)
        refine hst.to_joined ?_
        cases o with
        | ok v => exact ⟨v, hserved⟩
        | error e => cases ho
    · rw [hstage] at hst ⊢
      exact hst

theorem advance (h : Orderly qs s) (hi : qs[i]? = some q) {st : Stage} (hrole : q.role = .plugin kind p)
    (hstanding : Standing (qs.set i { q with stage := st }) s') (hlocks : s'.locks = s.locks)
    (hr : s'.registry = s.registry) (hsent : s'.sent = s.sent) (htasks : s'.tasks = s.tasks)
    (hreplies : s'.replies = s.replies) (hserved : s'.served = s.served)
    (hglobal : s'.globalStatus = s.globalStatus) (hlocal : s'.localStatus = s.localStatus) :
    Orderly (qs.set i { q with stage := st }) s' := by
  have hmem := List.mem_of_getElem? hi
  refine ⟨h.custody.same hi rfl hlocks, h.tasks_set (h.tasks q hmem), ?_, ?_, hstanding⟩
  · refine Books.outside (s := s) ?_ hr hserved ?_
    · exact h.books.same hi (fun _ => Iff.rfl) rfl rfl
    · rw [hglobal, hlocal]
      exact h.books.reported
  · refine Mail.outside (s := s) ?_ hsent htasks hreplies hserved
    refine h.mail.same hi rfl (fun n c hr' => ?_) (h.mail.awaits q hmem)
    rw [hrole] at hr'
    cases hr'

theorem connect (h : Orderly qs s) (hi : qs[i]? = some q) (hq : q.Allows (.connect p))
    (hp : p ∉ s.issued) :
    Orderly (qs.set i { q with stage := .connected }) { s with issued := p :: s.issued } := by
  obtain ⟨⟨kind, hrole⟩, -⟩ := hq
  exact h.advance hi hrole (h.standing.connect hi hrole hp) rfl rfl rfl rfl rfl rfl rfl rfl

theorem setUuid (h : Orderly qs s) (hi : qs[i]? = some q) (hq : q.Allows (.setUuid p)) :
    Orderly (qs.set i { q with stage := .named })
      { s with uuids := Function.update s.uuids p (some p) } := by
  obtain ⟨⟨kind, hrole⟩, hstage⟩ := hq
  refine h.advance hi hrole ?_ rfl rfl rfl rfl rfl rfl rfl rfl
  have huuid : ∀ p', s.uuids p' = some p' → Function.update s.uuids p (some p) p' = some p' := by
    intro p' hp'
    by_cases hpp : p' = p
    · rw [hpp, Function.update_self]
    · rw [Function.update_of_ne hpp, hp']
  have hset : Standing qs { s with uuids := Function.update s.uuids p (some p) } :=
    h.standing.outside rfl rfl huuid (fun _ h => h) List.prefix_rfl
  refine hset.move hi rfl
    (iff_of_false (fun hb => by cases hb) fun hb => by rw [hstage] at hb; cases hb)
    fun kind' p' hr => ?_
  obtain ⟨rfl, rfl⟩ := Role.plugin.inj (hr.symm.trans hrole)
  have hst := h.standing.stands q (List.mem_of_getElem? hi) kind' p' hr
  rw [hstage] at hst
  have hset : Stands kind' p' .connected { s with uuids := Function.update s.uuids p' (some p') } :=
    hst.keep rfl (huuid p') (fun h => h) List.prefix_rfl
  exact hset.to_named (Function.update_self ..)

theorem uuid (h : Orderly qs s) (hi : qs[i]? = some q) (hq : q.Allows (.uuid p)) :
    s.uuids p = some p := by
  obtain ⟨⟨kind, hrole⟩, hstage⟩ := hq
  refine (h.standing.stands q (List.mem_of_getElem? hi) kind p hrole).uuid ?_ ?_ <;>
    rcases hstage with hs | hs <;> rw [hs] <;> exact fun hb => by cases hb

theorem recv (h : Orderly qs s) (hi : qs[i]? = some q) (hq : q.Allows (.recv p))
    (hp : s.stopping p = true) : Orderly (qs.set i { q with stage := .leaving }) s := by
  obtain ⟨-, ⟨kind, hrole⟩, hstage⟩ := hq
  refine h.advance hi hrole ?_ rfl rfl rfl rfl rfl rfl rfl rfl
  refine h.standing.move hi rfl (iff_of_false (fun hb => by cases hb) fun hb => by
    rw [hstage] at hb; cases hb) fun kind' p' hr => ?_
  obtain ⟨rfl, rfl⟩ := Role.plugin.inj (hr.symm.trans hrole)
  have hst := h.standing.stands q (List.mem_of_getElem? hi) kind' p' hr
  rw [hstage] at hst
  exact hst.to_leaving hp

theorem spawn (h : Orderly qs s) (p : Uuid) :
    Orderly qs { s with tasks := s.tasks ++ [.defaultNetwork p] } where
  custody := h.custody
  tasks := h.tasks
  books := h.books.outside rfl rfl h.books.reported
  mail := h.mail.spawn p
  standing := h.standing.outside rfl rfl (fun _ h => h) (fun _ h => h) List.prefix_rfl

theorem act (h : Orderly qs s) (hi : qs[i]? = some q) {c : Op} {ch : Chance} {r : c.Ans}
    (hc : q.Allows c) (hx : exec c ch s = some (r, s')) :
    ∃ q', q.Next c r q' ∧ q'.role = q.role ∧ Orderly (qs.set i q') s' := by
  have hself : ∃ q', q' = q ∧ q'.role = q.role ∧ Orderly (qs.set i q') s :=
    ⟨q, rfl, rfl, h.still hi⟩
  have hfaults : ∀ f, Orderly (qs.set i { q with faults := f }) s := fun f =>
    h.quiet hi f h.books.reported
  cases c with
  | lock l m =>
    cases ch with
    | go =>
      obtain ⟨x, hfree, heq⟩ := Option.map_eq_some_iff.1 hx
      cases heq
      exact h.lock hi hc hfree
    | _ => cases hx
  | unlock l m =>
    cases ch with
    | go => cases hx; exact ⟨_, rfl, rfl, h.unlock hi hc⟩
    | _ => cases hx
  | request c =>
    cases ch with
    | go => cases hx; exact ⟨_, rfl, rfl, h.request hi hc⟩
    | fault e => cases hx; exact hself
    | _ => cases hx
  | reply n =>
    cases ch with
    | go =>
      obtain ⟨⟨n', x⟩, hfind, heq⟩ := Option.map_eq_some_iff.1 hx
      cases heq
      have hn : n' = n := by simpa using List.find?_some hfind
      refine ⟨_, rfl, rfl, h.reply hi hc fun _ => ?_⟩
      exact hn ▸ List.mem_of_find?_eq_some hfind
    | fault e => cases hx; exact ⟨_, rfl, rfl, h.reply hi hc fun h => by cases h⟩
    | _ => cases hx
  | respond n o =>
    cases ch with
    | go => cases hx; exact ⟨_, rfl, rfl, h.respond hi hc⟩
    | _ => cases hx
  | access | server | createDefault =>
    cases ch with
    | go => cases hx; exact hself
    | fault e => cases hx; exact hself
    | _ => cases hx
  | owned =>
    cases ch with
    | answer b => cases hx; exact hself
    | _ => cases hx
  | verifyServer p =>
    cases ch with
    | answer b => cases hx; exact hself
    | fault e => cases hx; exact hself
    | _ => cases hx
  | polled =>
    cases ch with
    | go => cases hx; exact hself
    | settled o => cases hx; exact hself
    | _ => cases hx
  | connect p =>
    cases ch with
    | go =>
      simp only [exec] at hx
      split at hx
      · cases hx
      · next hp => cases hx; exact ⟨_, rfl, rfl, h.connect hi hc hp⟩
    | fault e => cases hx; exact hself
    | _ => cases hx
  | setUuid p =>
    cases ch with
    | go => cases hx; exact ⟨_, rfl, rfl, h.setUuid hi hc⟩
    | _ => cases hx
  | uuid p =>
    cases ch with
    | go =>
      cases hx
      exact ⟨q, ⟨h.uuid hi hc, rfl⟩, rfl, h.still hi⟩
    | _ => cases hx
  | recv p =>
    cases ch with
    | go =>
      simp only [exec] at hx
      split at hx
      · next hp => cases hx; exact ⟨_, rfl, rfl, h.recv hi hc hp⟩
      · cases hx
    | _ => cases hx
  | hypervisor name =>
    cases ch with
    | go =>
      cases hx
      obtain ⟨m, hm⟩ := hc
      exact ⟨q, ⟨by rw [← h.seen hi hm]; rfl, rfl⟩, rfl, h.still hi⟩
    | _ => cases hx
  | networking =>
    cases ch with
    | go =>
      cases hx
      obtain ⟨m, hm⟩ := hc
      exact ⟨q, ⟨by rw [← h.seen hi hm]; rfl, rfl⟩, rfl, h.still hi⟩
    | _ => cases hx
  | hypervisors =>
    cases ch with
    | keys l =>
      simp only [exec] at hx
      split at hx
      · next hperm =>
        cases hx
        obtain ⟨m, hm⟩ := hc
        obtain ⟨hnodup, hmem⟩ := h.hypervisors hi hm hperm
        exact ⟨q, ⟨hnodup, hmem, rfl⟩, rfl, h.still hi⟩
      · cases hx
    | _ => cases hx
  | insertHypervisor name p =>
    cases ch with
    | go => cases hx; exact ⟨_, rfl, rfl, h.insertHypervisor hi hc name p⟩
    | _ => cases hx
  | removeHypervisor name =>
    cases ch with
    | go => cases hx; exact ⟨_, rfl, rfl, h.removeHypervisor hi hc name⟩
    | _ => cases hx
  | setNetworking x =>
    cases ch with
    | go =>
      cases hx
      refine ⟨_, rfl, rfl, ?_⟩
      rw [← h.seen hi hc]
      exact h.write hi hc (a := { s.inner with networking := x })
    | _ => cases hx
  | getPlugin p =>
    cases ch with
    | go =>
      cases hx
      refine ⟨_, ⟨none, ?_, rfl⟩, rfl, hfaults _⟩
      rw [← h.seen hi hc]
      rfl
    | fault e => cases hx; exact ⟨_, ⟨some e, rfl, rfl⟩, rfl, hfaults _⟩
    | _ => cases hx
  | addPlugin info =>
    cases ch with
    | go =>
      cases hx
      refine ⟨_, ⟨none, rfl, rfl⟩, rfl, ?_⟩
      rw [← h.seen hi hc]
      exact h.write hi hc (a := s.inner)
    | fault e => cases hx; exact ⟨_, ⟨some e, rfl, rfl⟩, rfl, hfaults _⟩
    | _ => cases hx
  | removePlugin p =>
    cases ch with
    | go =>
      cases hx
      refine ⟨_, ⟨none, rfl, rfl⟩, rfl, ?_⟩
      rw [← h.seen hi hc]
      exact h.write hi hc (a := s.inner)
    | fault e => cases hx; exact ⟨_, ⟨some e, rfl, rfl⟩, rfl, hfaults _⟩
    | _ => cases hx
  | spawn p =>
    cases ch with
    | go => cases hx; exact ⟨q, rfl, rfl, (h.still hi).spawn p⟩
    | _ => cases hx
  | addNodeStatus st =>
    cases ch with
    | go => cases hx; exact ⟨q, rfl, rfl, (h.publish hi hc).1⟩
    | fault e => cases hx; exact hself
    | _ => cases hx
  | localAddNodeStatus st =>
    cases ch with
    | go => cases hx; exact ⟨q, rfl, rfl, (h.publish hi hc).2⟩
    | fault e => cases hx; exact hself
    | _ => cases hx
  | answered c o =>
    cases ch with
    | go => cases hx; exact ⟨_, rfl, rfl, h.answered hi hc⟩
    | _ => cases hx

end Orderly

/-- What is started from outside: calls, the monitoring and the plugins. -/
def Proc.outer : Proc → Bool
  | .poll | .defaultNetwork _ | .serve _ _ => false
  | _ => true

theorem orderly : machine.Accounts guards (fun _ _ q => q.Over) (fun p q => q.role = p.role)
    (fun p => p.outer = true) Orderly where
  sound := guards_sound
  start {qs s p} hp h := by
    refine ⟨p.role.opens, keeps_body p, by cases p <;> rfl, h.custody.add rfl,
      forall_mem_concat h.tasks fun _ => rfl, h.books.add rfl, ?_, h.standing.add _⟩
    refine h.mail.add s.tasks (Or.inr ⟨rfl, fun n c hserve => ?_⟩)
    rw [hserve] at hp
    cases hp
  launch := by
    intro qs s p s' h hl
    change launch s = some (p, s') at hl
    unfold launch at hl
    split at hl
    · cases hl
    · next p tasks htasks =>
      cases hl
      refine ⟨p.role.opens, keeps_body p, by cases p <;> rfl, Custody.add h.custody rfl,
        forall_mem_concat h.tasks fun _ => rfl, ?_, h.mail.add tasks (Or.inl htasks), ?_⟩
      · have hout : Books qs { s with tasks := tasks } := h.books.outside rfl rfl h.books.reported
        exact hout.add rfl
      · have hout : Standing qs { s with tasks := tasks } :=
          h.standing.outside rfl rfl (fun _ h => h) (fun _ h => h) List.prefix_rfl
        exact hout.add _
  move := by
    intro qs s p s' h hm
    cases hm
    refine ⟨h.custody, h.tasks, h.books.outside rfl rfl h.books.reported, h.mail.outside rfl rfl rfl rfl,
      h.standing.outside rfl rfl (fun _ h => h) (fun p' hp' => ?_) List.prefix_rfl⟩
    change Function.update s.stopping p true p' = true
    by_cases hpp : p' = p
    · rw [hpp, Function.update_self]
    · rw [Function.update_of_ne hpp, hp']
  act h hi hc hx := by
    obtain ⟨q', hn, hrole, h'⟩ := h.act hi hc hx
    exact ⟨q', hn, fun p hp => hrole.trans hp, h'⟩
  leave h hi hq :=
    ⟨h.custody.drop hi hq.bare, fun q₁ hq₁ => h.tasks q₁ (List.mem_of_mem_eraseIdx hq₁),
      h.books.drop hi hq.bare, h.mail.drop hi hq, h.standing.drop _⟩

/-- Only what is outside starts anything; the node starts its tasks and servers itself. -/
def Begins (lab : Label Proc Chance Uuid) (_ : Threads) : Prop := ∀ p, lab = .start p → p.outer = true

section Runs

variable {w : Threads}

theorem orderly_of_reach (hreach : machine.Reach Begins (Pool.idle Node.new) w) : ∃ qs,
    w.Ledger guards (fun _ _ q => q.Over) (fun p q => q.role = p.role) qs ∧ Orderly qs w.state :=
  Pool.Ledger.of_reach orderly (fun p _ h => h p rfl) Orderly.idle hreach

theorem entry_of_upcoming {qs : List Entry} {i : ℕ} {c : Op}
    (hqs : w.Ledger guards (fun _ _ q => q.Over) (fun p q => q.role = p.role) qs)
    (hi : w.upcoming i = some c) : ∃ q, qs[i]? = some q ∧ q.Allows c ∧ w.role i = some q.role := by
  obtain ⟨x, k, hx⟩ := Pool.upcoming_eq_some.1 hi
  obtain ⟨q, hq, hfollows, hrole⟩ := hqs.entry hx
  refine ⟨q, hq, hfollows.1, ?_⟩
  rw [Threads.role, hx, hrole]
  rfl

theorem role_of_entry {qs : List Entry} {i : ℕ} {q : Entry}
    (hqs : w.Ledger guards (fun _ _ q => q.Over) (fun p q => q.role = p.role) qs)
    (hi : qs[i]? = some q) : i < w.threads.length ∧ w.role i = some q.role := by
  obtain ⟨t, ht, -, hrole⟩ := hqs.thread hi
  refine ⟨(List.getElem?_eq_some_iff.1 ht).1, ?_⟩
  rw [Threads.role, ht, hrole]
  rfl

/-- Over every run: unless a call on the registry is under way, the registry is what the answered
calls make of it, served at once and one after the other; what the monitoring has published is
what it was after some of them; and a call of the agent only goes to a plugin that is registered
just then. -/
theorem registry_in_turn (hreach : machine.Reach Begins (Pool.idle Node.new) w) :
    ((w.state.locks .agent).writer = false → Served w.state.served w.state.registry) ∧
    (∀ st, w.state.globalStatus = some st ∨ w.state.localStatus = some st →
      ∃ l r, l <+: w.state.served ∧ Served l r ∧ st.Reports r) ∧
    ∀ i p, w.upcoming i = some (.request (.transition p)) →
      ∃ name, w.state.registry.inner.hypervisors name = some p := by
  obtain ⟨qs, hqs, h⟩ := orderly_of_reach hreach
  refine ⟨fun hfree => h.books.settled (h.custody.no_writer hfree), h.books.reported,
    fun i p hp => ?_⟩
  obtain ⟨q, hq, ⟨-, hguard, name, hname⟩, -⟩ := entry_of_upcoming hqs hp
  exact ⟨name, by rw [(h.books.seen q (List.mem_of_getElem? hq) _ hguard).1, hname]⟩

/-- What resolves an operation where nothing fails and instances are of this node. -/
def Op.plain (s : Node) : Op → Chance
  | .owned | .verifyServer _ => .answer true
  | .polled => .settled (.ok ())
  | .hypervisors => .keys (s.inner.hypervisors.rows.map Prod.fst)
  | _ => .go

def outside : Label Proc Chance Uuid → Bool
  | .start p => p.outer
  | _ => true

def play (ts : List (Turn Proc Uuid)) : Option Threads :=
  machine.script (fun w i => (w.upcoming i).elim .go (Op.plain w.state)) (fun lab _ => outside lab)
    ts (Pool.idle Node.new)

theorem reach_of_play {ts : List (Turn Proc Uuid)} (h : play ts = some w) :
    machine.Reach Begins (Pool.idle Node.new) w := by
  refine Machine.reach_of_script (fun lab _ hlab p hp => ?_) h
  rw [hp] at hlab
  exact hlab

/-- What an operation takes, sends and waits for. -/
def Op.takes : Op → Option (Lock × Mode)
  | .lock l m => some (l, m)
  | _ => none

def Op.asks : Op → Option Call
  | .request c => some c
  | _ => none

def Op.waits : Op → Option ℕ
  | .reply n => some n
  | _ => none

def Op.stops : Op → Option Uuid
  | .recv p => some p
  | _ => none

theorem upcoming_of_bind {α : Type} {f : Op → Option α} {g : α → Op}
    (hfg : ∀ c a, f c = some a → c = g a) {i : ℕ} {a : α} (h : (w.upcoming i).bind f = some a) :
    w.upcoming i = some (g a) := by
  obtain ⟨c, hc, ha⟩ := Option.bind_eq_some_iff.1 h
  rw [hc, hfg c a ha]

theorem Op.eq_of_takes {c : Op} {x : Lock × Mode} (h : c.takes = some x) : c = .lock x.1 x.2 := by
  cases c <;> cases h
  rfl

theorem Op.eq_of_asks {c : Op} {x : Call} (h : c.asks = some x) : c = .request x := by
  cases c <;> cases h
  rfl

theorem Op.eq_of_stops {c : Op} {p : Uuid} (h : c.stops = some p) : c = .recv p := by
  cases c <;> cases h
  rfl

theorem Op.eq_of_waits {c : Op} {n : ℕ} (h : c.waits = some n) : c = .reply n := by
  cases c <;> cases h
  rfl

def fires (i k : ℕ) : List (Turn Proc Uuid) := List.replicate k (.fire i)

/-- A plugin of this uuid comes, up to where it waits for its stop message. -/
def joins (p : Uuid) : List (Turn Proc Uuid) :=
  .start (.plugin (.hypervisor "dummy") p) :: fires 0 8 ++ [.launch] ++ fires 1 8 ++ fires 0 4

/-- A round of the monitoring, and a call that goes to the plugin. -/
theorem registry_in_turn_call : ∃ w : Threads, machine.Reach Begins (Pool.idle Node.new) w ∧
    w.state.globalStatus = some ⟨.notReady, ["dummy"]⟩ ∧ w.upcoming 2 = some (.request (.transition 7)) ∧
    Served w.state.served w.state.registry ∧
    (∃ l r, l <+: w.state.served ∧ Served l r ∧ NodeStatus.Reports ⟨.notReady, ["dummy"]⟩ r) ∧
    ∃ name, w.state.registry.inner.hypervisors name = some 7 := by
  have hrun : (play (joins 7 ++ [.start .monitoring] ++ fires 1 5 ++ [.start (.move "dummy")] ++
      fires 2 5)).any (fun w => w.state.globalStatus == some ⟨.notReady, ["dummy"]⟩ &&
        !(w.state.locks .agent).writer && (w.upcoming 2).bind Op.asks == some (.transition 7)) =
      true := by
    decide +kernel
  obtain ⟨w, hw, hend⟩ := (Option.any_eq_true _ _).1 hrun
  simp only [Bool.and_eq_true, beq_iff_eq, Bool.not_eq_true'] at hend
  obtain ⟨⟨hstatus, hfree⟩, hasks⟩ := hend
  have hup := upcoming_of_bind (fun _ _ => Op.eq_of_asks) hasks
  obtain ⟨hserved, hreported, hcall⟩ := registry_in_turn (reach_of_play hw)
  exact ⟨w, reach_of_play hw, hstatus, hup, hserved hfree, hreported _ (Or.inl hstatus),
    hcall 2 7 hup⟩

end Runs

end Fog05.Processes
