import Fog05.Model.System

/-! What it takes for the operations that calls are made of to stay within a
discipline: one rule for each of them. Disciplines rely on what the answer to a
command tells in any state, and on what a command leaves as it is. -/

namespace Fog05

open Conc M

variable {Q α β : Type} {D : Discipline Cmd.Ans Proc.Ret Exn Q} {q : Q} {z : Session}
variable {Φ : Except Exn β → Q → Prop}

theorem follows_bind {p : M α} {f : α → M β} {Ψ : Except Exn α → Q → Prop}
    (hp : p.Follows D Ψ q) (hok : ∀ x q', Ψ (.ok x) q' → (f x).Follows D Φ q')
    (herr : ∀ e q', Ψ (.error e) q' → Φ (.error e) q') : (p >>= f).Follows D Φ q := by
  refine (Prog.follows_bindE _ p q).2 (hp.mono fun o q' ho => ?_)
  cases o with
  | ok x => exact hok x q' ho
  | error e => exact herr e q' ho

theorem follows_ask {a : Access} {Φ : Except Exn a.Ret → Q → Prop}
    (hallow : D.allows q (.access a))
    (h : ∀ r q', D.next q (.access a) r q' → Φ (r.mapError .err) q') : (ask a).Follows D Φ q :=
  ⟨hallow, fun r q' hn => (Prog.follows_final _ q').2 (h r q' hn)⟩

theorem follows_ask_bind {a : Access} {f : a.Ret → M β} (hallow : D.allows q (.access a))
    (hok : ∀ x q', D.next q (.access a) (.ok x) q' → (f x).Follows D Φ q')
    (herr : ∀ e q', D.next q (.access a) (.error e) q' → Φ (.error (.err e)) q') :
    (ask a >>= f).Follows D Φ q := by
  refine ⟨hallow, fun r q' hn => ?_⟩
  cases r with
  | ok x => exact hok x q' hn
  | error e => exact herr e q' hn

theorem follows_issue_bind {c : Cmd} {f : c.Ans → M β} (hallow : D.allows q c)
    (h : ∀ r q', D.next q c r q' → (f r).Follows D Φ q') : (issue c >>= f).Follows D Φ q :=
  ⟨hallow, h⟩

theorem follows_invoke {p : Proc} {Φ : Except Exn p.Ret → Q → Prop} (hcalls : D.calls q p)
    (h : ∀ o q', D.back q p o q' → Φ o q') : (Prog.invoke p : M p.Ret).Follows D Φ q :=
  ⟨hcalls, fun o q' hb => (Prog.follows_final o q').2 (h o q' hb)⟩

theorem follows_okOr_bind {e : FError} {x : Option α} {f : α → M β}
    (hsome : ∀ y, x = some y → (f y).Follows D Φ q)
    (hnone : x = none → Φ (.error (.err e)) q) : (okOr e x >>= f).Follows D Φ q := by
  cases x with
  | none => exact hnone rfl
  | some y => exact hsome y rfl

theorem follows_unwrap_bind {x : Option α} {f : α → M β}
    (hsome : ∀ y, x = some y → (f y).Follows D Φ q)
    (hnone : x = none → Φ (.error .panic) q) : (unwrap x >>= f).Follows D Φ q := by
  cases x with
  | none => exact hnone rfl
  | some y => exact hsome y rfl

/-- A remote call stays within the discipline if the request and the reply do,
and the call at the server in between. -/
theorem follows_remote {r : Rpc} {b : M r.Ret} {Φ : Except Exn r.Ret → Q → Prop}
    (hrequest : D.allows q (.access (.request r)))
    (hb : ∀ x q₁, D.next q (.access (.request r)) (.ok x) q₁ →
      b.Follows D (fun o q₂ => D.allows q₂ (.access (.reply r (received z o))) ∧
        ∀ y q₃, D.next q₂ (.access (.reply r (received z o))) y q₃ → Φ (y.mapError .err) q₃) q₁)
    (herr : ∀ e q₁, D.next q (.access (.request r)) (.error e) q₁ → Φ (.error (.err e)) q₁) :
    (remote z r b).Follows D Φ q := by
  refine follows_ask_bind hrequest (fun x q₁ hn => ?_) herr
  rw [Prog.attempt_bind, Prog.follows_bindE]
  exact (hb x q₁ hn).mono fun o q₂ h => follows_ask h.1 h.2

theorem follows_withLock {p : Uuid} {b : M α} {Φ : Except Exn α → Q → Prop}
    (hlock : D.allows q (.lock p))
    (hb : ∀ x q₁, D.next q (.lock p) x q₁ →
      b.Follows D (fun o q₂ => D.allows q₂ (.unlock p) ∧
        ∀ y q₃, D.next q₂ (.unlock p) y q₃ → Φ o q₃) q₁) :
    (DummyHypervisor.withLock p b).Follows D Φ q := by
  apply follows_issue_bind hlock
  intro x q₁ hn
  rw [Prog.attempt_bind, Prog.follows_bindE]
  exact (hb x q₁ hn).mono fun o q₂ h =>
    follows_issue_bind h.1 fun y q₃ hn => (Prog.follows_final o q₃).2 (h.2 y q₃ hn)

theorem received_eq_ok {o : Except Exn α} {x : α} : received z o = .ok x ↔ o = .ok x := by
  rcases o with (e | _) | y <;> simp [received]

/-- What an answer tells in any state: a get returns what it was asked for, and a
reply that is delivered is the one that was sent. -/
def Cmd.Honest : (c : Cmd) → c.Ans → Prop
  | .access (.getFdu f), .ok d => d.uuid = some f
  | .access (.getEntity e), .ok d => d.uuid = some e
  | .access (.getInstance u), .ok r => r.uuid = u
  | .access (.localGetInstance _ u), .ok r => r.uuid = u
  | .access (.getEntityInstance u), .ok r => r.uuid = u
  | .access (.reply _ o), .ok x => o = .ok x
  | _, _ => True

section Exec

variable {c : Cmd} {ch : Choice} {s s' : Fos} {r : c.Ans}

theorem exec_honest (h : exec c ch s = some (r, s')) : c.Honest r := by
  cases c with
  | access a =>
    obtain ⟨-, hr⟩ | ⟨e, -, rfl, -⟩ := exec_access h
    · cases r with
      | error e => cases a <;> trivial
      | ok x =>
        have hrun : (a.run s).1 = .ok x := congrArg Prod.fst hr
        cases a with
        | getFdu f => exact (single_select_key hrun).2
        | getEntity e => exact (single_select_key hrun).2
        | getInstance u => exact (single_select_key hrun).2
        | localGetInstance n u => exact (single_select_key hrun).2
        | getEntityInstance u => exact (single_select_key hrun).2
        | reply q o => exact hrun
        | _ => trivial
    · cases a <;> trivial
  | _ => trivial

theorem exec_internal (hc : ∀ a, c ≠ .access a) (h : exec c ch s = some (r, s')) :
    s'.toStore = s.toStore ∧ s'.writes = s.writes ∧ s'.replies = s.replies := by
  cases c with
  | access a => exact absurd rfl (hc a)
  | net n q => obtain ⟨-, rfl⟩ := exec_net h; exact ⟨rfl, rfl, rfl⟩
  | hypervisor n name => obtain ⟨-, rfl⟩ := exec_hypervisor h; exact ⟨rfl, rfl, rfl⟩
  | lock p => obtain ⟨-, rfl⟩ := exec_lock h; exact ⟨rfl, rfl, rfl⟩
  | unlock p => rw [exec_unlock h]; exact ⟨rfl, rfl, rfl⟩
  | insert p inst => rw [exec_insert h]; exact ⟨rfl, rfl, rfl⟩
  | remove p u => rw [exec_remove h]; exact ⟨rfl, rfl, rfl⟩
  | newUuid => obtain ⟨-, rfl⟩ := exec_newUuid h; exact ⟨rfl, rfl, rfl⟩
  | choose l => obtain ⟨rfl, -⟩ := exec_choose h; exact ⟨rfl, rfl, rfl⟩
  | pathExists path => obtain ⟨-, rfl⟩ := exec_pathExists h; exact ⟨rfl, rfl, rfl⟩
  | spawn t => rw [exec_spawn h]; exact ⟨rfl, rfl, rfl⟩

theorem exec_issued (h : exec c ch s = some (r, s')) : s.issued ⊆ s'.issued := by
  cases c with
  | access a =>
    rcases exec_access h with ⟨-, hr⟩ | ⟨e, -, rfl, rfl⟩
    · obtain ⟨rfl, rfl⟩ := Prod.mk.inj hr
      cases a <;> exact List.Subset.refl _
    · exact List.Subset.refl _
  | net n q => obtain ⟨-, rfl⟩ := exec_net h; exact List.Subset.refl _
  | hypervisor n name => obtain ⟨-, rfl⟩ := exec_hypervisor h; exact List.Subset.refl _
  | lock p => obtain ⟨-, rfl⟩ := exec_lock h; exact List.Subset.refl _
  | unlock p => rw [exec_unlock h]; exact List.Subset.refl _
  | insert p inst => rw [exec_insert h]; exact List.Subset.refl _
  | remove p u => rw [exec_remove h]; exact List.Subset.refl _
  | newUuid => obtain ⟨-, rfl⟩ := exec_newUuid h; exact List.subset_cons_self _ _
  | choose l => obtain ⟨rfl, -⟩ := exec_choose h; exact List.Subset.refl _
  | pathExists path => obtain ⟨-, rfl⟩ := exec_pathExists h; exact List.Subset.refl _
  | spawn t => rw [exec_spawn h]; exact List.Subset.refl _

section Hypervisors

variable {st : Store} {n m f u : Uuid} {i : FDURecord}

theorem localPut_hypervisors :
    ((st.localPut n i).node m).hypervisors = (st.node m).hypervisors := by
  by_cases hm : m = n
  · subst hm
    simp only [Store.localPut, Store.setNode, Function.update_self]
  · simp only [Store.localPut, Store.setNode, Function.update_of_ne hm]

theorem localDelete_hypervisors :
    ((st.localDelete n f u).node m).hypervisors = (st.node m).hypervisors := by
  by_cases hm : m = n
  · subst hm
    simp only [Store.localDelete, Store.setNode, Function.update_self]
  · simp only [Store.localDelete, Store.setNode, Function.update_of_ne hm]

theorem exec_hypervisors (h : exec c ch s = some (r, s')) :
    (s'.node n).hypervisors = (s.node n).hypervisors := by
  cases c with
  | access a =>
    rcases exec_access h with ⟨-, hr⟩ | ⟨e, -, -, rfl⟩
    · obtain ⟨-, rfl⟩ := Prod.mk.inj hr
      cases a with
      | localPutInstance m i => exact localPut_hypervisors
      | localDeleteInstance m f u => exact localDelete_hypervisors
      | _ => rfl
    · rfl
  | _ => rw [(exec_internal (fun _ h => by cases h) h).1]

end Hypervisors

/-- What is in a store after a command was there before, or the command put it there. -/
structure Cmd.Adds (c : Cmd) (s s' : Fos) : Prop where
  stored : ∀ i ∈ s'.global.instances, i ∈ s.global.instances
  copies : ∀ n, ∀ i ∈ (s'.node n).instances,
    i ∈ (s.node n).instances ∨ c = .access (.localPutInstance n i)
  pending : ∀ n, ∀ i ∈ (s'.node n).changes,
    i ∈ (s.node n).changes ∨ c = .access (.localPutInstance n i)
  fdus : ∀ d ∈ s'.global.fdus, d ∈ s.global.fdus ∨ c = .access (.putFdu d)
  entities : ∀ i ∈ s'.global.entityInstances,
    i ∈ s.global.entityInstances ∨ c = .access (.putEntityInstance i)

theorem Cmd.Adds.of_eq (h : s'.toStore = s.toStore) : c.Adds s s' := by
  constructor <;> rw [h]
  · exact fun _ h => h
  · exact fun _ _ => Or.inl
  · exact fun _ _ => Or.inl
  · exact fun _ => Or.inl
  · exact fun _ => Or.inl

theorem exec_adds (h : exec c ch s = some (r, s')) : c.Adds s s' := by
  cases c with
  | access a =>
    rcases exec_access h with ⟨-, hr⟩ | ⟨e, -, -, rfl⟩
    · obtain ⟨-, rfl⟩ := Prod.mk.inj hr
      have keep : ∀ c : Cmd, c.Adds s s := fun _ => Cmd.Adds.of_eq rfl
      cases a with
      | putFdu d =>
        refine { keep _ with fdus := fun d' hd' => ?_ }
        exact (Table.mem_put.1 hd').elim (fun he => Or.inr (he ▸ rfl)) fun h => Or.inl h.1
      | deleteFdu f => exact { keep _ with fdus := fun d hd => Or.inl (Table.mem_erase.1 hd).1 }
      | deleteInstance f u => exact { keep _ with stored := fun i hi => (Table.mem_erase.1 hi).1 }
      | putEntityInstance i =>
        refine { keep _ with entities := fun j hj => ?_ }
        exact (Table.mem_put.1 hj).elim (fun he => Or.inr (he ▸ rfl)) fun h => Or.inl h.1
      | localPutInstance m i =>
        refine { keep _ with copies := fun n j hj => ?_, pending := fun n j hj => ?_ }
        · by_cases hn : n = m
          · subst hn
            simp only [Store.localPut, Store.setNode, Function.update_self] at hj
            exact (Table.mem_put.1 hj).elim (fun he => Or.inr (he ▸ rfl)) fun h => Or.inl h.1
          · simp only [Store.localPut, Store.setNode, Function.update_of_ne hn] at hj
            exact Or.inl hj
        · by_cases hn : n = m
          · subst hn
            simp only [Store.localPut, Store.setNode, Function.update_self] at hj
            rcases List.mem_append.1 hj with hj | hj
            · exact Or.inl hj
            · obtain rfl := List.mem_singleton.1 hj
              exact Or.inr rfl
          · simp only [Store.localPut, Store.setNode, Function.update_of_ne hn] at hj
            exact Or.inl hj
      | localDeleteInstance m f u =>
        refine { keep _ with copies := fun n j hj => Or.inl ?_, pending := fun n j hj => Or.inl ?_ }
        · by_cases hn : n = m
          · subst hn
            simp only [Store.localDelete, Store.setNode, Function.update_self] at hj
            exact (Table.mem_erase.1 hj).1
          · simpa only [Store.localDelete, Store.setNode,
              Function.update_of_ne hn] using hj
        · by_cases hn : n = m
          · subst hn
            simpa only [Store.localDelete, Store.setNode,
              Function.update_self] using hj
          · simpa only [Store.localDelete, Store.setNode,
              Function.update_of_ne hn] using hj
      | _ => exact { keep _ with }
    · exact Cmd.Adds.of_eq rfl
  | _ => exact Cmd.Adds.of_eq (exec_internal (fun _ h => by cases h) h).1

/-- What a round of a monitoring task changes: the oldest change moves on. -/
structure Store.Moves (n : Uuid) (st st' : Store) : Prop where
  stored : ∀ i ∈ st'.global.instances, i ∈ st.global.instances ∨ i ∈ (st.node n).changes
  copies : ∀ m, (st'.node m).instances = (st.node m).instances
  pending : ∀ m, ∀ i ∈ (st'.node m).changes, i ∈ (st.node m).changes
  fdus : st'.global.fdus = st.global.fdus
  entities : st'.global.entityInstances = st.global.entityInstances
  catalog : st'.global.entities = st.global.entities
  nodes : st'.global.nodes = st.global.nodes
  hypervisors : ∀ m, (st'.node m).hypervisors = (st.node m).hypervisors

theorem monitor_moves {n : Uuid} {st st' : Store} (h : st.monitor n = some st') :
    st.Moves n st' := by
  unfold Store.monitor at h
  split at h
  · cases h
  · next inst changes hc =>
    cases h
    refine ⟨fun i hi => ?_, fun m => ?_, fun m i hi => ?_, rfl, rfl, rfl, rfl, fun m => ?_⟩
    · rcases Table.mem_put.1 hi with rfl | ⟨hi, -⟩
      · exact Or.inr (hc ▸ List.mem_cons_self)
      · exact Or.inl hi
    · by_cases hm : m = n
      · subst hm
        simp only [Store.globalPut, Store.setNode, Function.update_self]
      · simp only [Store.globalPut, Store.setNode, Function.update_of_ne hm]
    · by_cases hm : m = n
      · subst hm
        simp only [Store.globalPut, Store.setNode, Function.update_self] at hi
        exact hc ▸ List.mem_cons_of_mem _ hi
      · simpa only [Store.globalPut, Store.setNode, Function.update_of_ne hm] using hi
    · by_cases hm : m = n
      · subst hm
        simp only [Store.globalPut, Store.setNode, Function.update_self]
      · simp only [Store.globalPut, Store.setNode, Function.update_of_ne hm]

end Exec

/-- What ties a sound discipline to the deployment holds after a run of a program that
follows it: rounds of the monitoring tasks keep it, and so do the commands it allows. -/
theorem ensures_of_follows {ok : Choice → Prop} {p : M α} {Φ : Except Exn α → Q → Prop} {s : Fos}
    (hD : D.Sound (body z)) (I : Q → Fos → Prop)
    (hmonitor : ∀ q s m st, I q s → s.toStore.monitor m = some st → I q { s with toStore := st })
    (hexec : ∀ q c ch x s s', I q s → D.allows q c → exec c ch s = some (x, s') →
      ∃ q', D.next q c x q' ∧ I q' s') (hp : p.Follows D Φ q) (h : I q s) :
    (system z ok).Ensures False p s fun o s' => ∃ q', Φ o q' ∧ I q' s' := by
  refine System.ensures_of_follows (M := system z ok) hD I ?_ ?_ hp h
  · rintro q s s' h ⟨m, hm⟩
    obtain ⟨st, hst, rfl⟩ := Option.map_eq_some_iff.1 hm
    exact hmonitor q s m st h hst
  · rintro q c s x s' h hallow ⟨ch, -, hx⟩
    exact hexec q c ch x s s' h hallow hx

end Fog05
