import Fog05.Conc.Duty
import Fog05.Model.Main
import Fog05.Model.System

/-! What is left of a node in the global store when its agent has been stopped: `stop`
removes the records of the node, and `run` puts them, each without waiting for the other. -/

namespace Fog05.Main

open Conc

/-- The records of a node. -/
inductive NodeRecord
  | info
  | status

variable {n : Uuid} {arch : String} {c : Op} {ch : Chance} {s s' : Life} {r : c.Ans} {x : NodeRecord}
  {g : Global}

/-- The global store has the record of node `n`. -/
def Stored (n : Uuid) : NodeRecord → Global → Prop
  | .info, g => ∃ i ∈ g.nodes, i.uuid = n
  | .status, g => ∃ i ∈ g.nodesStatus, i.uuid = n

def Op.Puts (n : Uuid) : NodeRecord → Op → Prop
  | .info, .addNodeInfo i => i.uuid = n
  | .status, .addNodeStatus i => i.uuid = n
  | _, _ => False

def Op.Deletes (n : Uuid) : NodeRecord → Op → Prop
  | .info, .removeNodeInfo m => m = n
  | .status, .removeNodeStatus m => m = n
  | _, _ => False

/-- The answer tells that the record has been removed. -/
def Op.Removes (n : Uuid) : NodeRecord → (c : Op) → c.Ans → Prop
  | .info, .removeNodeInfo m, .ok _ => m = n
  | .status, .removeNodeStatus m, .ok _ => m = n
  | _, _, _ => False

/-- What an operation that does not fail makes of the global store. -/
def Op.change : Op → Global → Global
  | .addNodeInfo i, g => { g with nodes := g.nodes.put i }
  | .addNodeStatus i, g => { g with nodesStatus := g.nodesStatus.put i }
  | .removeNodeInfo n, g => { g with nodes := g.nodes.erase n }
  | .removeNodeStatus n, g => { g with nodesStatus := g.nodesStatus.erase n }
  | _, g => g

theorem getNodeInfo_eq_notFound : g.getNodeInfo n = .error .notFound ↔ ¬ Stored n .info g := by
  simp [Global.getNodeInfo, Stored, List.eq_nil_iff_forall_not_mem]

theorem getNodeStatus_eq_notFound : g.getNodeStatus n = .error .notFound ↔ ¬ Stored n .status g := by
  simp [Global.getNodeStatus, Stored, List.eq_nil_iff_forall_not_mem]

section Tables

variable {α : Type} {key : α → Uuid} {t : Table key} {a : α} {m : Uuid}

theorem exists_put : (∃ i ∈ t.put a, key i = n) ↔ (∃ i ∈ t, key i = n) ∨ key a = n := by
  constructor
  · rintro ⟨i, hi, hn⟩
    rcases Table.mem_put.1 hi with rfl | hi
    · exact Or.inr hn
    · exact Or.inl ⟨i, hi.1, hn⟩
  · rintro (⟨i, hi, hn⟩ | hn)
    · by_cases ha : key i = key a
      · exact ⟨a, Table.mem_put_self t a, ha.symm.trans hn⟩
      · exact ⟨i, Table.mem_put.2 (Or.inr ⟨hi, ha⟩), hn⟩
    · exact ⟨a, Table.mem_put_self t a, hn⟩

theorem exists_erase : (∃ i ∈ t.erase m, key i = n) ↔ (∃ i ∈ t, key i = n) ∧ m ≠ n := by
  constructor
  · rintro ⟨i, hi, rfl⟩
    obtain ⟨hi, hm⟩ := Table.mem_erase.1 hi
    exact ⟨⟨i, hi, rfl⟩, Ne.symm hm⟩
  · rintro ⟨⟨i, hi, rfl⟩, hm⟩
    exact ⟨i, Table.mem_erase.2 ⟨hi, Ne.symm hm⟩, rfl⟩

end Tables

/-- A record is there after an operation when it is put, or was there and is not deleted. -/
theorem stored_change : Stored n x (c.change g) ↔ c.Puts n x ∨ Stored n x g ∧ ¬ c.Deletes n x := by
  cases x <;> cases c <;>
    simp only [Stored, Op.change, Op.Puts, Op.Deletes, exists_put, exists_erase, false_or,
      not_false_iff, and_true, or_comm, ne_eq]

theorem Op.Removes.deletes (h : c.Removes n x r) : c.Deletes n x := by
  unfold Op.Removes at h
  split at h
  · exact h
  · exact h
  · exact h.elim

theorem Op.Deletes.not_puts (h : c.Deletes n x) : ¬ c.Puts n x := by
  unfold Op.Deletes at h
  split at h
  · exact id
  · exact id
  · exact h.elim

theorem exec_go (hx : exec c .go s = some (r, s')) : s'.global = c.change s.global := by
  cases c with
  | send =>
    simp only [exec] at hx
    split at hx
    · cases hx; rfl
    · split at hx <;> cases hx
      rfl
  | _ => cases hx <;> rfl

theorem exec_not_go (hx : exec c ch s = some (r, s')) (hch : ch ≠ .go) :
    s'.global = s.global ∧ ¬ c.Removes n x r := by
  unfold exec at hx
  split at hx
  all_goals first
    | exact absurd rfl hch
    | (cases hx; exact ⟨rfl, by cases x <;> exact id⟩)
    | skip
  · split at hx
    · cases hx
      exact ⟨rfl, by cases x <;> exact id⟩
    · cases hx
  · cases hx

theorem stored_or_puts (hx : exec c ch s = some (r, s')) (h : Stored n x s'.global) :
    Stored n x s.global ∨ c.Puts n x ∧ ch = .go := by
  by_cases hch : ch = .go
  · subst hch
    rw [exec_go hx] at h
    exact (stored_change.1 h).elim (fun h => Or.inr ⟨h, rfl⟩) fun h => Or.inl h.1
  · rw [(exec_not_go (n := n) (x := x) hx hch).1] at h
    exact Or.inl h

theorem not_stored (hx : exec c ch s = some (r, s')) (h : c.Removes n x r) :
    ¬ Stored n x s'.global := by
  by_cases hch : ch = .go
  · subst hch
    rw [exec_go hx, stored_change]
    rintro (hput | hstored)
    · exact h.deletes.not_puts hput
    · exact hstored.2 h.deletes
  · exact absurd h (exec_not_go hx hch).2

theorem stored_keeps (hx : exec c ch s = some (r, s')) (hc : ¬ c.Deletes n x)
    (h : Stored n x s.global) : Stored n x s'.global := by
  by_cases hch : ch = .go
  · subst hch
    rw [exec_go hx]
    exact stored_change.2 (Or.inr ⟨h, hc⟩)
  · rwa [(exec_not_go (n := n) (x := x) hx hch).1]

/-- The records of node `n` are put by `run`, and removed by `stop`. -/
def upkeep (n : Uuid) (arch : String) : Upkeep (machine n arch) NodeRecord where
  Has x s := Stored n x s.global
  Puts x c ch := c.Puts n x ∧ ch = .go
  Removes x c r := c.Removes n x r
  Keeps x c := ¬ c.Deletes n x
  put_or_had hx h := stored_or_puts hx h
  has_of_puts {x c ch s r s'} hx h := by
    obtain ⟨hput, rfl⟩ := h
    rw [exec_go hx]
    exact stored_change.2 (Or.inl hput)
  not_has hx h := not_stored hx h
  keeps hx hc h := stored_keeps hx hc h
  move {x e s s'} hm := by
    obtain ⟨-, hm⟩ := Option.ite_none_right_eq_some.1 hm
    obtain ⟨st, hst, rfl⟩ := Option.map_eq_some_iff.1 hm
    unfold Store.monitor at hst
    split at hst <;> cases hst
    cases x <;> exact Iff.rfl

section Programs

variable {α β : Type}

/-- It deletes no record of any node. -/
def Op.Harmless : Op → Prop
  | .removeNodeInfo _ | .removeNodeStatus _ => False
  | _ => True

theorem Op.Harmless.not_deletes (h : c.Harmless) : ¬ c.Deletes n x := by
  unfold Op.Deletes
  split
  · exact h.elim
  · exact h.elim
  · exact id

/-- Harmless, with no calls but those of the monitoring loop. -/
abbrev Quiet (p : Act α) : Prop := p.Within Op.Harmless (· = .monitoring)

theorem quiet_issue (h : c.Harmless) : Quiet (issue c) := ⟨h, fun _ => trivial⟩

theorem quiet_tried {f : Unit → Act α} {o : Except FError Unit} (h : Quiet (f ())) :
    Quiet (tried o >>= f) := by
  cases o with
  | ok _ => exact h
  | error e => trivial

theorem quiet_unwrapped {f : Unit → Act α} {o : Except FError Unit} (h : Quiet (f ())) :
    Quiet (unwrapped o >>= f) := by
  cases o with
  | ok _ => exact h
  | error e => trivial

theorem quiet_unwrap {o : Option α} {f : α → Act β} (h : ∀ a, Quiet (f a)) :
    Quiet (unwrap o >>= f) := by
  cases o with
  | some a => exact h a
  | none => trivial

theorem quiet_racing {wait : Act Bool} {rest : Act Unit} (hwait : Quiet wait) (h : Quiet rest) :
    Quiet (racing wait rest) := by
  apply hwait.bind
  intro ended
  cases ended with
  | true => trivial
  | false => exact h

theorem quiet_putting {put : Act (Except FError Unit)} {rest : Act Unit} (hput : Quiet put)
    (h : Quiet rest) : Quiet (putting put rest) :=
  quiet_racing (quiet_issue (by trivial)) <| hput.bind fun _ =>
    quiet_unwrapped (quiet_racing (quiet_issue (by trivial)) h)

theorem quiet_register (i : Interface) : Quiet (register i) :=
  (quiet_issue (by trivial)).bind fun _ => (quiet_issue (by trivial)).bind fun _ => quiet_tried <|
    (quiet_issue (by trivial)).bind fun _ => quiet_tried <| (quiet_issue (by trivial)).bind fun _ =>
      quiet_tried trivial

theorem quiet_takeDown (i : Interface) : Quiet (takeDown i) :=
  (quiet_issue (by trivial)).bind fun _ => quiet_tried <| (quiet_issue (by trivial)).bind fun _ =>
    quiet_tried <| (quiet_issue (by trivial)).bind fun o => by cases o <;> trivial

theorem quiet_monitoring : Quiet (monitoring n) :=
  quiet_racing (quiet_issue (by trivial)) <| (quiet_issue (by trivial)).bind fun _ => quiet_unwrap fun _ =>
    quiet_putting (quiet_issue (by trivial)) <| quiet_putting (quiet_issue (by trivial)) <|
      quiet_racing (quiet_issue (by trivial)) <| quiet_racing (quiet_issue (by trivial))
        ⟨rfl, fun _ => Prog.within_final _⟩

theorem quiet_advertise : Quiet (advertise n arch) :=
  (quiet_issue (by trivial)).bind fun _ => quiet_unwrap fun _ => (quiet_issue (by trivial)).bind fun _ =>
    quiet_unwrap fun _ => (quiet_issue (by trivial)).bind fun _ => quiet_unwrapped <|
      (quiet_issue (by trivial)).bind fun o => by cases o <;> trivial

theorem quiet_mainLoop : Quiet (mainLoop n arch) := by
  refine (quiet_register _).bind fun _ => (quiet_register _).bind fun _ =>
    (quiet_register _).bind fun u => (quiet_issue (by trivial)).bind fun _ => ?_
  refine (quiet_issue (by trivial)).bind fun _ => quiet_tried <| (quiet_issue (by trivial)).bind fun _ =>
    quiet_tried <| (quiet_issue (by trivial)).bind fun _ => quiet_tried <| quiet_advertise.bind fun _ => ?_
  refine (quiet_issue (by trivial)).bind fun _ => (quiet_racing (quiet_issue (by trivial)) ?_).bind fun _ =>
    (quiet_takeDown _).bind fun _ => (quiet_takeDown _).bind fun _ => quiet_takeDown _
  exact ⟨rfl, fun _ => Prog.within_final _⟩

theorem quiet_run : Quiet (run n arch) := by
  rw [run, Prog.attempt_bind]
  exact quiet_mainLoop.bindE fun o => (quiet_issue (by trivial)).bind fun _ => Prog.within_final o

/-- What is left of `stop` at its last removal, and at the one before. -/
theorem lastRemoval_owes :
    (issue (.removeNodeInfo n) >>= unwrapped).Owes (Op.Removes n .info) := by
  intro o
  cases o with
  | ok _ => exact Or.inl rfl
  | error e => exact Or.inr trivial

theorem removals_owe (x : NodeRecord) : (do
    unwrapped (← issue (.removeNodeStatus n))
    unwrapped (← issue (.removeNodeInfo n))).Owes (Op.Removes n x) := by
  intro o
  cases o with
  | ok _ =>
    cases x with
    | info => exact Or.inr lastRemoval_owes
    | status => exact Or.inl rfl
  | error e => exact Or.inr trivial

theorem stop_owes : (stop n).Owes (Op.Removes n x) := by
  intro r
  cases r with
  | some _ => exact Or.inr (removals_owe x)
  | none => exact Or.inr trivial

theorem stop_settles : (stop n).Settles (Op.Removes n x) fun c => ¬ c.Deletes n x := by
  refine ⟨Or.inl stop_owes, fun r => ?_⟩
  cases r with
  | none => trivial
  | some _ =>
    refine ⟨Or.inl (removals_owe x), fun o => ?_⟩
    cases o with
    | error e => trivial
    | ok _ =>
      refine ⟨?_, fun o => by cases o <;> trivial⟩
      cases x with
      | info => exact Or.inl lastRemoval_owes
      | status => exact Or.inr ⟨id, fun o => by cases o <;> trivial⟩

end Programs

section Runs

variable {w : Threads}

theorem not_owes_of_returned (h : Returned w) : ¬ w.Owes (· = .stop) (Op.Removes n x) := by
  rintro (⟨t, ht, -⟩ | ⟨⟨p, o⟩, ho, hp, e, he⟩)
  · rw [h.ended] at ht
    exact absurd ht List.not_mem_nil
  · obtain rfl : p = .stop := hp
    cases (h.returned _ ho e he).1

/-- When a record of the node is put, the removal of it is still to be done by `stop`. -/
def InOrder (n : Uuid) (l : Label Proc Chance Unit) (w : Threads) : Prop :=
  ∀ x i c, l = .fire i .go → w.upcoming i = some c → c.Puts n x → w.Owes (· = .stop) (Op.Removes n x)

theorem upkeep_inOrder {l : Label Proc Chance Unit} :
    (upkeep n arch).InOrder (· = .stop) l w ↔ InOrder n l w := by
  refine ⟨fun h x i c hl hup hput => h x i .go c hl hup ⟨hput, rfl⟩, ?_⟩
  rintro h x i ch c hl hup ⟨hput, rfl⟩
  exact h x i c hl hup hput

theorem started_tended (s : Life) :
    (upkeep n arch).Tended (· = .stop) (· = .monitoring) (started n arch s) := by
  intro t ht
  rcases List.mem_cons.1 ht with rfl | ht
  · exact Or.inr fun x => quiet_run.mono (fun c hc => hc.not_deletes) fun _ => id
  · obtain rfl := List.mem_singleton.1 ht
    exact Or.inl ⟨rfl, fun x => stop_settles⟩

/-- Once `stop` and `run` have returned, the global store has no record of the node, if
and only if `run` has put the records while `stop` had still to remove them. -/
theorem no_record_left_iff (s : Life)
    (hreach : (machine n arch).Reach (fun l _ => l.Goes) (started n arch s) w) (hret : Returned w) :
    (w.state.global.getNodeInfo n = .error .notFound ∧
      w.state.global.getNodeStatus n = .error .notFound) ↔
    (machine n arch).Reach (fun l w => l.Goes ∧ InOrder n l w) (started n arch s) w := by
  have hcalls : ∀ p, p = .monitoring → ∀ x,
      ((machine n arch).body p).Within ((upkeep n arch).Keeps x) (· = .monitoring) := by
    rintro _ rfl x
    exact quiet_monitoring.mono (fun c hc => hc.not_deletes) fun _ => id
  have howes : ∀ x, (started n arch s).Owes (· = .stop) ((upkeep n arch).Removes x) := fun x =>
    Or.inl ⟨_, List.mem_cons_of_mem _ (List.mem_singleton_self _), rfl, stop_owes⟩
  have hiff := Upkeep.gone_iff_inOrder hcalls howes (started_tended s) hreach fun x =>
    not_owes_of_returned hret
  simp only [upkeep_inOrder] at hiff
  rw [getNodeInfo_eq_notFound, getNodeStatus_eq_notFound, ← hiff]
  exact ⟨fun h x => by cases x; exacts [h.1, h.2], fun h => ⟨h .info, h .status⟩⟩

end Runs

/-- What the system reports in the runs below. -/
def reading : Sysinfo := ⟨[1000], 1024, [], [], []⟩

def fresh : Life where
  toStore := (boot [] [] []).toStore
  localNodes := Table.empty
  localNodesStatus := Table.empty
  instanceUuid := none
  copying := false
  sent := false
  closed := false

/-- Every operation succeeds; a future is pending when `waits` says so. -/
def resolve (waits : Life → Bool) (w : Threads) (i : ℕ) : Chance :=
  match w.upcoming i with
  | some (.newServer _) => .uuid 100
  | some .sysinfo => .reading (some reading)
  | some .await => if waits w.state then .pending else .go
  | _ => .go

def play (waits : Life → Bool) (ts : List (Turn Proc Unit)) : Option Threads :=
  (machine 0 "x86_64").script (resolve waits) (fun l _ => match l with
    | .fire _ _ => true
    | _ => false) ts (started 0 "x86_64" fresh)

theorem reach_of_play {waits : Life → Bool} {ts : List (Turn Proc Unit)} {w : Threads}
    (h : play waits ts = some w) :
    (machine 0 "x86_64").Reach (fun l _ => l.Goes) (started 0 "x86_64" fresh) w := by
  refine Machine.reach_of_script (fun l _ hl => ?_) h
  cases l with
  | fire i ch => trivial
  | _ => cases hl

instance (p : Proc) (o : Except Exn p.Ret) : Decidable (p.Returns o) :=
  match o with
  | .ok _ => .isTrue fun _ h => by cases h
  | .error e => decidable_of_iff (p = .run ∧ e ≠ .panic)
      ⟨fun h _ he => Except.error.inj he ▸ h, fun h => h e rfl⟩

theorem returned_of_play (waits : Life → Bool) (ts : List (Turn Proc Unit)) (q : Global → Bool)
    (h : (play waits ts).any (fun w => w.threads.isEmpty &&
      w.done.all (fun x => decide (x.1.Returns x.2)) && q w.state.global) = true) :
    ∃ w, (machine 0 "x86_64").Reach (fun l _ => l.Goes) (started 0 "x86_64" fresh) w ∧
      Returned w ∧ q w.state.global = true := by
  obtain ⟨w, hw, h⟩ := (Option.any_eq_true _ _).1 h
  obtain ⟨h, hq⟩ := Bool.and_eq_true_iff.1 h
  obtain ⟨hended, hdone⟩ := Bool.and_eq_true_iff.1 h
  exact ⟨w, reach_of_play hw, ⟨List.isEmpty_iff.1 hended, fun x hx =>
    of_decide_eq_true (List.all_eq_true.1 hdone x hx)⟩, hq⟩

/-- Stopped while the monitoring loop sleeps. -/
theorem no_record_left_asleep : ∃ w, Returned w ∧
    (machine 0 "x86_64").Reach (fun l w => l.Goes ∧ InOrder 0 l w) (started 0 "x86_64" fresh) w := by
  obtain ⟨w, hreach, hret, hgone⟩ := returned_of_play Life.sent
    (List.replicate 32 (.fire 0) ++ [.fire 1] ++ List.replicate 15 (.fire 0))
    (fun g => g.nodes.rows.isEmpty && g.nodesStatus.rows.isEmpty) (by decide +kernel)
  obtain ⟨hinfo, hstatus⟩ := Bool.and_eq_true_iff.1 hgone
  refine ⟨w, hret, (no_record_left_iff fresh hreach hret).1 ⟨?_, ?_⟩⟩
  · simp [Global.getNodeInfo, Table.select, List.isEmpty_iff.1 hinfo]
  · simp [Global.getNodeStatus, Table.select, List.isEmpty_iff.1 hstatus]

/-- `stop` is through before `run` advertises the node: both records are left. -/
theorem record_left : ∃ w, (machine 0 "x86_64").Reach (fun l _ => l.Goes) (started 0 "x86_64" fresh) w ∧
    Returned w ∧ (∃ i, w.state.global.getNodeInfo 0 = .ok i) ∧
    ∃ i, w.state.global.getNodeStatus 0 = .ok i := by
  obtain ⟨w, hreach, hret, hleft⟩ := returned_of_play (fun _ => false)
    (List.replicate 4 (.fire 1) ++ List.replicate 43 (.fire 0))
    (fun g => (g.getNodeInfo 0).toOption.any (fun _ => true) &&
      (g.getNodeStatus 0).toOption.any fun _ => true) (by decide +kernel)
  obtain ⟨hinfo, hstatus⟩ := Bool.and_eq_true_iff.1 hleft
  obtain ⟨i, hi, -⟩ := exists_ok hinfo
  obtain ⟨j, hj, -⟩ := exists_ok hstatus
  exact ⟨w, hreach, hret, ⟨i, hi⟩, j, hj⟩

end Fog05.Main
