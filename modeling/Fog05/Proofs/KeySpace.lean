import Fog05.Model.Call
import Fog05.Model.Serializers

/-! Key spaces: the paths of different scopes and families are apart, what is stored
under a path is an object of that family known by the ids in the path, and so a
call changes no answer but those about the object that it writes. -/

namespace Fog05.ZConnector

open Conc Zenoh

section Paths

variable [DisplayUuid]

@[simp] theorem display_ne_star (u : Uuid) : display u ≠ "*" := fun h => by
  have := DisplayUuid.no_star u
  simp [show DisplayUuid.display u = "*" from h] at this

@[simp] theorem display_inj {u v : Uuid} : display u = display v ↔ u = v :=
  DisplayUuid.injective.eq_iff

theorem matches_query {q : List (Option Uuid)} {ids : List Uuid} :
    Matches "*" (q.map fun id => id.elim "*" display) (ids.map display) ↔ Fits q ids := by
  induction q generalizing ids with
  | nil => cases ids <;> simp [Fits]
  | cons o q ih =>
    cases ids with
    | nil => simp [Fits]
    | cons u ids =>
      rw [List.map_cons, List.map_cons, matches_cons, ih, Fits, Fits, List.forall₂_cons]
      cases o <;> simp

namespace Space

variable {s s' : Space} {q : List (Option Uuid)} {ids ids' : List Uuid}

/-- The family that the space belongs to, of either connector. -/
def kind : Space → Global.Family ⊕ Local.Family
  | inGlobal _ f => .inl f
  | inLocal _ f => .inr f

/-- The space's objects belong to a tenant or a node. -/
def Owned : Space → Prop
  | inGlobal _ .systemInfo | inGlobal _ .systemConfig => False
  | _ => True

theorem base_of_owned {c : Global} {f : Global.Family} (h : Owned (inGlobal c f)) :
    base (inGlobal c f) = [display c.systemId, display c.tenantId] := by
  cases f <;> first | rfl | exact h.elim

/-- So many ids are needed to fill the paths of the space. -/
def Takes (s : Space) (n : ℕ) : Prop := s.base.length + n = s.template.arity

omit [DisplayUuid] in
theorem clash (h : s.kind ≠ s'.kind) : s.template.Clash s'.template := by
  rcases s with ⟨c, f⟩ | ⟨c, f⟩ <;> rcases s' with ⟨c', f'⟩ | ⟨c', f'⟩ <;> cases f <;> cases f' <;>
    first | exact absurd rfl h | exact of_decide_eq_true rfl

omit [DisplayUuid] in
theorem literal (s : Space) : s.template.Literal "*" := by
  rcases s with ⟨c, f⟩ | ⟨c, f⟩ <;> cases f <;> exact of_decide_eq_true rfl

theorem eq_of_matches (ho : s'.Owned) (hq : s.Takes q.length) (hi : s'.Takes ids.length)
    (h : Matches "*" (s.selector q) (s'.path ids)) : s = s' ∧ Fits q ids := by
  have hlen : (s.base ++ q.map fun id => id.elim "*" display).length = s.template.arity := by
    rw [List.length_append, List.length_map]
    exact hq
  have hlen' : (s'.base ++ ids.map display).length = s'.template.arity := by
    rw [List.length_append, List.length_map]
    exact hi
  by_cases hk : s.kind = s'.kind
  · cases s with
    | inGlobal c f =>
      cases s' with
      | inLocal c' f' => cases hk
      | inGlobal c' f' =>
        obtain rfl := Sum.inl.inj hk
        have hb : (inGlobal c f).Owned := by cases f <;> exact ho
        have hm := (Template.matches_format hlen hlen').1 h
        rw [base_of_owned hb, base_of_owned ho] at hm
        simp only [List.cons_append, List.nil_append, matches_cons, display_ne_star, display_inj,
          false_or, matches_query] at hm
        obtain ⟨hs, ht, hfit⟩ := hm
        exact ⟨congrArg (inGlobal · f) (Global.ext hs ht), hfit⟩
    | inLocal c f =>
      cases s' with
      | inGlobal c' f' => cases hk
      | inLocal c' f' =>
        obtain rfl := Sum.inr.inj hk
        have hm := (Template.matches_format hlen hlen').1 h
        simp only [base, List.cons_append, List.nil_append, matches_cons, display_ne_star,
          display_inj, false_or, matches_query] at hm
        exact ⟨congrArg (inLocal · f) (Local.ext hm.1), hm.2⟩
  · exact absurd h (Template.not_matches_of_clash (clash hk) s.literal hlen hlen')

omit [DisplayUuid] in
theorem fits_map_some : Fits (ids.map some) ids' ↔ ids = ids' := by
  rw [Fits, List.forall₂_map_left_iff]
  simp

/-- Paths tell the space and the ids. -/
theorem path_inj (ho : s'.Owned) (hi : s.Takes ids.length) (hi' : s'.Takes ids'.length)
    (h : s.path ids = s'.path ids') : s = s' ∧ ids = ids' := by
  have hsel : s.selector (ids.map some) = s.path ids := by
    rw [selector, path, List.map_map]
    rfl
  obtain ⟨hs, hfit⟩ := eq_of_matches (s := s) (q := ids.map some) ho (by simpa using hi) hi'
    (by rw [hsel, h]; exact matches_self _)
  exact ⟨hs, fits_map_some.1 hfit⟩

end Space

theorem Call.writes_of_target {α : Type} {call : Call α} {z : Zenoh}
    {ids : List Uuid} (h : call.target = some (ids.map some)) :
    call.Writes z ids :=
  ⟨_, h, Space.fits_map_some.2 rfl, by simp⟩

theorem Call.takes_query {α : Type} (call : Call α) {q : List (Option Uuid)}
    (h : call.query = some q) : call.space.Takes q.length := by
  rcases call with ⟨c, call⟩ | ⟨c, call⟩ <;> cases call <;> cases h <;> rfl

end Paths

section Reads

variable {α : Type} [Serde α] {sel : Path} {z z' : Zenoh}

theorem getOne_congr (h : z.get sel = z'.get sel) :
    (getOne sel z : Except FError α) = getOne sel z' := by
  rw [getOne, getOne, h]

theorem getAll_congr (h : z.get sel = z'.get sel) :
    (getAll sel z : Except FError (List α)) = getAll sel z' := by
  rw [getAll, getAll, h]

theorem add_answer {path : Path} {info : α} : (add path info z).1 = (add path info z').1 := by
  unfold add
  split <;> rfl

theorem add_store (path : Path) (info : α) (z : Zenoh) :
    ∃ buf, deserializeData buf = .ok info ∧ (add path info z).2 = z.put (path, .raw buf) := by
  have hrt := Serde.round_trip info
  unfold add
  cases hs : serializeData info with
  | error e =>
    rw [hs] at hrt
    exact nomatch hrt
  | ok buf =>
    rw [hs] at hrt
    exact ⟨buf, hrt, rfl⟩

theorem removeFound_answer {β : Type} {found found' : Except FError β} {path : β → Path}
    (h : found = found') : (removeFound found path z).1 = (removeFound found' path z').1 := by
  rw [h]
  cases found' <;> rfl

end Reads

section Calls

variable [DisplayUuid] [Serde NodeInfo] [Serde NodeStatus] [Serde PluginInfo]
  [Serde Types.VirtualNetwork] [Serde Types.ConnectionPoint] [Serde Types.VirtualInterface]
  [Serde Types.NetworkNamespace] [Serde FDUDescriptor] [Serde FDURecord]
  [Serde EntityDescriptor] [Serde EntityRecord] {α : Type}

/-- The value is an encoding of an object known by `ids`. -/
def Encodes [Serde α] (key : α → List Uuid) (ids : List Uuid) (v : Value) : Prop :=
  ∃ a, decode v = .ok a ∧ key a = ids

/-- What may be stored under the path of `ids`. -/
def Space.Holds (ids : List Uuid) (v : Value) : Space → Prop
  | inGlobal _ .nodeInfo => Encodes (fun a : NodeInfo => [a.uuid]) ids v
  | inGlobal _ .nodeStatus => Encodes (fun a : NodeStatus => [a.uuid]) ids v
  | inGlobal _ .virtualNetwork => Encodes (fun a : Types.VirtualNetwork => [a.uuid]) ids v
  | inGlobal _ .connectionPoint => Encodes (fun a : Types.ConnectionPoint => [a.uuid]) ids v
  | inGlobal _ .interface => Encodes (fun a : Types.VirtualInterface => [a.uuid]) ids v
  | inGlobal _ .fdu => Encodes (fun a : FDUDescriptor => a.uuid.toList) ids v
  | inGlobal _ .fduInstance => Encodes (fun a : FDURecord => [a.fduUuid, a.uuid]) ids v
  | inGlobal _ .entity => Encodes (fun a : EntityDescriptor => a.uuid.toList) ids v
  | inGlobal _ .entityInstance => Encodes (fun a : EntityRecord => [a.id, a.uuid]) ids v
  | inGlobal _ .systemInfo | inGlobal _ .systemConfig | inGlobal _ .plugin => False
  | inLocal _ .nodeInfo => Encodes (fun _ : NodeInfo => []) ids v
  | inLocal _ .nodeStatus => Encodes (fun _ : NodeStatus => []) ids v
  | inLocal _ .plugin => Encodes (fun a : PluginInfo => [a.uuid]) ids v
  | inLocal _ .virtualNetwork => Encodes (fun a : Types.VirtualNetwork => [a.uuid]) ids v
  | inLocal _ .connectionPoint => Encodes (fun a : Types.ConnectionPoint => [a.uuid]) ids v
  | inLocal _ .interface => Encodes (fun a : Types.VirtualInterface => [a.uuid]) ids v
  | inLocal _ .networkNamespace => Encodes (fun a : Types.NetworkNamespace => [a.uuid]) ids v
  | inLocal _ .fduInstance => Encodes (fun a : FDURecord => [a.fduUuid, a.uuid]) ids v

/-- Whatever is stored belongs to an object, under a path of its family. -/
def Filed (z : Zenoh) : Prop :=
  ∀ row ∈ z, ∃ s : Space, ∃ ids, s.Owned ∧ s.Takes ids.length ∧ row.1 = s.path ids ∧
    s.Holds ids row.2

theorem Filed.found {β : Type} [Serde β] {z : Zenoh} (hz : Filed z) {s : Space}
    {q : List (Option Uuid)} {a : β} (hq : s.Takes q.length)
    (h : getOne (s.selector q) z = .ok a) :
    ∃ ids v, Fits q ids ∧ s.Owned ∧ s.Takes ids.length ∧ (s.path ids, v) ∈ z ∧
      decode v = .ok a ∧ s.Holds ids v := by
  rw [getOne] at h
  cases hs : single (z.get (s.selector q)) with
  | error e =>
    rw [hs] at h
    exact nomatch h
  | ok row =>
    rw [hs] at h
    have hmem : row ∈ z.get (s.selector q) := by simp [single_eq_ok.1 hs]
    obtain ⟨hrow, hm⟩ := Table.mem_select.1 hmem
    obtain ⟨s', ids, ho, ht, hp, hh⟩ := hz row hrow
    rw [hp] at hm
    obtain ⟨rfl, hfit⟩ := Space.eq_of_matches ho hq ht hm
    exact ⟨ids, row.2, hfit, ho, ht, hp ▸ hrow, h, hh⟩

/-- From the store `z` to `z'` nothing happens, or the object that the call writes is put or
erased. -/
def Call.Alters (call : Call α) (z z' : Zenoh) : Prop :=
  z' = z ∨
  ∃ ids, call.Writes z ids ∧ call.space.Owned ∧ call.space.Takes ids.length ∧
    ((∃ v, call.space.Holds ids v ∧ z' = z.put (call.space.path ids, v)) ∨
      z' = z.erase (call.space.path ids))

theorem Filed.step {z z' : Zenoh} (hz : Filed z) {call : Call α} (h : call.Alters z z') :
    Filed z' := by
  rcases h with rfl | ⟨ids, -, ho, hi, ⟨v, hh, rfl⟩ | rfl⟩
  · exact hz
  · intro row hrow
    rcases Table.mem_put.1 hrow with rfl | ⟨hold, -⟩
    · exact ⟨call.space, ids, ho, hi, rfl, hh⟩
    · exact hz row hold
  · exact fun row hrow => hz row (Table.mem_erase.1 hrow).1

/-- A selector that does not match what a call writes returns what it returned before. -/
theorem Call.Alters.get {call : Call α} {z z' : Zenoh} (h : call.Alters z z') {sel : Path}
    (hsel : ∀ ids, call.Writes z ids → call.space.Owned → call.space.Takes ids.length →
      ¬ Matches "*" sel (call.space.path ids)) : z'.get sel = z.get sel := by
  rcases h with rfl | ⟨ids, hw, ho, hi, ⟨v, -, rfl⟩ | rfl⟩
  · rfl
  · exact Table.select_put_of_not (hsel ids hw ho hi)
  · exact Table.select_erase_of_not (hsel ids hw ho hi)

variable [Serde Types.SystemInfo] [Serde Types.SystemConfig]

/-- The answer to a call is decided by the rows that its query selects. -/
theorem Call.run_congr (call : Call α) {z z' : Zenoh}
    (h : ∀ q, call.query = some q → z.get (call.space.selector q) = z'.get (call.space.selector q)) :
    (call.run z).1 = (call.run z').1 := by
  cases call with
  | inGlobal c call =>
    cases call with
    | getSystemInfo =>
      show c.getSystemInfo z = c.getSystemInfo z'
      have hsel : z.get (c.sys Global.sysInfoPath) = z'.get (c.sys Global.sysInfoPath) := h [] rfl
      rw [Global.getSystemInfo, Global.getSystemInfo, hsel]
    | addFdu fduInfo | addEntity fduInfo =>
      rcases fduInfo with ⟨_ | _, _⟩
      · rfl
      · exact add_answer
    | removeInstance | removeEntityInstance => exact removeFound_answer (getOne_congr (h _ rfl))
    | _ => first | rfl | exact getOne_congr (h _ rfl) | exact getAll_congr (h _ rfl) | exact add_answer
  | inLocal c call =>
    cases call with
    | removeInstance => exact removeFound_answer (getOne_congr (h _ rfl))
    | _ => first | rfl | exact getOne_congr (h _ rfl) | exact getAll_congr (h _ rfl) | exact add_answer

section Alters

variable {call : Call α} {z : Zenoh} {β : Type} [Serde β]

theorem Call.alters_add (info : β) (key : β → List Uuid)
    (hr : (call.run z).2 = (add (call.space.path (key info)) info z).2)
    (hh : ∀ v, Encodes key (key info) v → call.space.Holds (key info) v)
    (ht : call.target = some ((key info).map some)) (ho : call.space.Owned)
    (hi : call.space.Takes (key info).length) : call.Alters z (call.run z).2 := by
  obtain ⟨buf, hbuf, he⟩ := add_store (call.space.path (key info)) info z
  refine Or.inr ⟨key info, writes_of_target ht, ho, hi, Or.inl ⟨.raw buf, ?_, hr.trans he⟩⟩
  exact hh _ ⟨info, hbuf, rfl⟩

theorem Call.alters_remove (ids : List Uuid)
    (hr : (call.run z).2 = (remove (call.space.path ids) z).2)
    (ht : call.target = some (ids.map some)) (ho : call.space.Owned)
    (hi : call.space.Takes ids.length) : call.Alters z (call.run z).2 :=
  Or.inr ⟨ids, writes_of_target ht, ho, hi, Or.inr hr⟩

theorem Call.alters_removeFound (hz : Filed z) (key : β → List Uuid) (q : List (Option Uuid))
    (hr : (call.run z).2 = (removeFound (getOne (call.space.selector q) z)
      (fun a => call.space.path (key a)) z).2)
    (hh : ∀ ids v, call.space.Holds ids v → Encodes key ids v) (ht : call.target = some q)
    (hq : call.space.Takes q.length) : call.Alters z (call.run z).2 := by
  rw [hr]
  cases hg : (getOne (call.space.selector q) z : Except FError β) with
  | error e => exact Or.inl rfl
  | ok a =>
    obtain ⟨ids, v, hfit, ho, hi, hmem, hdec, hhold⟩ := hz.found hq hg
    obtain ⟨a', hdec', rfl⟩ := hh ids v hhold
    obtain rfl : a' = a := Except.ok.inj (hdec'.symm.trans hdec)
    exact Or.inr ⟨key a', ⟨q, ht, hfit, fun _ => ⟨v, hmem⟩⟩, ho, hi, Or.inr rfl⟩

end Alters

theorem Call.run_store (call : Call α) {z : Zenoh} (hz : Filed z) :
    call.Alters z (call.run z).2 := by
  rcases call with ⟨c, call⟩ | ⟨c, call⟩
  · cases call with
    | addNodeInfo i | addNodeStatus i | addVirutalNetwork i | addConnectionPoint i
    | addInterface i =>
      exact alters_add i (fun a => [a.uuid]) rfl (fun _ h => h) rfl trivial rfl
    | addFdu i =>
      rcases i with ⟨_ | uuid, hv, image, req, ifs, cps, others⟩
      · exact Or.inl rfl
      · exact alters_add (FDUDescriptor.mk (some uuid) hv image req ifs cps others)
          (fun a => a.uuid.toList) rfl (fun _ h => h) rfl trivial rfl
    | addEntity i =>
      rcases i with ⟨_ | uuid, fdus, others⟩
      · exact Or.inl rfl
      · exact alters_add (EntityDescriptor.mk (some uuid) fdus others)
          (fun a => a.uuid.toList) rfl (fun _ h => h) rfl trivial rfl
    | addInstance i =>
      exact alters_add i (fun a => [a.fduUuid, a.uuid]) rfl (fun _ h => h) rfl trivial rfl
    | addEntityInstance i =>
      exact alters_add i (fun a => [a.id, a.uuid]) rfl (fun _ h => h) rfl trivial rfl
    | removeNodeInfo u | removeNodeStatus u | removeVirtualNetwork u | removeConnectionPoint u
    | removeInterface u | removeFdu u | removeEntity u =>
      exact alters_remove [u] rfl rfl trivial rfl
    | removeInstance u =>
      exact alters_removeFound hz (fun a : FDURecord => [a.fduUuid, a.uuid]) [none, some u]
        rfl (fun _ _ h => h) rfl rfl
    | removeEntityInstance u =>
      exact alters_removeFound hz (fun a : EntityRecord => [a.id, a.uuid]) [none, some u]
        rfl (fun _ _ h => h) rfl rfl
    | _ => exact Or.inl rfl
  · cases call with
    | addNodeInfo i | addNodeStatus i =>
      exact alters_add i (fun _ => []) rfl (fun _ h => h) rfl trivial rfl
    | addPlugin i | addVirutalNetwork i | addConnectionPoint i | addInterface i
    | addNetworkNamespace i =>
      exact alters_add i (fun a => [a.uuid]) rfl (fun _ h => h) rfl trivial rfl
    | addInstance i =>
      exact alters_add i (fun a => [a.fduUuid, a.uuid]) rfl (fun _ h => h) rfl trivial rfl
    | removeNodeInfo | removeNodeStatus => exact alters_remove [] rfl rfl trivial rfl
    | removePlugin u | removeVirtualNetwork u | removeConnectionPoint u | removeInterface u
    | removeNetworkNamespace u => exact alters_remove [u] rfl rfl trivial rfl
    | removeInstance u =>
      exact alters_removeFound hz (fun a : FDURecord => [a.fduUuid, a.uuid]) [none, some u]
        rfl (fun _ _ h => h) rfl rfl
    | _ => exact Or.inl rfl

theorem filed_runAll (calls : List (Call Unit)) : Filed (Call.runAll calls) := by
  have hrun : ∀ z, Filed z → Filed (calls.foldl (fun z call => (call.run z).2) z) := by
    induction calls with
    | nil => exact fun z hz => hz
    | cons call calls ih => exact fun z hz => ih _ (hz.step (call.run_store hz))
  exact hrun _ fun row hrow => absurd hrow (Table.not_mem_empty row)

/-- Whatever the connectors have done before, a call changes the answer to another call only if
both are about one family in one scope and the other looks up the object that it writes. -/
theorem call_isolated (calls : List (Call Unit)) (write : Call Unit) (call : Call α) :
    (call.run (write.run (Call.runAll calls)).2).1 = (call.run (Call.runAll calls)).1 ∨
    write.space = call.space ∧
      ∃ ids, write.Writes (Call.runAll calls) ids ∧ call.Selects ids := by
  have halt := write.run_store (filed_runAll calls)
  by_cases hsel : ∃ ids, write.Writes (Call.runAll calls) ids ∧ call.Selects ids ∧
    write.space = call.space
  · obtain ⟨ids, hw, hs, hsp⟩ := hsel
    exact Or.inr ⟨hsp, ids, hw, hs⟩
  · refine Or.inl (call.run_congr fun q hq => halt.get fun ids hw ho hi hm => hsel ?_)
    obtain ⟨hsp, hfit⟩ := Space.eq_of_matches ho (call.takes_query hq) hi hm
    exact ⟨ids, hw, ⟨q, hq, hfit⟩, hsp.symm⟩

end Calls

/-- An instance of FDU `f` on node `n`, and nothing else about it. -/
def plainRecord (uuid f n : Uuid) : FDURecord := ⟨uuid, f, n, [], [], .defined, none, none, 0⟩

/-- One system, of whose tenants one has an instance 1. -/
def oneInstance : List (Call Unit) := [.inGlobal ⟨3, 4⟩ (.addInstance (plainRecord 1 50 7))]

/-- Records written to the local store of a node of the same uuid, removed at another tenant
and written under another uuid. -/
def elsewhere : List (Call Unit) :=
  [.inLocal ⟨3⟩ (.addInstance (plainRecord 1 50 9)), .inGlobal ⟨3, 5⟩ (.removeInstance 1),
    .inGlobal ⟨3, 4⟩ (.addInstance (plainRecord 2 50 9))]

theorem call_isolated_instance :
    ((Global.mk 3 4).getInstance 1 (Call.runAll oneInstance)).toOption.map FDURecord.node = some 7 ∧
      ∀ write ∈ elsewhere, (Global.mk 3 4).getInstance 1 (write.run (Call.runAll oneInstance)).2 =
        (Global.mk 3 4).getInstance 1 (Call.runAll oneInstance) := by
  refine ⟨by decide +kernel, fun write hwrite => ?_⟩
  rcases call_isolated oneInstance write (.inGlobal ⟨3, 4⟩ (.getInstance 1)) with
    h | ⟨hspace, ids, ⟨q, hq, hfits, -⟩, q', hq', hfits'⟩
  · exact h
  · simp only [elsewhere, List.mem_cons, List.not_mem_nil, or_false] at hwrite
    rcases hwrite with rfl | rfl | rfl
    · cases hspace
    · cases hspace
    · cases hq
      cases hq'
      obtain ⟨f, u, rfl⟩ : ∃ f u, ids = [f, u] := List.length_eq_two.1 hfits.length_eq.symm
      simp [Fits, plainRecord] at hfits hfits'
      exact absurd (hfits.2.trans hfits'.symm) (by decide)

end Fog05.ZConnector
