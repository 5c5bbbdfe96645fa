import Fog05.Proofs.Lifecycle

/-! A deployment that has just booted is settled, and its nodes advertise the
agents that serve them. The small site and the plain descriptor are for runs
that are evaluated. -/

namespace Fog05

open Conc

theorem boot_settled (sites : List Site) (fdus : List FDUDescriptor)
    (entities : List EntityDescriptor) : Settled (boot sites fdus entities) where
  still _ := rfl
  free _ := rfl
  mirror inst := ⟨fun h => absurd h (Table.not_mem_empty inst), fun h =>
    absurd h (Table.not_mem_empty inst)⟩
  home _ inst h := absurd h (Table.not_mem_empty inst)
  unique inst h := absurd h (Table.not_mem_empty inst)
  issued inst h := absurd h (Table.not_mem_empty inst)

def Site.small (nodeUuid service plugin : Uuid) : Site where
  info := ⟨nodeUuid, [⟨1000, "x86_64"⟩], service⟩
  status := ⟨nodeUuid, ⟨1024⟩, [⟨"/", 1024⟩], []⟩
  hypervisors name := if name = "dummy" then some plugin else none

def FDUDescriptor.plain (f : Uuid) : FDUDescriptor where
  uuid := some f
  hypervisor := "dummy"
  image := none
  computationRequirements := ⟨"x86_64", 0, 1, 0, 0⟩
  interfaces := []
  connectionPoints := []
  others := []

def EntityDescriptor.plain (e : Uuid) (fdus : List FDUDescriptor) : EntityDescriptor where
  uuid := some e
  fdus := fdus
  others := []

/-- Resolve every command in its normal course. -/
def usual : Cmd → Fos → Choice
  | .net _ _, _ => .net (.ok ⟨0, some 0⟩)
  | .newUuid, s => .uuid s.issued.length
  | .choose (_ :: _), _ => .pick 0
  | .pathExists _, _ => .path true
  | _, _ => .go

theorem healthy_usual (c : Cmd) (s : Fos) : Healthy (usual c s) := by
  unfold usual
  split <;> trivial

theorem Healthy.reliable {ch : Choice} (h : Healthy ch) : Reliable ch := by
  cases ch with
  | fault e => exact h
  | _ => trivial

theorem unreliable (ch : Choice) (_ : Healthy ch) : Unreliable ch := trivial

/-- Where `bad` holds, a command fails; all others take their normal course. -/
def failing (bad : Cmd → Bool) (e : FError) (c : Cmd) (s : Fos) : Choice :=
  if bad c then .fault e else usual c s

/-- The status that both copies of the record of `u` have. -/
def recorded (s : Fos) (n u : Uuid) : Option FDUState :=
  match s.global.getInstance u, (s.node n).getInstance u with
  | .ok i, .ok j => if i.status = j.status then some i.status else none
  | _, _ => none

def failure {α : Type} : Except Exn α → Option Exn
  | .ok _ => none
  | .error e => some e

theorem failure_eq_some {α : Type} {o : Except Exn α} {e : Exn} :
    failure o = some e ↔ o = .error e := by
  cases o <;> simp [failure]

/-- Run a program with nothing failing and every change copied at once. -/
def playUsual {α : Type} (sites : List Site) (s : Fos) (p : M α) : Option (Except Exn α × Fos) :=
  (machine (Site.session sites)).drive usual (sites.map fun site => site.info.uuid) 10000 s p

theorem runs_of_playUsual {α : Type} {ok : Choice → Prop} (hok : ∀ ch, Healthy ch → ok ch)
    {sites : List Site} {s s' : Fos} {p : M α} {o : Except Exn α}
    (h : playUsual sites s p = some (o, s')) :
    ∃ k, (system (Site.session sites) ok).Runs k s p s' (.final o) :=
  Machine.runs_of_drive ok (fun c s => hok _ (healthy_usual c s)) h

/-- In a script, too, every command is resolved in its normal course. -/
def resolve (w : Calls) (i : ℕ) : Choice :=
  (w.upcoming i).elim .go fun c => usual c w.state

def fires (i k : ℕ) : List (Turn Proc Uuid) := List.replicate k (.fire i)

def oneSite : List Site := [.small 0 100 7]

def twoSites : List Site := [.small 0 100 7, .small 1 101 8]

end Fog05
