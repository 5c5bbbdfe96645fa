import Fog05.Proofs.Dismantling
import Fog05.Proofs.Independence

/-! A descheduling that has failed, and is called again. It starts over at the first FDU
instance of the record, and so goes through exactly while all of them run. -/

namespace Fog05

open Conc M Agent

variable {z : Session} {ok : Choice → Prop} [Fair ok] {s s₁ s₂ : Fos} {c c' : Agent}
variable {u svc : Uuid} {us : List Uuid} {r r₁ : EntityRecord} {descriptor : EntityDescriptor}
variable {L : Uuid → Prop} {q : Teardown}

/-- Evaluate such a call, with the commands of its task failing where `bad` holds. -/
def attempt (sites : List Site) (bad : Cmd → Bool) (s : Fos) (svc u : Uuid) : Option Fos :=
  match playUsual sites s (Prog.invoke (Proc.agent svc (.descheduleEntity u))) with
  | some (.ok _, s₂) =>
      match launch s₂ with
      | some (.task t, s₃) =>
          ((machine (Site.session sites)).drive (failing bad (.zError "timeout"))
            (sites.map fun site => site.info.uuid) 10000 s₃
              (t.body (Site.session sites))).map Prod.snd
      | _ => none
  | _ => none

omit [Fair ok] in
theorem Untouched.settled (h : Untouched s s₁) (hs : Settled s)
    (hfree : ∀ p, (s₁.plugin p).locked = false) (hissued : s₁.issued = s.issued) : Settled s₁ where
  still n := by
    rw [h.node]
    exact hs.still n
  free := hfree
  mirror i := by
    rw [h.instances, h.node]
    exact hs.mirror i
  home n := by
    rw [h.node]
    exact hs.home n
  unique := by
    rw [h.instances]
    exact hs.unique
  issued := by
    rw [h.instances, hissued]
    exact hs.issued

omit [Fair ok] in
theorem Untouched.alive (h : Untouched s s₁) (hr : Alive c s descriptor r) {status : EntityStatus}
    (hentities : s₁.global.entities = s.global.entities)
    (hr₁ : s₁.global.getEntityInstance r.uuid = .ok { r with status }) :
    Alive c s₁ descriptor { r with status } where
  record := hr₁
  entity := by
    rw [Global.getEntity, hentities]
    exact hr.entity
  nodup := hr.nodup
  up := hr.up.imp fun _ _ hup => hup.transfer (fun i hi _ => h.instances ▸ hi)
    (fun f _ => by rw [Global.getFdu, h.fdus, Global.getFdu]) (fun n => by rw [h.node]) h.nodes

theorem Served.alive (hs : Settled s) (hidle : s.tasks = [])
    (hc : z.server c.instanceUuid = some c.nodeUuid) (hadv : Advertised z s) {entity : Uuid}
    (hentity : s.global.getEntity entity = .ok descriptor)
    (h : Served z c.instanceUuid (.scheduleEntity entity) s u s₁)
    (hr : s₁.global.getEntityInstance u = .ok r) (hrun : r.status = .running) :
    Settled s₁ ∧ s₁.tasks = [] ∧ Advertised z s₁ ∧ r.uuid = u ∧ Alive c s₁ descriptor r := by
  obtain ⟨d, us, hd, -, hup, rfl⟩ := h.scheduled hs hidle hc hadv hr hrun
  obtain rfl : d = descriptor := Except.ok.inj (hd.symm.trans hentity)
  refine ⟨hup.settled, hup.tasks, ?_, rfl, hup.alive hentity hr⟩
  rw [Advertised, hup.nodes]
  exact hadv

def stops : Cmd → Bool
  | .access (.request (.agent _ (.stopFdu _))) => true
  | _ => false

end Fog05
