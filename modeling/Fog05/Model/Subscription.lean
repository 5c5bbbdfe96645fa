import Fog05.Conc.Poll
import Fog05.Model.Connector

/-! The two subscriptions to the instances of a node: `FDURecordStream`, which is
polled, and the loop of `Local::subscribe_instances`, which sends on a channel that
its caller holds. Both read the changes that zenoh reports under the selector. -/

namespace Fog05

open Conc

inductive ChangeKind
  | put
  | patch
  | delete

structure Change where
  kind : ChangeKind
  value : Option Value

/-- `deserialize_data::<FDURecord>`, as the feature chosen at build time implements it. -/
abbrev DeserializeFDURecord := List UInt8 → Except FError FDURecord

variable (deserializeData : DeserializeFDURecord)

/-- `poll_next`, from the answer of the change receiver. -/
def FDURecordStream.pollNext : Poll (Option Change) → Poll (Option FDURecord)
  | .ready (some change) =>
    match change.kind with
    | .put | .patch =>
      match change.value with
      | some value =>
        match value with
        | .raw buf =>
          match deserializeData buf with
          | .ok info => .ready (some info)
          | .error _ => .pending
        | .other => .pending
      | none => .pending
    | .delete => .pending
  | .ready none => .ready none
  | .pending => .pending

def FDURecordStream.records (changes : Source Change) : List FDURecord :=
  yields (pollNext deserializeData) changes.closed changes.moments

/-- Every poll that finds the stream pending found the change receiver pending. -/
def FDURecordStream.NeverStalls (changes : Source Change) : Prop :=
  Awaited (pollNext deserializeData) changes.closed changes.moments

def Local.sent (change : Change) : Option FDURecord :=
  match change.kind with
  | .put | .patch =>
    match change.value with
    | some value =>
      match value with
      | .raw buf =>
        match deserializeData buf with
        | .ok info => some info
        | .error _ => none
      | .other => none
    | none => none
  | .delete => none

/-- The records that the loop of `subscribe_instances` sends on its channel. -/
def Local.subscribeInstances (changes : Source Change) : List FDURecord :=
  Source.loop (Local.sent deserializeData) changes.closed changes.moments

end Fog05
