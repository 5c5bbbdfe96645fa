import Fog05.Model.Subscription
import Mathlib.Data.List.TakeWhile

/-! The loop skips a change without a record by going on to the next; `poll_next`
answers that it is pending without having been woken for later, and is not polled
again. The two deliver the same as long as every change carries a record. -/

namespace Fog05

open Conc

variable (deserializeData : DeserializeFDURecord) (changes : Source Change)

/-- The change puts or patches a value that decodes. -/
def Change.Carries (change : Change) : Prop :=
  change.kind ≠ .delete ∧ ∃ buf r, change.value = some (.raw buf) ∧ deserializeData buf = .ok r

theorem sent_isSome_iff (change : Change) :
    (Local.sent deserializeData change).isSome ↔ change.Carries deserializeData := by
  obtain ⟨kind, value⟩ := change
  cases kind
  case delete => simp [Local.sent, Change.Carries]
  all_goals
    obtain - | value := value
    · simp [Local.sent, Change.Carries]
    · cases value with
      | other => simp [Local.sent, Change.Carries]
      | raw buf => cases hd : deserializeData buf <;> simp [Local.sent, Change.Carries, hd]

/-- The two functions read the same out of a change, and what one skips the other is
pending at. -/
theorem pollNext_passes :
    Passes (FDURecordStream.pollNext deserializeData) (Local.sent deserializeData) where
  ends := rfl
  waits := rfl
  reads change := by
    obtain ⟨kind, value⟩ := change
    cases kind
    case delete => rfl
    all_goals
      obtain - | value := value
      · rfl
      · cases value with
        | other => rfl
        | raw buf =>
          cases hd : deserializeData buf <;> simp [FDURecordStream.pollNext, Local.sent, hd]

theorem subscribeInstances_eq : Local.subscribeInstances deserializeData changes =
    changes.items.filterMap (Local.sent deserializeData) :=
  Source.loop_eq _ _ _

/-- The stream delivers what the loop sends for the changes before the first that
carries no record. -/
theorem records_eq : FDURecordStream.records deserializeData changes =
    (changes.items.takeWhile fun change => (Local.sent deserializeData change).isSome).filterMap
      (Local.sent deserializeData) :=
  (pollNext_passes deserializeData).yields_eq _ _

/-- Records that are delivered come first, and in order, among those that are sent. -/
theorem records_prefix :
    FDURecordStream.records deserializeData changes <+:
      Local.subscribeInstances deserializeData changes := by
  rw [records_eq, subscribeInstances_eq]
  exact (List.takeWhile_prefix _).filterMap _

/-- The two deliver the same if and only if no change with a record comes after one
without. -/
theorem records_eq_subscribeInstances_iff :
    FDURecordStream.records deserializeData changes =
      Local.subscribeInstances deserializeData changes ↔
    ∀ change ∈ changes.items.dropWhile fun change => (Local.sent deserializeData change).isSome,
      Local.sent deserializeData change = none := by
  rw [records_eq, subscribeInstances_eq, ← List.filterMap_eq_nil_iff]
  conv_lhs => rhs; rw [← List.takeWhile_append_dropWhile (p := fun change =>
    (Local.sent deserializeData change).isSome) (l := changes.items), List.filterMap_append]
  exact ⟨fun h => List.append_right_eq_self.mp h.symm, fun h => by rw [h, List.append_nil]⟩

/-- The polled subscription delivers what the loop sends and is pending only when the
change receiver was, exactly when every change puts or patches a record. -/
theorem subscriptions_agree_iff :
    FDURecordStream.records deserializeData changes =
        Local.subscribeInstances deserializeData changes ∧
      FDURecordStream.NeverStalls deserializeData changes ↔
    ∀ change ∈ changes.items, change.Carries deserializeData := by
  simp only [← sent_isSome_iff]
  have hawaited : FDURecordStream.NeverStalls deserializeData changes ↔
      ∀ change ∈ changes.items, (Local.sent deserializeData change).isSome :=
    (pollNext_passes deserializeData).awaited_iff _ _
  refine ⟨fun h => hawaited.mp h.2, fun h => ⟨?_, hawaited.mpr h⟩⟩
  rw [records_eq, subscribeInstances_eq, List.takeWhile_eq_self_iff.mpr h]

def plainRecord : FDURecord := ⟨3, 1, 2, [], [], .defined, none, none, 0⟩

/-- The record in `bincode`: a uuid is its length and its bytes, a list its length and
its elements, an enumeration the number of the
variant, what is absent a zero. -/
def plainBytes : List UInt8 :=
  let uuid (n : UInt8) : List UInt8 := 16 :: List.replicate 22 0 ++ [n]
  uuid 3 ++ uuid 1 ++ uuid 2 ++ List.replicate 16 0 ++ List.replicate 4 0 ++ [0, 0] ++
    List.replicate 4 0

/-- A deletion before the first record: the task that polls is never woken for the
record, which the loop sends. -/
theorem deletion_stalls :
    let decode : DeserializeFDURecord := fun buf =>
      if buf = plainBytes then .ok plainRecord
      else .error (.serializationDeserializationError "unexpected end of file")
    let changes : Source Change :=
      ⟨[none, some ⟨.delete, none⟩, none, some ⟨.put, some (.raw plainBytes)⟩], false⟩
    FDURecordStream.records decode changes = [] ∧
      Local.subscribeInstances decode changes = [plainRecord] ∧
      ¬ FDURecordStream.NeverStalls decode changes := by
  refine ⟨rfl, rfl, fun h => ?_⟩
  cases h ⟨.ready (some ⟨.delete, none⟩), .pending⟩ (by exact .tail _ (.head _)) rfl

end Fog05
