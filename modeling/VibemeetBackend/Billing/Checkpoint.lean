import VibemeetBackend.Billing.Session
import VibemeetBackend.Mongo.Update

/-!
# The Mongo checkpoint of a billing session

`call-billing-checkpoint.model.ts` and `billing-checkpoint.service.ts`.  A checkpoint is one
document per call; the three writers are instances of `findOneAndUpdate`.
-/

namespace VibemeetBackend.Billing

open Mongo

/-- `CallBillingCheckpoint.status`. -/
inductive CheckpointStatus where
  | active
  | settling
  | settled
  | failed

/-- A `CallBillingCheckpoint` document.  A string that was never set is empty and a number that was
never set is zero, which is how every reader takes them. -/
structure Checkpoint where
  userMongoId : String
  creatorMongoId : String
  userFirebaseUid : String
  creatorFirebaseUid : String
  startTimeMs : ℤ
  lastProcessedAtMs : ℤ
  remainingUserBalanceMicros : ℤ
  pricePerSecondMicros : ℤ
  creatorEarningsPerSecondMicros : ℤ
  totalDeductedMicros : ℤ
  totalEarnedMicros : ℤ
  billingSequence : ℤ
  lifecycleState : Lifecycle
  schemaVersion : ℤ
  version : ℤ
  status : CheckpointStatus

def Checkpoint.hasIdentities (cp : Checkpoint) : Bool :=
  !cp.userMongoId.isEmpty && !cp.creatorMongoId.isEmpty && !cp.userFirebaseUid.isEmpty &&
    !cp.creatorFirebaseUid.isEmpty

/-- A document an upsert inserts, before the operators of the update. -/
def Checkpoint.fresh : Checkpoint :=
  ⟨"", "", "", "", 0, 0, 0, 0, 0, 0, 0, 0, .init, 0, 0, .active⟩

inductive CheckpointPath where
  | userMongoId
  | creatorMongoId
  | userFirebaseUid
  | creatorFirebaseUid
  | startTimeMs
  | lastProcessedAtMs
  | remainingUserBalanceMicros
  | pricePerSecondMicros
  | creatorEarningsPerSecondMicros
  | totalDeductedMicros
  | totalEarnedMicros
  | billingSequence
  | lifecycleState
  | schemaVersion
  | version
  | status
  | updatedAt
  deriving DecidableEq

/-- `BillingCheckpointSnapshotInput`. -/
structure CheckpointSnapshot where
  userMongoId : String
  creatorMongoId : String
  userFirebaseUid : String
  creatorFirebaseUid : String
  startTimeMs : ℤ
  lastProcessedAtMs : ℤ
  remainingUserBalanceMicros : ℤ
  pricePerSecondMicros : ℤ
  creatorEarningsPerSecondMicros : ℤ
  totalDeductedMicros : ℤ
  totalEarnedMicros : ℤ
  billingSequence : ℤ
  lifecycleState : Lifecycle
  status : CheckpointStatus

def CallSession.snapshot (s : CallSession) (remaining : ℤ) : CheckpointSnapshot where
  userMongoId := s.userMongoId
  creatorMongoId := s.creatorMongoId
  userFirebaseUid := s.userFirebaseUid
  creatorFirebaseUid := s.creatorFirebaseUid
  startTimeMs := s.startTime
  lastProcessedAtMs := s.lastProcessedAt
  remainingUserBalanceMicros := remaining
  pricePerSecondMicros := s.pricePerSecondMicros
  creatorEarningsPerSecondMicros := s.creatorEarningsPerSecondMicros.getD 0
  totalDeductedMicros := s.totalDeductedMicros
  totalEarnedMicros := s.totalEarnedMicros
  billingSequence := s.billingSequence
  lifecycleState := s.lifecycleState.getD .init
  status := .active

/-- The `$set` of a snapshot. -/
def CheckpointSnapshot.set (data : CheckpointSnapshot) (d : Checkpoint) : Checkpoint :=
  { d with
    userMongoId := data.userMongoId
    creatorMongoId := data.creatorMongoId
    userFirebaseUid := data.userFirebaseUid
    creatorFirebaseUid := data.creatorFirebaseUid
    startTimeMs := data.startTimeMs
    lastProcessedAtMs := data.lastProcessedAtMs
    remainingUserBalanceMicros := data.remainingUserBalanceMicros
    pricePerSecondMicros := data.pricePerSecondMicros
    creatorEarningsPerSecondMicros := data.creatorEarningsPerSecondMicros
    totalDeductedMicros := data.totalDeductedMicros
    totalEarnedMicros := data.totalEarnedMicros
    billingSequence := max 0 data.billingSequence
    lifecycleState := data.lifecycleState
    schemaVersion := billingSessionSchemaVersion
    status := data.status }

def snapshotPaths : List CheckpointPath :=
  [.userMongoId, .creatorMongoId, .userFirebaseUid, .creatorFirebaseUid, .startTimeMs,
    .lastProcessedAtMs, .remainingUserBalanceMicros, .pricePerSecondMicros,
    .creatorEarningsPerSecondMicros, .totalDeductedMicros, .totalEarnedMicros, .billingSequence,
    .lifecycleState, .schemaVersion, .status, .updatedAt]

/-- The update of `upsertBillingCheckpointSnapshot`. -/
def snapshotUpdate (data : CheckpointSnapshot) : Update CheckpointPath Checkpoint where
  set := data.set
  setPaths := snapshotPaths
  inc d := { d with version := d.version + 1 }
  incPaths := [.version]
  setOnInsert d := d
  setOnInsertPaths := []

/-- The update of `advanceBillingCheckpointCursor`. -/
def cursorUpdate (data : CheckpointSnapshot) : Update CheckpointPath Checkpoint where
  set := data.set
  setPaths := snapshotPaths
  inc d := { d with version := d.version + 1 }
  incPaths := [.version]
  setOnInsert d := { d with version := 1 }
  setOnInsertPaths := [.version]

/-- The update of `upsertBillingCheckpoint`; an insert also sets the schema's defaults. -/
def periodicUpdate (s : CallSession) : Update CheckpointPath Checkpoint where
  set d :=
    { d with
      userMongoId := s.userMongoId
      creatorMongoId := s.creatorMongoId
      totalDeductedMicros := s.totalDeductedMicros
      totalEarnedMicros := s.totalEarnedMicros
      billingSequence := max 0 s.billingSequence
      lifecycleState := s.lifecycleState.getD .active }
  setPaths := [.userMongoId, .creatorMongoId, .totalDeductedMicros, .totalEarnedMicros,
    .billingSequence, .lifecycleState, .updatedAt]
  inc d := d
  incPaths := []
  setOnInsert d := { d with schemaVersion := 3, version := 1, status := .active }
  setOnInsertPaths := [.schemaVersion, .version, .status]

def upsertBillingCheckpointSnapshot (data : CheckpointSnapshot) (doc : Option Checkpoint) :
    Option Checkpoint :=
  afterUpdate Checkpoint.fresh (fun _ => true) (snapshotUpdate data) doc

def upsertBillingCheckpoint (s : CallSession) (doc : Option Checkpoint) : Option Checkpoint :=
  afterUpdate Checkpoint.fresh (fun _ => true) (periodicUpdate s) doc

/-- The checkpoint after an advance; the source catches and logs the error of a rejected one. -/
def advanceBillingCheckpointCursor (data : CheckpointSnapshot) (expectedVersion : ℤ)
    (doc : Option Checkpoint) : Option Checkpoint :=
  afterUpdate Checkpoint.fresh (fun d => d.version == expectedVersion) (cursorUpdate data) doc

def advanceSucceeds (data : CheckpointSnapshot) (expectedVersion : ℤ) (doc : Option Checkpoint) :
    Bool :=
  (findOneAndUpdate Checkpoint.fresh (fun d => d.version == expectedVersion) (cursorUpdate data)
    doc).isOk

/-! ### How the updates end -/

variable (data : CheckpointSnapshot)

/-- `$inc` and `$setOnInsert` both name `version`. -/
theorem cursorUpdate_conflict : ¬ (cursorUpdate data).paths.Nodup := by
  show ¬ (snapshotPaths ++ [CheckpointPath.version] ++ [CheckpointPath.version]).Nodup
  decide

theorem upsertSnapshot_some (d : Checkpoint) :
    upsertBillingCheckpointSnapshot data (some d) =
      some { data.set d with version := d.version + 1 } := by
  rfl

theorem upsertSnapshot_none :
    upsertBillingCheckpointSnapshot data none =
      some { data.set Checkpoint.fresh with version := 1 } := by
  rfl

theorem upsertSnapshot_totals (doc : Option Checkpoint) :
    ∃ d, upsertBillingCheckpointSnapshot data doc = some d ∧
      d.totalDeductedMicros = data.totalDeductedMicros ∧
      d.totalEarnedMicros = data.totalEarnedMicros := by
  cases doc with
  | none => exact ⟨_, upsertSnapshot_none data, rfl, rfl⟩
  | some d => exact ⟨_, upsertSnapshot_some data d, rfl, rfl⟩

/-- **The cursor never advances**, and the checkpoint stays as it was. -/
theorem advance_rejected (v : ℤ) (doc : Option Checkpoint) :
    advanceSucceeds data v doc = false ∧ advanceBillingCheckpointCursor data v doc = doc := by
  refine ⟨?_, afterUpdate_conflict (cursorUpdate_conflict data) doc⟩
  rfl

end VibemeetBackend.Billing
