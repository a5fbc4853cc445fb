import VibemeetBackend.Async.Watch
import VibemeetBackend.FreePreview.Rows

/-!
# Changes of the free previews

`addPreview`, `removePreview`, `updatePreviewSchedule` and `reorderPreviews` of
`free-preview.service.ts`, as programs on the rows and the version of their list.  A reorder assigns all
its orders in one transaction.

The store keeps the time, which passes before a command by as much as its answer says, and the history
of the list, which no program reads.  The caches and who made a change are left out; a list without a
version has version 0, and an expected version that is no natural number is never met.
-/

namespace VibemeetBackend.FreePreview

open Async

/-! ### The list -/

structure Store where
  rows : List FreePreviewMoment
  listVersion : ℕ
  isPublic : String → Bool
  now : ℤ
  changes : ℕ
  /-- How often they had when a version was reached. -/
  countedAt : ℕ → ℕ

def isLive (row : FreePreviewMoment) (now : ℤ) : Bool :=
  row.enabled && !(row.endsAt.any fun endsAt => endsAt < now)

/-- The live rows of other moments: the filter of `countDocuments`. -/
def countOthers (rows : List FreePreviewMoment) (momentId : String) (now : ℤ) : ℕ :=
  (rows.filter fun row => row.momentId != momentId).countP fun row => isLive row now

def nextOrder (rows : List FreePreviewMoment) : ℤ :=
  match rows.map (·.order) with
  | [] => 0
  | order :: orders => orders.foldl max order + 1

def setRow (momentId : String) (f : FreePreviewMoment → FreePreviewMoment)
    (rows : List FreePreviewMoment) : List FreePreviewMoment :=
  rows.map fun row => if row.momentId = momentId then f row else row

def upsert (row : FreePreviewMoment) (rows : List FreePreviewMoment) : List FreePreviewMoment :=
  if rows.any fun row' => row'.momentId == row.momentId then setRow row.momentId (fun _ => row) rows
  else rows ++ [row]

def withOrder (i : ℕ) (row : FreePreviewMoment) : FreePreviewMoment := { row with order := i }

def assignOrders : ℕ → List String → List FreePreviewMoment → List FreePreviewMoment
  | _, [], rows => rows
  | i, momentId :: momentIds, rows =>
    assignOrders (i + 1) momentIds (setRow momentId (withOrder i) rows)

structure Patch where
  enabled : Option Bool
  startsAt : Option (Option ℤ)
  endsAt : Option (Option ℤ)

def Patch.apply (p : Patch) (row : FreePreviewMoment) : FreePreviewMoment :=
  { row with
    enabled := p.enabled.getD row.enabled
    startsAt := p.startsAt.getD row.startsAt
    endsAt := p.endsAt.getD row.endsAt }

/-! ### Commands -/

inductive Cmd
  | clock
  | findMoment (momentId : String)
  | countOthers (momentId : String)
  | findMaxOrder
  | upsert (row : FreePreviewMoment)
  | delete (momentId : String)
  | update (momentId : String) (patch : Patch)
  | getListVersion
  | reorder (orderedMomentIds : List String) (expectedVersion : ℕ)
  | incrementListVersion

/-- `ok` when the command is answered; one that is not may have been executed all the same. -/
structure Reply where
  ok : Bool
  executed : Bool
  elapsed : ℕ

namespace Store

variable (s : Store)

def later (r : Reply) : Store := { s with now := s.now + r.elapsed }

def setRows (rows : List FreePreviewMoment) : Store :=
  if rows = s.rows then s else { s with rows, changes := s.changes + 1 }

end Store

def Cmd.rows (c : Cmd) (rows : List FreePreviewMoment) : List FreePreviewMoment :=
  match c with
  | .upsert row => FreePreview.upsert row rows
  | .delete momentId => rows.filter fun row => row.momentId != momentId
  | .update momentId patch => setRow momentId patch.apply rows
  | .reorder orderedMomentIds _ => assignOrders 0 orderedMomentIds rows
  | _ => rows

def Cmd.effect (c : Cmd) (s : Store) : Store :=
  match c with
  | .incrementListVersion =>
    { s with
      listVersion := s.listVersion + 1
      countedAt := fun v => if v = s.listVersion + 1 then s.changes else s.countedAt v }
  | c => s.setRows (c.rows s.rows)

def Reply.runs (r : Reply) : Bool := r.ok || r.executed

def Cmd.exec (c : Cmd) (r : Reply) (s : Store) : Store :=
  if r.runs then c.effect (s.later r) else s.later r

/-! ### The service -/

structure MomentsConfig where
  freePreviewLimit : ℕ
  /-- `mongoose.Types.ObjectId.isValid`. -/
  isValidId : String → Bool

abbrev PreviewFlow (α : Type) : Type := Flow Cmd Reply Store α

def run (c : Cmd) : PreviewFlow (Reply × Store) := Flow.call Reply.ok "MongoError" c

/-- `new Date()`. -/
def clock : PreviewFlow ℤ := do
  let (r, s) ← Flow.call (fun _ => true) "" .clock
  return (s.later r).now

def incrementListVersion : PreviewFlow ℕ := do
  let (_, s) ← run .incrementListVersion
  return s.listVersion + 1

structure AddOptions where
  enabled : Option Bool
  startsAt : Option ℤ
  endsAt : Option ℤ

variable (cfg : MomentsConfig)

def addPreview (momentId : String) (opts : AddOptions) : PreviewFlow ℕ := do
  if !cfg.isValidId momentId then throw "Invalid moment id"
  let (_, s) ← run (.findMoment momentId)
  if !s.isPublic momentId then throw "Moment not found or not ready"
  let now ← clock
  let (_, t) ← run (.countOthers momentId)
  if cfg.freePreviewLimit ≤ FreePreview.countOthers t.rows momentId now then
    throw ("Preview limit of " ++ toString cfg.freePreviewLimit ++ " reached")
  let (_, u) ← run .findMaxOrder
  let _ ← run (.upsert
    ⟨momentId, nextOrder u.rows, opts.enabled.getD true, opts.startsAt, opts.endsAt⟩)
  incrementListVersion

def removePreview (momentId : String) : PreviewFlow ℕ := do
  let _ ← run (.delete momentId)
  incrementListVersion

def updatePreviewSchedule (momentId : String) (patch : Patch) : PreviewFlow ℕ := do
  let (_, s) ← run (.update momentId patch)
  if !(s.rows.any fun row => row.momentId == momentId) then throw "Preview row not found"
  incrementListVersion

def reorderPreviews (orderedMomentIds : List String) (expectedVersion : ℕ) : PreviewFlow ℕ := do
  let (_, s) ← run .getListVersion
  if s.listVersion ≠ expectedVersion then throw "Preview list was modified by another admin"
  if cfg.freePreviewLimit < orderedMomentIds.length then
    throw ("Cannot exceed preview limit of " ++ toString cfg.freePreviewLimit)
  let _ ← run (.reorder orderedMomentIds expectedVersion)
  incrementListVersion

inductive Request
  | add (momentId : String) (opts : AddOptions)
  | remove (momentId : String)
  | update (momentId : String) (patch : Patch)
  | reorder (orderedMomentIds : List String) (expectedVersion : ℕ)

def program (q : Request) : Prog Cmd Reply Store Unit :=
  match q with
  | .add momentId opts => (addPreview cfg momentId opts).run >>= fun _ => .ret ()
  | .remove momentId => (removePreview momentId).run >>= fun _ => .ret ()
  | .update momentId patch => (updatePreviewSchedule momentId patch).run >>= fun _ => .ret ()
  | .reorder orderedMomentIds expectedVersion =>
    (reorderPreviews cfg orderedMomentIds expectedVersion).run >>= fun _ => .ret ()

end VibemeetBackend.FreePreview
