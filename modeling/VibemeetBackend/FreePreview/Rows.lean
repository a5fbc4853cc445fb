import Mathlib.Tactic

/-!
# Free previews

Rows of `free-preview-moment.model.ts` and `isPreviewRowVisible`.  Times are milliseconds.
-/

namespace VibemeetBackend.FreePreview

structure FreePreviewMoment where
  momentId : String
  order : ℤ
  enabled : Bool
  startsAt : Option ℤ
  endsAt : Option ℤ
  deriving DecidableEq

/-- Both ends of the schedule belong to it. -/
def isPreviewRowVisible (row : FreePreviewMoment) (now : ℤ) : Bool :=
  row.enabled && !(row.startsAt.any fun startsAt => now < startsAt) &&
    !(row.endsAt.any fun endsAt => endsAt < now)

theorem isPreviewRowVisible_iff {row : FreePreviewMoment} {now : ℤ} :
    isPreviewRowVisible row now = true ↔
      row.enabled = true ∧ (∀ startsAt ∈ row.startsAt, startsAt ≤ now) ∧
        ∀ endsAt ∈ row.endsAt, now ≤ endsAt := by
  unfold isPreviewRowVisible
  cases row.startsAt <;> cases row.endsAt <;> simp [and_assoc]

end VibemeetBackend.FreePreview
