import Mathlib.Tactic

/-!
# Single-document updates of a document database

`findOneAndUpdate` on a collection restricted to one value of a unique key: there is at most one
such document, the filter may ask for more than the key, and an upsert that matches nothing inserts.
-/

namespace VibemeetBackend.Mongo

/-- The operators of an update on documents `D`.  A document that an upsert inserts starts from
`fresh`. -/
structure Update (Path D : Type) where
  set : D → D
  setPaths : List Path
  inc : D → D
  incPaths : List Path
  setOnInsert : D → D
  setOnInsertPaths : List Path

/-- All paths an update names, an operator at a time. -/
def Update.paths {Path D : Type} (u : Update Path D) : List Path :=
  u.setPaths ++ u.incPaths ++ u.setOnInsertPaths

inductive UpdateError where
  | conflictingUpdate
  | duplicateKey

variable {Path D : Type} [DecidableEq Path]

/-- `findOneAndUpdate(filter, update, { upsert: true })` on the documents of one unique key; the
result is the document of the key after the call. -/
def findOneAndUpdate (fresh : D) (filter : D → Bool) (u : Update Path D) (doc : Option D) :
    Except UpdateError D :=
  if u.paths.Nodup then
    match doc with
    | some d => if filter d then .ok (u.inc (u.set d)) else .error .duplicateKey
    | none => .ok (u.setOnInsert (u.inc (u.set fresh)))
  else .error .conflictingUpdate

def afterUpdate (fresh : D) (filter : D → Bool) (u : Update Path D) (doc : Option D) : Option D :=
  match findOneAndUpdate fresh filter u doc with
  | .ok d => some d
  | .error _ => doc

variable {fresh d : D} {filter : D → Bool} {u : Update Path D}

theorem findOneAndUpdate_conflict (h : ¬ u.paths.Nodup) (doc : Option D) :
    findOneAndUpdate fresh filter u doc = .error .conflictingUpdate := if_neg h

theorem findOneAndUpdate_matched (h : u.paths.Nodup) (hf : filter d = true) :
    findOneAndUpdate fresh filter u (some d) = .ok (u.inc (u.set d)) := by
  simp [findOneAndUpdate, h, hf]

theorem findOneAndUpdate_duplicate (h : u.paths.Nodup) (hf : filter d = false) :
    findOneAndUpdate fresh filter u (some d) = .error .duplicateKey := by
  simp [findOneAndUpdate, h, hf]

theorem afterUpdate_conflict (h : ¬ u.paths.Nodup) (doc : Option D) :
    afterUpdate fresh filter u doc = doc := by
  rw [afterUpdate, findOneAndUpdate_conflict h]

end VibemeetBackend.Mongo
