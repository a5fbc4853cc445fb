import VibemeetBackend.Async.Watch
import VibemeetBackend.Checkin.Service

/-!
# The online time of a creator

`creator-daily-online.service.ts` for one creator: the mark in Redis since when the creator is online,
and the seconds of each day in MongoDB.

The store also keeps the creator's real availability, which no handler reads.  An event of a handler
takes effect there when the handler reads its clock, or when it is clear that it reads none.  Time
passes before a command by as much as its answer says.
-/

namespace VibemeetBackend.Availability

open Async
open Checkin (istDay istOffsetMs msPerDay)

/-! ### Days -/

/-- Seconds of one day, which begins at midnight in IST. -/
structure CreatorDailyOnline where
  periodStart : ℤ
  onlineSeconds : ℕ

/-- `$inc`, with `upsert`. -/
def incSeconds (periodStart : ℤ) (seconds : ℕ) :
    List CreatorDailyOnline → List CreatorDailyOnline
  | [] => [⟨periodStart, seconds⟩]
  | day :: days =>
    if day.periodStart = periodStart then ⟨periodStart, day.onlineSeconds + seconds⟩ :: days
    else day :: incSeconds periodStart seconds days

def totalSeconds (days : List CreatorDailyOnline) : ℕ := (days.map (·.onlineSeconds)).sum

theorem totalSeconds_inc (periodStart : ℤ) (seconds : ℕ) (days : List CreatorDailyOnline) :
    totalSeconds (incSeconds periodStart seconds days) = totalSeconds days + seconds := by
  induction days with
  | nil => simp [incSeconds, totalSeconds]
  | cons day days ih =>
    unfold incSeconds
    unfold totalSeconds at ih ⊢
    split
    · simp only [List.map_cons, List.sum_cons]
      omega
    · simp only [List.map_cons, List.sum_cons, ih]
      omega

def getDailyPeriodBoundsForInstant (now : ℤ) : ℤ × ℤ :=
  (istDay now * msPerDay - istOffsetMs, istDay now * msPerDay - istOffsetMs + msPerDay)

theorem getDailyPeriodBounds_spec (now : ℤ) :
    (getDailyPeriodBoundsForInstant now).1 ≤ now ∧
      now < (getDailyPeriodBoundsForInstant now).2 := by
  unfold getDailyPeriodBoundsForInstant istDay msPerDay istOffsetMs
  constructor <;> dsimp only <;> omega

/-- The loop, from `cursor` on. -/
def allocateFrom (toMs : ℤ) : ℕ → ℤ → List CreatorDailyOnline → List CreatorDailyOnline
  | 0, _, out => out
  | fuel + 1, cursor, out =>
    if cursor < toMs then
      let bounds := getDailyPeriodBoundsForInstant cursor
      let stop := min toMs bounds.2
      let seconds := ((stop - cursor) / 1000).toNat
      allocateFrom toMs fuel stop (if 0 < seconds then incSeconds bounds.1 seconds out else out)
    else out

/-- Each turn of the loop moves the cursor, so that it ends within as many turns as there are
milliseconds. -/
def allocateSecondsByPeriodStartMs (fromMs toMs : ℤ) : List CreatorDailyOnline :=
  allocateFrom toMs (toMs - fromMs).toNat fromMs []

theorem allocateFrom_stop {toMs cursor : ℤ} (h : ¬cursor < toMs) (fuel : ℕ)
    (out : List CreatorDailyOnline) : allocateFrom toMs fuel cursor out = out := by
  cases fuel with
  | zero => rfl
  | succ fuel =>
    exact if_neg h

/-- **No more seconds are allocated than have passed.** -/
theorem totalSeconds_allocateFrom (toMs : ℤ) (fuel : ℕ) {cursor : ℤ} (h : cursor ≤ toMs)
    (out : List CreatorDailyOnline) :
    1000 * (totalSeconds (allocateFrom toMs fuel cursor out) : ℤ) ≤
      1000 * totalSeconds out + (toMs - cursor) := by
  induction fuel generalizing cursor out with
  | zero =>
    unfold allocateFrom
    omega
  | succ fuel ih =>
    unfold allocateFrom
    split
    · rename_i hcursor
      have hend := (getDailyPeriodBounds_spec cursor).2
      have hrest := ih (min_le_left toMs (getDailyPeriodBoundsForInstant cursor).2)
        (if 0 < ((min toMs (getDailyPeriodBoundsForInstant cursor).2 - cursor) / 1000).toNat then
          incSeconds (getDailyPeriodBoundsForInstant cursor).1
            ((min toMs (getDailyPeriodBoundsForInstant cursor).2 - cursor) / 1000).toNat out
        else out)
      refine hrest.trans ?_
      split
      · rw [totalSeconds_inc]
        push_cast
        omega
      · omega
    · omega

theorem totalSeconds_allocate (fromMs toMs : ℤ) (h : fromMs ≤ toMs) :
    1000 * (totalSeconds (allocateSecondsByPeriodStartMs fromMs toMs) : ℤ) ≤ toMs - fromMs := by
  have hall := totalSeconds_allocateFrom toMs (toMs - fromMs).toNat h []
  have hnone : totalSeconds [] = 0 := rfl
  unfold allocateSecondsByPeriodStartMs
  omega

/-! ### Commands -/

structure Store where
  onlineSince : Option ℤ
  days : List CreatorDailyOnline
  now : ℤ
  since : Option ℤ
  /-- For how long the creator was, before. -/
  onlineMs : ℤ

namespace Store

variable (s : Store)

def becomesOnline : Store := { s with since := some (s.since.getD s.now) }

def becomesBusy : Store :=
  { s with since := none, onlineMs := s.onlineMs + (s.since.map fun y => s.now - y).getD 0 }

end Store

inductive Handler
  | becameOnline | becameBusy

inductive Cmd
  | getMark (handler : Handler)
  | setMark (now : ℤ)
  /-- After `get` has returned `raw`. -/
  | delMark (raw : Option ℤ)
  /-- `Date.now()`, for a new mark. -/
  | clockOnline
  /-- `Date.now()`, for the time since a mark. -/
  | clockBusy (startMs : ℤ)
  | incSeconds (periodStart : ℤ) (seconds : ℕ)

/-- `ok` when the command is answered; one that is not may have been executed all the same. -/
structure Reply where
  ok : Bool
  executed : Bool
  elapsed : ℕ

def Store.later (s : Store) (r : Reply) : Store := { s with now := s.now + r.elapsed }

def Cmd.effect (c : Cmd) (s : Store) : Store :=
  match c with
  | .setMark now => { s with onlineSince := some now }
  | .delMark _ => { s with onlineSince := none }
  | .incSeconds periodStart seconds =>
    { s with days := Availability.incSeconds periodStart seconds s.days }
  | _ => s

/-- What a command shows of the creator's availability. -/
def Cmd.event (c : Cmd) (r : Reply) (s : Store) : Store :=
  match c with
  | .getMark .becameOnline => if r.ok = false ∨ s.onlineSince ≠ none then s.becomesOnline else s
  | .getMark .becameBusy => if r.ok = false then s.becomesBusy else s
  | .delMark raw => if r.ok = false ∨ raw = none then s.becomesBusy else s
  | .clockOnline => s.becomesOnline
  | .clockBusy _ => s.becomesBusy
  | _ => s

def Cmd.exec (c : Cmd) (r : Reply) (s : Store) : Store :=
  let t := c.event r (s.later r)
  if r.ok || r.executed then c.effect t else t

/-! ### Handlers -/

abbrev OnlineFlow (α : Type) : Type := Flow Cmd Reply Store α

def run (c : Cmd) : OnlineFlow (Reply × Store) := Flow.call Reply.ok "RedisError" c

/-- `addOnlineDuration`, from the allocated seconds on. -/
def addSeconds : List CreatorDailyOnline → OnlineFlow Unit
  | [] => return ()
  | day :: days => do
    let _ ← run (.incSeconds day.periodStart day.onlineSeconds)
    addSeconds days

def addOnlineDuration (fromMs toMs : ℤ) : OnlineFlow Unit :=
  addSeconds (allocateSecondsByPeriodStartMs fromMs toMs)

def recordCreatorAvailabilityBecameOnline : OnlineFlow Unit :=
  tryCatch (do
    let (_, s) ← run (.getMark .becameOnline)
    match s.onlineSince with
    | some _ => return ()
    | none => do
      let (r, t) ← run .clockOnline
      let _ ← run (.setMark (t.later r).now)
      return ()) fun _ => return ()

def recordCreatorAvailabilityBecameBusy : OnlineFlow Unit :=
  tryCatch (do
    let (_, s) ← run (.getMark .becameBusy)
    let _ ← run (.delMark s.onlineSince)
    match s.onlineSince with
    | none => return ()
    | some startMs => do
      let (r, t) ← run (.clockBusy startMs)
      addOnlineDuration startMs (t.later r).now) fun _ => return ()

def program : Handler → Prog Cmd Reply Store Unit
  | .becameOnline => recordCreatorAvailabilityBecameOnline.run >>= fun _ => .ret ()
  | .becameBusy => recordCreatorAvailabilityBecameBusy.run >>= fun _ => .ret ()

end VibemeetBackend.Availability
