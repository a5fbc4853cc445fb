import VibemeetBackend.Async.Watch
import VibemeetBackend.Redis.Expiry

/-!
# The rate limit of call attempts

`checkCallRateLimit` for one user, on any number of instances: a counter in Redis that the first
increment gives an expiry, and a counter in the memory of each instance for the times when Redis
fails.

Time passes before a command by as much as its answer says.  A command whose answer is an error may
have been carried out.  An instance that stops loses its memory, and its attempts go on no more.
The store also keeps the history that the law speaks of: how many counters have been opened, and the
commands of the attempts so far.
-/

namespace VibemeetBackend.RateLimit

open Async Redis

structure Config where
  callRateLimitMax : ℕ
  callRateLimitWindowSeconds : ℕ

namespace Config

variable (cfg : Config)

def windowMs : ℕ := cfg.callRateLimitWindowSeconds * 1000

def fallbackRateLimitMax : ℕ := max 1 (cfg.callRateLimitMax / 2)

end Config

/-- An entry of `inMemoryRateLimitStore`. -/
structure MemoryEntry where
  count : ℕ
  expiresAt : ℕ

structure RateCheck where
  allowed : Bool
  remaining : ℕ
  resetAt : ℕ
  limit : ℕ
  windowSeconds : ℕ

def liveCount (entry : Option MemoryEntry) (now : ℕ) : ℕ :=
  match entry with
  | some e => if e.expiresAt ≤ now then 0 else e.count
  | none => 0

def countInMemory (cfg : Config) (entry : Option MemoryEntry) (now : ℕ) : MemoryEntry :=
  match entry with
  | some e =>
    if e.expiresAt ≤ now then ⟨1, now + cfg.windowMs⟩ else { e with count := e.count + 1 }
  | none => ⟨1, now + cfg.windowMs⟩

/-- A new entry is allowed without a comparison. -/
def checkInMemoryRateLimit (cfg : Config) (entry : Option MemoryEntry) (now : ℕ) : RateCheck :=
  let opened : RateCheck :=
    { allowed := true
      remaining := cfg.fallbackRateLimitMax - 1
      resetAt := now + cfg.windowMs
      limit := cfg.fallbackRateLimitMax
      windowSeconds := cfg.callRateLimitWindowSeconds }
  match entry with
  | some e =>
    if e.expiresAt ≤ now then opened
    else
      { allowed := e.count + 1 ≤ cfg.fallbackRateLimitMax
        remaining := cfg.fallbackRateLimitMax - (e.count + 1)
        resetAt := e.expiresAt
        limit := cfg.fallbackRateLimitMax
        windowSeconds := cfg.callRateLimitWindowSeconds }
  | none => opened

theorem checkInMemory_allowed (cfg : Config) (entry : Option MemoryEntry) (now : ℕ) :
    (checkInMemoryRateLimit cfg entry now).allowed = true ↔
      liveCount entry now < cfg.fallbackRateLimitMax := by
  have hpos : 0 < cfg.fallbackRateLimitMax := lt_of_lt_of_le Nat.zero_lt_one (le_max_left ..)
  unfold checkInMemoryRateLimit liveCount
  cases entry <;> grind

/-! ### The store -/

structure Store where
  now : ℕ
  counter : Option (Expiring ℕ)
  /-- The user's entry in the memory of each instance. -/
  inMemoryRateLimitStore : ℕ → Option MemoryEntry
  window : ℕ
  /-- How many commands the attempts have issued. -/
  touches : ℕ
  touched : Option ℕ

def Store.initial (now : ℕ) : Store := ⟨now, none, fun _ => none, 0, 0, none⟩

def Store.live (s : Store) : Option (Expiring ℕ) := s.counter.filter (·.alive s.now)

/-- The answer of a command: `ok`, or an error after the command was carried out or was not. -/
structure Reply where
  ok : Bool
  applied : Bool
  waited : ℕ

def Store.later (r : Reply) (s : Store) : Store := { s with now := s.now + r.waited }

/-- `INCR`: the count that it answers. -/
def Store.newCount (s : Store) : ℕ := (s.live.elim 0 (·.value)) + 1

/-- The lifetime of the key in seconds: `-1` without one, `-2` without the key. -/
def Store.ttl (s : Store) : ℤ :=
  match s.live with
  | some e =>
    match e.expiresAt with
    | some t => ((t - s.now + 500) / 1000 : ℕ)
    | none => -1
  | none => -2

def Store.setMemory (inst : ℕ) (entry : Option MemoryEntry) (s : Store) : Store :=
  { s with
    inMemoryRateLimitStore := Function.update s.inMemoryRateLimitStore inst entry }

inductive Cmd where
  /-- `Date.now()` when the check begins. -/
  | clock
  | incr
  | expire
  | ttl
  | checkInMemory (inst : ℕ)
  | answer (redis : Bool) (result : RateCheck)
  /-- The process of an instance stops and starts anew. -/
  | restart (inst : ℕ)
  | cleanupInMemoryStore (inst : ℕ)

def Cmd.redis : Cmd → Bool
  | .incr | .expire | .ttl => true
  | _ => false

/-- The commands of an attempt that are sent to Redis or change the memory. -/
def Cmd.touches : Cmd → Bool
  | .incr | .expire | .ttl | .checkInMemory _ => true
  | _ => false

def Cmd.apply (cfg : Config) (c : Cmd) (s : Store) : Store :=
  match c with
  | .incr =>
    match s.live with
    | some e => { s with counter := some ⟨e.value + 1, e.expiresAt⟩ }
    | none => { s with counter := some ⟨1, none⟩, window := s.window + 1 }
  | .expire =>
    match s.live with
    | some e => { s with counter := some ⟨e.value, some (s.now + cfg.windowMs)⟩ }
    | none => s
  | .checkInMemory i =>
    s.setMemory i (some (countInMemory cfg (s.inMemoryRateLimitStore i) s.now))
  | .restart i => s.setMemory i none
  | .cleanupInMemoryStore i =>
    s.setMemory i ((s.inMemoryRateLimitStore i).filter fun e => ¬e.expiresAt ≤ s.now)
  | .clock | .ttl | .answer _ _ => s

def Cmd.mark (c : Cmd) (s : Store) : Store :=
  if c.touches then { s with touches := s.touches + 1, touched := some s.now } else s

def Cmd.exec (cfg : Config) (c : Cmd) (r : Reply) (s : Store) : Store :=
  c.mark (if c.redis = true ∧ r.ok = false ∧ r.applied = false then s.later r
    else c.apply cfg (s.later r))

/-! ### The check -/

abbrev RateFlow (α : Type) : Type := Flow Cmd Reply Store α

def run (c : Cmd) : RateFlow (Reply × Store) := Flow.call (·.ok) "Redis error" c

def here (c : Cmd) : RateFlow (Reply × Store) := Flow.call (fun _ => true) "" c

def expireFirst (newCount : ℕ) : RateFlow Unit :=
  if newCount = 1 then do
    let _ ← run .expire
    return ()
  else return ()

def checkRedis (cfg : Config) (now : ℕ) : RateFlow RateCheck := do
  let (r, s) ← run .incr
  let newCount := (s.later r).newCount
  expireFirst newCount
  let (r', s') ← run .ttl
  let ttl := (s'.later r').ttl
  return {
    allowed := newCount ≤ cfg.callRateLimitMax
    remaining := cfg.callRateLimitMax - newCount
    resetAt := if 0 < ttl then now + ttl.toNat * 1000 else now + cfg.windowMs
    limit := cfg.callRateLimitMax
    windowSeconds := cfg.callRateLimitWindowSeconds }

def checkMemory (cfg : Config) (inst : ℕ) : RateFlow RateCheck := do
  let (r, s) ← here (.checkInMemory inst)
  let s := s.later r
  return checkInMemoryRateLimit cfg (s.inMemoryRateLimitStore inst) s.now

/-- An attempt at an instance, to the answer that its caller gets. -/
def checkCallRateLimit (cfg : Config) (inst : ℕ) : RateFlow Unit := do
  let (r, s) ← here .clock
  let checked ← Flow.attempt (checkRedis cfg (s.later r).now)
  match checked with
  | .ok result => do
    let _ ← here (.answer true result)
    return ()
  | .error _ => do
    let result ← checkMemory cfg inst
    let _ ← here (.answer false result)
    return ()

inductive Request where
  | checkCallRateLimit (inst : ℕ)
  | restart (inst : ℕ)
  | cleanupInMemoryStore (inst : ℕ)
  deriving DecidableEq, Repr

/-- Run to the end, whatever is thrown. -/
def Request.flow (cfg : Config) : Request → RateFlow Unit
  | .checkCallRateLimit i => RateLimit.checkCallRateLimit cfg i
  | .restart i => do
    let _ ← here (.restart i)
    return ()
  | .cleanupInMemoryStore i => do
    let _ ← here (.cleanupInMemoryStore i)
    return ()

def program (cfg : Config) (q : Request) : Prog Cmd Reply Store Unit :=
  (q.flow cfg).run >>= fun _ => .ret ()

end VibemeetBackend.RateLimit
