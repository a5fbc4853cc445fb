import VibemeetBackend.Async.Trace
import VibemeetBackend.Breaker.CircuitBreaker
import VibemeetBackend.Redis.Expiry

/-!
# The fallback of the Redis operations

`safeRedisGet`, `safeRedisSet` and `safeRedisDel` of one process.  `executeWithCircuitBreaker` sends
an operation to Redis, and to the map in memory when the breaker refuses it or Redis fails; a call
that fails may still have reached Redis.  Values are texts; `parse` is `JSON.parse`, and a text that
it rejects stands for itself.

The store that answers a read need not have taken part in the key's last write.  `fallback_agrees_iff`
says which runs read only current values: a store that missed the key's last write holds no other
live value, and what the memory answers is not the text of a JSON value.
-/

namespace VibemeetBackend.Breaker

open Async Redis

/-- The options of `redisCircuitBreaker`. -/
def redisOptions : CircuitBreakerOptions :=
  { failureThreshold := 5, resetTimeout := 30000, monitoringWindow := 60000 }

/-- An entry of `inMemoryFallback`. -/
structure FallbackEntry where
  value : String
  expiresAt : ℕ

structure Stores where
  redis : Keys String String
  inMemoryFallback : String → Option FallbackEntry

inductive Call where
  | get (key : String)
  | set (key value : String) (ex : Option ℕ)
  | del (key : String)
  deriving DecidableEq, Repr

def Call.key : Call → String
  | .get key => key
  | .set key _ _ => key
  | .del key => key

/-- What Redis makes of an operation that is sent to it: it answers, or the connection fails, before
or after the operation has been carried out. -/
inductive Outcome where
  | answered
  | failed (applied : Bool)
  deriving DecidableEq, Repr

/-- The time that passes before each moment of a call. -/
structure Pace where
  entered : ℕ
  reread : ℕ
  ran : ℕ
  failed : ℕ
  opened : ℕ
  looked : ℕ
  fellBack : ℕ
  deriving DecidableEq, Repr

/-- A lifetime in seconds, when one is given; zero counts as none. -/
def lifetime (ex : Option ℕ) : Option ℕ :=
  ex.filter (0 < ·)

section Operations

variable {J : Type} (parse : String → Option J) (text : String → J)

/-- The form in which Redis gives a value: the parsed JSON value, or the text itself. -/
def parsed (value : String) : J := (parse value).getD (text value)

/-- The operation on Redis at a time: what it leaves and, for a read, what it answers. -/
def operation (call : Call) (now : ℕ) (s : Stores) : Stores × Option J :=
  match call with
  | .get key => (s, (s.redis.find now key).map fun e => parsed parse text e.value)
  | .set key value ex =>
    ({ s with redis := s.redis.write key value ((lifetime ex).map fun x => now + x * 1000) }, none)
  | .del key => ({ s with redis := s.redis.del key }, none)

def FallbackEntry.read (now : ℕ) (entry : FallbackEntry) : Option J :=
  if now < entry.expiresAt then some (text entry.value) else none

/-- The same on the memory; an entry without a lifetime gets a day. -/
def fallback (call : Call) (now : ℕ) (s : Stores) : Stores × Option J :=
  match call with
  | .get key => (s, (s.inMemoryFallback key).bind fun entry => entry.read text now)
  | .set key value ex =>
    let expiresAt := match lifetime ex with
      | some x => now + x * 1000
      | none => now + 24 * 60 * 60 * 1000
    ({ s with
        inMemoryFallback := Function.update s.inMemoryFallback key (some ⟨value, expiresAt⟩) }, none)
  | .del key => ({ s with inMemoryFallback := Function.update s.inMemoryFallback key none }, none)

/-- The process: its clock, the breaker, the two stores, and what the calls so far have done. -/
structure Process where
  clock : ℕ
  circuit : CircuitState
  stores : Stores
  latest : String → Option (String × Option ℕ)
  /-- The last set or delete of the key did not reach Redis. -/
  redisMissed : String → Bool
  /-- The last set or delete of the key did not reach the memory. -/
  memoryMissed : String → Bool

def Process.initial (clock : ℕ) (circuit : CircuitState) : Process where
  clock := clock
  circuit := circuit
  stores := ⟨Keys.empty, fun _ => none⟩
  latest := fun _ => none
  redisMissed := fun _ => false
  memoryMissed := fun _ => false

/-- The history after a call that ended at this time. -/
def Process.record (call : Call) (now : ℕ) (redis memory : Bool) (p : Process) : Process :=
  match call with
  | .get _ => p
  | .set key value ex =>
    { p with
      latest := Function.update p.latest key
        (some (value, (lifetime ex).map fun x => now + x * 1000))
      redisMissed := Function.update p.redisMissed key !redis
      memoryMissed := Function.update p.memoryMissed key !memory }
  | .del key =>
    { p with
      latest := Function.update p.latest key none
      redisMissed := Function.update p.redisMissed key !redis
      memoryMissed := Function.update p.memoryMissed key !memory }

/-- The catch block: it looks at the circuit and falls back. -/
def Process.rescue (call : Call) (pace : Pace) (applied : Bool) (p : Process) :
    Process × Option J :=
  let looked := p.clock + pace.looked
  let now := looked + pace.fellBack
  let done := fallback text call now p.stores
  ({ p with clock := now, circuit := getState redisOptions looked p.circuit, stores := done.1 }.record
    call now applied true, done.2)

def Process.executeWithCircuitBreaker (call : Call) (pace : Pace) (outcome : Outcome)
    (p : Process) : Process × Option J :=
  let now := p.clock + pace.entered
  let later := now + pace.reread
  let entered := enter redisOptions now later p.circuit
  match entered.2 with
  | some _ => { p with clock := later, circuit := entered.1 }.rescue text call pace false
  | none =>
    let ran := later + pace.ran
    let done := operation parse text call ran p.stores
    match outcome with
    | .answered =>
      ({ p with clock := ran, circuit := onSuccess entered.1, stores := done.1 }.record
        call ran true false, done.2)
    | .failed applied =>
      let failed := ran + pace.failed
      { p with
        clock := failed + pace.opened
        circuit := onFailure redisOptions failed (failed + pace.opened) entered.1
        stores := if applied then done.1 else p.stores }.rescue text call pace applied

/-- A call, another use of the breaker (which leaves it in any state), or the cleanup of the
memory. -/
inductive FallbackEvent where
  | call (call : Call) (pace : Pace) (outcome : Outcome)
  | otherUse (circuit : CircuitState) (waited : ℕ)
  | cleanupInMemoryFallback (waited : ℕ)
  deriving DecidableEq, Repr

def Process.cleanup (now : ℕ) (p : Process) : Process :=
  { p with
    clock := now
    stores := { p.stores with
      inMemoryFallback := fun key =>
        (p.stores.inMemoryFallback key).filter fun entry => ¬entry.expiresAt ≤ now } }

def Process.next (p : Process) : FallbackEvent → Process
  | .call call pace outcome => (p.executeWithCircuitBreaker parse text call pace outcome).1
  | .otherUse circuit waited => { p with clock := p.clock + waited, circuit := circuit }
  | .cleanupInMemoryFallback waited => p.cleanup (p.clock + waited)

/-! ## The law and its condition -/

/-- The key was last set to the value, which has not expired. -/
def Process.Holds (p : Process) (key : String) (now : ℕ) (value : String) : Prop :=
  ∃ expiresAt, p.latest key = some (value, expiresAt) ∧ ∀ t ∈ expiresAt, now < t

def Process.Shows (p : Process) (key : String) (now : ℕ) (form : J) : Prop :=
  ∃ value, p.Holds key now value ∧ form = parsed parse text value

/-- A read answers nothing, or the current value in the form that Redis gives it. -/
def ReadsCurrent (e : Process × FallbackEvent) : Prop :=
  ∀ key pace outcome, e.2 = .call (.get key) pace outcome →
    ∀ form ∈ (e.1.executeWithCircuitBreaker parse text (.get key) pace outcome).2,
      e.1.Shows parse text key (e.1.next parse text e.2).clock form

/-- Redis answers the call: the breaker lets it through and the connection holds. -/
def Process.answers (p : Process) (pace : Pace) (outcome : Outcome) : Prop :=
  (enter redisOptions (p.clock + pace.entered) (p.clock + pace.entered + pace.reread)
    p.circuit).2 = none ∧ outcome = .answered

structure Undisturbed (p : Process) (key : String) (answered : Prop) (now : ℕ) : Prop where
  /-- Redis, when it missed the key's last write, has nothing live left but the current value. -/
  redis : answered → p.redisMissed key = true → ∀ e, p.stores.redis.find now key = some e →
    ∃ value, p.Holds key now value ∧ parsed parse text e.value = parsed parse text value
  memory : ¬answered → p.memoryMissed key = true → ∀ e, p.stores.inMemoryFallback key = some e →
    now < e.expiresAt → ∃ value, p.Holds key now value ∧ text e.value = parsed parse text value
  unparsed : ¬answered → p.memoryMissed key = false → ∀ e,
    p.stores.inMemoryFallback key = some e → now < e.expiresAt →
      text e.value = parsed parse text e.value

def ReadsUndisturbed (e : Process × FallbackEvent) : Prop :=
  ∀ key pace outcome, e.2 = .call (.get key) pace outcome →
    Undisturbed parse text e.1 key (e.1.answers pace outcome) (e.1.next parse text e.2).clock

end Operations

/-! ## What a call does to the stores and to the history -/

section Calls

variable {J : Type} {parse : String → Option J} {text : String → J} {p : Process} {call : Call}
  {pace : Pace} {outcome : Outcome} {key : String} {now : ℕ} {s : Stores}

theorem execute_whenRefused {error : String}
    (h : (enter redisOptions (p.clock + pace.entered) (p.clock + pace.entered + pace.reread)
      p.circuit).2 = some error) :
    p.executeWithCircuitBreaker parse text call pace outcome =
      { p with
        clock := p.clock + pace.entered + pace.reread
        circuit := (enter redisOptions (p.clock + pace.entered)
          (p.clock + pace.entered + pace.reread) p.circuit).1 }.rescue text call pace false := by
  simp only [Process.executeWithCircuitBreaker, h]

theorem execute_answered
    (h : (enter redisOptions (p.clock + pace.entered) (p.clock + pace.entered + pace.reread)
      p.circuit).2 = none) :
    p.executeWithCircuitBreaker parse text call pace .answered =
      ({ p with
          clock := p.clock + pace.entered + pace.reread + pace.ran
          circuit := onSuccess (enter redisOptions (p.clock + pace.entered)
            (p.clock + pace.entered + pace.reread) p.circuit).1
          stores := (operation parse text call
            (p.clock + pace.entered + pace.reread + pace.ran) p.stores).1 }.record
          call (p.clock + pace.entered + pace.reread + pace.ran) true false,
        (operation parse text call
          (p.clock + pace.entered + pace.reread + pace.ran) p.stores).2) := by
  simp only [Process.executeWithCircuitBreaker, h]

theorem execute_failed {applied : Bool}
    (h : (enter redisOptions (p.clock + pace.entered) (p.clock + pace.entered + pace.reread)
      p.circuit).2 = none) :
    p.executeWithCircuitBreaker parse text call pace (.failed applied) =
      { p with
        clock := p.clock + pace.entered + pace.reread + pace.ran + pace.failed + pace.opened
        circuit := onFailure redisOptions
          (p.clock + pace.entered + pace.reread + pace.ran + pace.failed)
          (p.clock + pace.entered + pace.reread + pace.ran + pace.failed + pace.opened)
          (enter redisOptions (p.clock + pace.entered)
            (p.clock + pace.entered + pace.reread) p.circuit).1
        stores := if applied = true then (operation parse text call
            (p.clock + pace.entered + pace.reread + pace.ran) p.stores).1
          else p.stores }.rescue text call pace applied := by
  simp only [Process.executeWithCircuitBreaker, h]

theorem execute_cases (parse : String → Option J) (text : String → J) (p : Process) (call : Call)
    (pace : Pace) (outcome : Outcome) :
    p.answers pace outcome ∧ (∃ now circuit,
      p.executeWithCircuitBreaker parse text call pace outcome =
        ({ p with
            clock := now, circuit := circuit
            stores := (operation parse text call now p.stores).1 }.record call now true false,
          (operation parse text call now p.stores).2)) ∨
    ¬p.answers pace outcome ∧ (∃ now circuit applied ran, ran ≤ now ∧
      p.executeWithCircuitBreaker parse text call pace outcome =
        ({ p with
            clock := now, circuit := circuit
            stores := (fallback text call now
              (if applied = true then (operation parse text call ran p.stores).1
                else p.stores)).1 }.record call now applied true,
          (fallback text call now
            (if applied = true then (operation parse text call ran p.stores).1
              else p.stores)).2)) := by
  unfold Process.answers
  cases h : (enter redisOptions (p.clock + pace.entered) (p.clock + pace.entered + pace.reread)
      p.circuit).2 with
  | some error =>
    right
    exact ⟨fun hnot => (nomatch hnot.1), _, _, false, 0, Nat.zero_le _, execute_whenRefused h⟩
  | none =>
    cases outcome with
    | answered => exact .inl ⟨⟨rfl, rfl⟩, _, _, execute_answered h⟩
    | failed applied =>
      right
      refine ⟨fun hnot => (nomatch hnot.2), _, _, applied, _, ?_, execute_failed h⟩
      dsimp only
      omega

@[simp] theorem record_stores (call : Call) (now : ℕ) (redis memory : Bool) (p : Process) :
    (p.record call now redis memory).stores = p.stores := by
  cases call <;> rfl

@[simp] theorem record_clock (call : Call) (now : ℕ) (redis memory : Bool) (p : Process) :
    (p.record call now redis memory).clock = p.clock := by
  cases call <;> rfl

theorem record_of_ne (h : key ≠ call.key) (now : ℕ) (redis memory : Bool) (p : Process) :
    (p.record call now redis memory).latest key = p.latest key ∧
      (p.record call now redis memory).redisMissed key = p.redisMissed key ∧
      (p.record call now redis memory).memoryMissed key = p.memoryMissed key := by
  cases call with
  | get _ => exact ⟨rfl, rfl, rfl⟩
  | set k _ _ =>
    exact ⟨Function.update_of_ne h .., Function.update_of_ne h .., Function.update_of_ne h ..⟩
  | del k =>
    exact ⟨Function.update_of_ne h .., Function.update_of_ne h .., Function.update_of_ne h ..⟩

@[simp] theorem operation_memory :
    (operation parse text call now s).1.inMemoryFallback = s.inMemoryFallback := by
  cases call <;> rfl

theorem operation_redis_of_ne (h : key ≠ call.key) :
    (operation parse text call now s).1.redis key = s.redis key := by
  cases call with
  | get _ => rfl
  | set k _ _ => exact Keys.write_of_ne h
  | del k => exact Keys.del_of_ne h

@[simp] theorem fallback_redis : (fallback text call now s).1.redis = s.redis := by
  cases call <;> rfl

theorem fallback_memory_of_ne (h : key ≠ call.key) :
    (fallback text call now s).1.inMemoryFallback key = s.inMemoryFallback key := by
  cases call with
  | get _ => rfl
  | _ => exact Function.update_of_ne h ..

end Calls

/-! ## The invariant -/

/-- A store that took part in the key's last write holds the current value, or less. -/
structure CurrentAt (p : Process) (key : String) : Prop where
  redis : p.redisMissed key = false → ∀ e, p.stores.redis key = some e →
    ∃ expiresAt, p.latest key = some (e.value, expiresAt) ∧
      ∀ t ∈ expiresAt, ∃ u ∈ e.expiresAt, u ≤ t
  memory : p.memoryMissed key = false → ∀ e, p.stores.inMemoryFallback key = some e →
    ∃ expiresAt, p.latest key = some (e.value, expiresAt) ∧ ∀ t ∈ expiresAt, e.expiresAt ≤ t

section Invariant

variable {J : Type} {parse : String → Option J} {text : String → J} {p q : Process} {call : Call}
  {pace : Pace} {outcome : Outcome} {key : String} {now : ℕ}

theorem currentAt_initial (clock : ℕ) (circuit : CircuitState) (key : String) :
    CurrentAt (Process.initial clock circuit) key :=
  ⟨fun _ _ h => (nomatch h), fun _ _ h => (nomatch h)⟩

theorem CurrentAt.congr (hp : CurrentAt p key) (hredis : q.stores.redis key = p.stores.redis key)
    (hmemory : q.stores.inMemoryFallback key = p.stores.inMemoryFallback key)
    (hhistory : q.latest key = p.latest key ∧ q.redisMissed key = p.redisMissed key ∧
      q.memoryMissed key = p.memoryMissed key) : CurrentAt q key := by
  obtain ⟨hlatest, hr, hm⟩ := hhistory
  constructor
  · rw [hr, hredis, hlatest]
    exact hp.redis
  · rw [hm, hmemory, hlatest]
    exact hp.memory

theorem currentAt_operation (circuit : CircuitState) (hp : CurrentAt p key) :
    CurrentAt ({ p with
      clock := now, circuit := circuit
      stores := (operation parse text call now p.stores).1 }.record call now true false) key := by
  by_cases hkey : key = call.key
  · subst hkey
    cases call with
    | get k => exact hp.congr rfl rfl ⟨rfl, rfl, rfl⟩
    | set k value ex =>
      constructor
      · intro _ e he
        simp only [Process.record, operation, Call.key, Keys.write_self, Option.some.injEq] at he
        subst he
        refine ⟨_, Function.update_self .., ?_⟩
        exact fun t ht => ⟨t, ht, le_rfl⟩
      · intro hmissed
        simp only [Process.record, Call.key, Function.update_self] at hmissed
        cases hmissed
    | del k =>
      constructor
      · intro _ e he
        simp only [Process.record, operation, Call.key, Keys.del_self] at he
        cases he
      · intro hmissed
        simp only [Process.record, Call.key, Function.update_self] at hmissed
        cases hmissed
  · apply hp.congr
    · rw [record_stores]
      exact operation_redis_of_ne hkey
    · rw [record_stores, operation_memory]
    · exact record_of_ne hkey ..

theorem currentAt_fallback (circuit : CircuitState) (applied : Bool) {ran : ℕ} (hle : ran ≤ now)
    (hp : CurrentAt p key) :
    CurrentAt ({ p with
      clock := now, circuit := circuit
      stores := (fallback text call now
        (if applied = true then (operation parse text call ran p.stores).1
          else p.stores)).1 }.record call now applied true) key := by
  by_cases hkey : key = call.key
  · subst hkey
    cases call with
    | get k =>
      apply hp.congr
      · cases applied <;> rfl
      · cases applied <;> rfl
      · exact ⟨rfl, rfl, rfl⟩
    | set k value ex =>
      constructor
      · intro hmissed e he
        simp only [Process.record, Call.key, Function.update_self, Bool.not_eq_false'] at hmissed
        simp only [Process.record, fallback, operation, Call.key, hmissed, if_true,
          Keys.write_self, Option.some.injEq] at he
        subst he
        refine ⟨_, Function.update_self .., ?_⟩
        intro t ht
        obtain ⟨x, hx, rfl⟩ := Option.mem_map.1 ht
        refine ⟨ran + x * 1000, Option.mem_map.2 ⟨x, hx, rfl⟩, ?_⟩
        omega
      · intro _ e he
        simp only [Process.record, fallback, Call.key, Function.update_self,
          Option.some.injEq] at he
        subst he
        refine ⟨_, Function.update_self .., ?_⟩
        intro t ht
        obtain ⟨x, hx, rfl⟩ := Option.mem_map.1 ht
        simp only [Option.mem_def.1 hx, le_refl]
    | del k =>
      constructor
      · simp_all [Process.record, Call.key, operation]
      · intro _ e he
        simp only [Process.record, fallback, Call.key, Function.update_self] at he
        cases he
  · apply hp.congr
    · rw [record_stores, fallback_redis]
      cases applied
      · rfl
      · exact operation_redis_of_ne hkey
    · rw [record_stores]
      refine (fallback_memory_of_ne hkey).trans ?_
      cases applied
      · rfl
      · exact congrFun operation_memory key
    · exact record_of_ne hkey ..

theorem currentAt_next (event : FallbackEvent) (hp : CurrentAt p key) :
    CurrentAt (p.next parse text event) key := by
  cases event with
  | call call pace outcome =>
    show CurrentAt (p.executeWithCircuitBreaker parse text call pace outcome).1 key
    rcases execute_cases parse text p call pace outcome with
      ⟨-, now, circuit, he⟩ | ⟨-, now, circuit, applied, ran, hle, he⟩
    · rw [he]
      exact currentAt_operation circuit hp
    · rw [he]
      exact currentAt_fallback circuit applied hle hp
  | otherUse circuit waited => exact hp.congr rfl rfl ⟨rfl, rfl, rfl⟩
  | cleanupInMemoryFallback waited =>
    constructor
    · exact hp.redis
    · intro hmissed e he
      exact hp.memory hmissed e (Option.filter_eq_some_iff.1 he).1

theorem CurrentAt.shows_redis (hp : CurrentAt p key) (hm : p.redisMissed key = false)
    {e : Expiring String} (he : p.stores.redis.find now key = some e) :
    p.Shows parse text key now (parsed parse text e.value) := by
  obtain ⟨hentry, halive⟩ := Keys.find_eq_some.1 he
  obtain ⟨expiresAt, hlatest, hexpires⟩ := hp.redis hm e hentry
  refine ⟨e.value, ⟨expiresAt, hlatest, ?_⟩, rfl⟩
  intro t ht
  obtain ⟨u, hu, hle⟩ := hexpires t ht
  simp only [Expiring.alive, Option.mem_def.1 hu, Option.all_some, decide_eq_true_eq] at halive
  exact lt_of_lt_of_le halive hle

theorem CurrentAt.shows_memory (hp : CurrentAt p key) (hm : p.memoryMissed key = false)
    {e : FallbackEntry} (he : p.stores.inMemoryFallback key = some e) (hlive : now < e.expiresAt)
    {form : J} : p.Shows parse text key now form ↔ form = parsed parse text e.value := by
  obtain ⟨expiresAt, hlatest, hexpires⟩ := hp.memory hm e he
  constructor
  · rintro ⟨value, ⟨expiresAt', hlatest', -⟩, hform⟩
    rw [hlatest, Option.some.injEq, Prod.mk.injEq] at hlatest'
    rw [hform, hlatest'.1]
  · intro hform
    exact ⟨e.value, ⟨expiresAt, hlatest, fun t ht => lt_of_lt_of_le hlive (hexpires t ht)⟩, hform⟩

theorem FallbackEntry.read_eq_some {e : FallbackEntry} {form : J} :
    e.read text now = some form ↔ now < e.expiresAt ∧ text e.value = form := by
  unfold FallbackEntry.read
  split <;> simp_all

theorem redisRead_iff (hp : CurrentAt p key) {answered : Prop} (ha : answered) :
    (∀ form ∈ (p.stores.redis.find now key).map fun e => parsed parse text e.value,
        p.Shows parse text key now form) ↔ Undisturbed parse text p key answered now := by
  constructor
  · intro h
    constructor
    · intro _ _ e he
      exact h _ (Option.mem_map.2 ⟨e, he, rfl⟩)
    · exact fun hn => absurd ha hn
    · exact fun hn => absurd ha hn
  · intro hu form hform
    obtain ⟨e, he, rfl⟩ := Option.mem_map.1 hform
    cases hm : p.redisMissed key with
    | true => exact hu.redis ha hm e he
    | false => exact hp.shows_redis hm he

theorem memoryRead_iff (hp : CurrentAt p key) {answered : Prop} (ha : ¬answered) :
    (∀ form ∈ (p.stores.inMemoryFallback key).bind fun entry => entry.read text now,
        p.Shows parse text key now form) ↔ Undisturbed parse text p key answered now := by
  constructor
  · intro h
    have hread : ∀ e, p.stores.inMemoryFallback key = some e → now < e.expiresAt →
        p.Shows parse text key now (text e.value) := by
      intro e he hlive
      exact h _ (Option.mem_bind_iff.2 ⟨e, he, FallbackEntry.read_eq_some.2 ⟨hlive, rfl⟩⟩)
    constructor
    · exact fun hn => absurd hn ha
    · exact fun _ _ => hread
    · intro _ hm e he hlive
      exact (hp.shows_memory hm he hlive).1 (hread e he hlive)
  · intro hu form hform
    obtain ⟨e, he, hread⟩ := Option.mem_bind_iff.1 hform
    obtain ⟨hlive, rfl⟩ := FallbackEntry.read_eq_some.1 hread
    cases hm : p.memoryMissed key with
    | true => exact hu.memory ha hm e he hlive
    | false => exact (hp.shows_memory hm he hlive).2 (hu.unparsed ha hm e he hlive)

theorem read_iff (hp : CurrentAt p key) :
    (∀ form ∈ (p.executeWithCircuitBreaker parse text (.get key) pace outcome).2,
        p.Shows parse text key
          (p.executeWithCircuitBreaker parse text (.get key) pace outcome).1.clock form) ↔
      Undisturbed parse text p key (p.answers pace outcome)
        (p.executeWithCircuitBreaker parse text (.get key) pace outcome).1.clock := by
  rcases execute_cases parse text p (.get key) pace outcome with
    ⟨ha, now, circuit, he⟩ | ⟨ha, now, circuit, applied, ran, -, he⟩
  · rw [he, record_clock]
    exact redisRead_iff hp ha
  · have hstores : (if applied = true then (operation parse text (.get key) ran p.stores).1
        else p.stores) = p.stores := by
      cases applied <;> rfl
    rw [he, hstores, record_clock]
    exact memoryRead_iff hp ha

theorem readsCurrent_iff (hp : ∀ key, CurrentAt p key) (event : FallbackEvent) :
    ReadsCurrent parse text (p, event) ↔ ReadsUndisturbed parse text (p, event) := by
  constructor
  · intro h key pace outcome he
    have hread := h key pace outcome he
    subst he
    exact (read_iff (hp key)).1 hread
  · intro h key pace outcome he
    have hread := h key pace outcome he
    subst he
    exact (read_iff (hp key)).2 hread

end Invariant

/-- **What the fallback costs**: in every run of one process, whatever Redis, the breaker and the
clock do, every read answers nothing or the current value in the form that Redis gives it, exactly
when every read is undisturbed. -/
theorem fallback_agrees_iff {J : Type} (parse : String → Option J) (text : String → J)
    (clock : ℕ) (circuit : CircuitState) (events : List FallbackEvent) :
    (∀ e ∈ stepLog (Process.next parse text) (Process.initial clock circuit) events,
        ReadsCurrent parse text e) ↔
      ∀ e ∈ stepLog (Process.next parse text) (Process.initial clock circuit) events,
        ReadsUndisturbed parse text e :=
  forall_trace_iff (currentAt_initial clock circuit) (fun _ event hp => readsCurrent_iff hp event)
    fun _ event hp _ key => currentAt_next event (hp key)

/-- A set that Redis takes, a set during an outage, and a read after it. -/
def shortOutage : List FallbackEvent :=
  [.call (.set "status" "busy" none) ⟨0, 0, 0, 0, 0, 0, 0⟩ .answered,
    .call (.set "status" "online" none) ⟨0, 0, 0, 0, 0, 0, 0⟩ (.failed false),
    .call (.get "status") ⟨0, 0, 0, 0, 0, 0, 0⟩ .answered]

/-- Redis answers with the value that the second set has replaced. -/
theorem shortOutage_not_current :
    ¬∀ e ∈ stepLog (Process.next (fun _ => none) id) (Process.initial 0 .initial) shortOutage,
      ReadsCurrent (fun _ => none) id e := by
  intro h
  have hlast : ReadsCurrent (fun _ => none) id
      (runFrom (Process.next (fun _ => none) id) (Process.initial 0 .initial)
        (shortOutage.take 2), .call (.get "status") ⟨0, 0, 0, 0, 0, 0, 0⟩ .answered) :=
    (forall_stepLog_split h).1
  obtain ⟨value, ⟨expiresAt, hlatest, -⟩, hform⟩ :=
    hlast "status" ⟨0, 0, 0, 0, 0, 0, 0⟩ .answered rfl "busy" (by decide +kernel)
  have honline : (runFrom (Process.next (fun _ => none) id) (Process.initial 0 .initial)
      (shortOutage.take 2)).latest "status" = some ("online", none) := by decide +kernel
  rw [honline, Option.some.injEq, Prod.mk.injEq] at hlatest
  rw [← hlatest.1] at hform
  exact absurd hform (by decide)

end VibemeetBackend.Breaker
