import Mathlib.Data.List.AList
import VibemeetBackend.Async.Trace

/-!
# The socket registry

The sockets of one user, as the instances of the server share them in Redis: one hash whose fields
are the socket ids, with one expiry for the whole hash, and the key of the heartbeat lease.

Beside the hash stands the history of the registrations, which no script reads.
-/

namespace VibemeetBackend.Presence

/-! ### The constants -/

/-- `parseInt(variable || …, 10) || fallback`. -/
def parsedOr (parsed : Option ℤ) (fallback : ℤ) : ℤ :=
  match parsed with
  | some n => if n = 0 then fallback else n
  | none => fallback

/-- The environment variables of the registry, as `parseInt` reads them. -/
structure RegistryEnv where
  creatorPresenceTtlSeconds : Option ℤ
  presenceSocketRegistryTtlSeconds : Option ℤ
  creatorHeartbeatIntervalMs : Option ℤ

namespace RegistryEnv

variable (env : RegistryEnv)

def presenceTtlSeconds : ℤ := min 600 (max 90 (parsedOr env.creatorPresenceTtlSeconds 180))

def registryHashTtlSeconds : ℤ :=
  min 630 (max 120
    (parsedOr env.presenceSocketRegistryTtlSeconds (env.presenceTtlSeconds + 30)))

def heartbeatIntervalMs : ℤ :=
  min (max 20000 (env.presenceTtlSeconds * 1000 - 15000))
    (max 20000 (parsedOr env.creatorHeartbeatIntervalMs 45000))

def heartbeatLeaseTtlMs : ℤ := env.heartbeatIntervalMs * 2

def hashExpiry (now : ℤ) : ℤ := now + env.registryHashTtlSeconds * 1000

end RegistryEnv

/-! ### The hash -/

inductive PresenceSocketRole
  | creator | user
  deriving DecidableEq, Repr

structure PresenceSocketRecord where
  instanceId : String
  version : ℕ
  connectedAt : ℤ
  role : PresenceSocketRole

abbrev Fields : Type := AList fun _ : String => PresenceSocketRecord

/-- The hash at `presenceSocketsKey`. -/
structure SocketHash where
  fields : Fields
  expiresAt : ℤ

/-- The key at `presenceHbOwnerKey`. -/
structure HeartbeatLease where
  instanceId : String
  expiresAt : ℤ

structure Keys where
  now : ℤ
  sockets : Option SocketHash
  hbOwner : Option HeartbeatLease

namespace Keys

def fields (k : Keys) : Fields := (k.sockets.map SocketHash.fields).getD ∅

def hget (k : Keys) (socketId : String) : Option PresenceSocketRecord := k.fields.lookup socketId

def hlen (k : Keys) : ℕ := k.fields.keys.length

/-- Redis drops the keys whose time has come. -/
def purge (k : Keys) : Keys :=
  { k with
    sockets := k.sockets.filter fun h => k.now < h.expiresAt
    hbOwner := k.hbOwner.filter fun l => k.now < l.expiresAt }

end Keys

/-! ### The scripts -/

structure RegisterSocketResult where
  count : ℕ
  version : ℕ
  isFirst : Bool

structure UnregisterSocketResult where
  count : ℕ
  removed : Bool

/-- The version that `REGISTER_SOCKET_SCRIPT` gives: one more than that of the record it finds. -/
def nextVersion (existing : Option PresenceSocketRecord) : ℕ :=
  match existing with
  | some record => record.version + 1
  | none => 1

variable (env : RegistryEnv)

def Keys.hset (k : Keys) (socketId : String) (record : PresenceSocketRecord) : Keys :=
  { k with sockets := some ⟨k.fields.insert socketId record, env.hashExpiry k.now⟩ }

/-- HDEL, then DEL of an empty hash and EXPIRE of another. -/
def Keys.hdel (k : Keys) (socketId : String) : Keys :=
  let fields := k.fields.erase socketId
  { k with
    sockets := if fields.keys.length = 0 then none else some ⟨fields, env.hashExpiry k.now⟩ }

/-- `REGISTER_SOCKET_SCRIPT`. -/
def registerSocket (k : Keys) (instanceId socketId : String) (role : PresenceSocketRole)
    (connectedAt : ℤ) : Keys × RegisterSocketResult :=
  let version := nextVersion (k.hget socketId)
  let k' := k.hset env socketId ⟨instanceId, version, connectedAt, role⟩
  (k', ⟨k'.hlen, version, k.hlen = 0⟩)

/-- `UNREGISTER_SOCKET_SCRIPT`. -/
def unregisterSocket (k : Keys) (socketId : String) (version : ℕ) :
    Keys × UnregisterSocketResult :=
  match k.hget socketId with
  | none => (k, ⟨k.hlen, false⟩)
  | some record =>
    if record.version ≠ version then (k, ⟨k.hlen, false⟩)
    else
      let k' := k.hdel env socketId
      (k', ⟨k'.hlen, true⟩)

def hasAnySocket (k : Keys) : Bool := decide (0 < k.hlen)

def tryAcquireHeartbeatLease (k : Keys) (instanceId : String) : Keys :=
  match k.hbOwner with
  | some _ => k
  | none => { k with hbOwner := some ⟨instanceId, k.now + env.heartbeatLeaseTtlMs⟩ }

/-- `RENEW_HEARTBEAT_LEASE_SCRIPT`. -/
def renewHeartbeatLease (k : Keys) (instanceId : String) : Keys :=
  if (k.hbOwner.map HeartbeatLease.instanceId) = some instanceId then
    { k with
      hbOwner := some ⟨instanceId, k.now + env.heartbeatLeaseTtlMs⟩
      sockets := k.sockets.map fun h =>
        if 0 < h.fields.keys.length then { h with expiresAt := env.hashExpiry k.now } else h }
  else k

/-! ### The history -/

/-- A registration: what it was called with and answered, and its number among those of its socket
since the socket last had no open one. -/
structure Registration where
  id : ℕ
  socketId : String
  version : ℕ
  rank : ℕ
  deriving DecidableEq

/-- The registrations, newest first, those that were unregistered, and the number of those that
came before the hash last expired. -/
structure History where
  registered : List Registration
  unregistered : List ℕ
  expired : ℕ

namespace History

variable (h : History)

def IsOpen (r : Registration) : Prop := r.id ∉ h.unregistered ∧ h.expired ≤ r.id

instance (r : Registration) : Decidable (h.IsOpen r) := inferInstanceAs (Decidable (_ ∧ _))

def latest (socketId : String) : Option Registration :=
  h.registered.find? fun r => r.socketId = socketId

def HasOpen (socketId : String) : Prop :=
  ∃ r ∈ h.registered, r.socketId = socketId ∧ h.IsOpen r

instance (socketId : String) : Decidable (h.HasOpen socketId) :=
  inferInstanceAs (Decidable (∃ r ∈ h.registered, _))

def nextRank (socketId : String) : ℕ :=
  if h.HasOpen socketId then ((h.latest socketId).map Registration.rank).getD 0 + 1 else 1

def find (id : ℕ) : Option Registration := h.registered.find? fun r => r.id = id

end History

/-! ### One call -/

/-- What can happen: the calls of the instances and the passing of time.  A call that releases the
lease reads the owner first and deletes the key later. -/
inductive Event
  | register (instanceId socketId : String) (role : PresenceSocketRole) (connectedAt : ℤ)
  | unregister (id : ℕ)
  | unregisterUnknown (socketId : String)
  | tryAcquireHeartbeatLease (instanceId : String)
  | renewHeartbeatLease (instanceId : String)
  | releaseRead (instanceId : String)
  | releaseDelete
  | pass (ms : ℕ)
  deriving DecidableEq, Repr

structure World where
  keys : Keys
  releases : ℕ
  history : History

/-- The keys and the history before the first call. -/
def World.start (now : ℤ) : World := ⟨⟨now, none, none⟩, 0, ⟨[], [], 0⟩⟩

/-- The script that an unregister runs: the call carries the version that the registration was
answered with, and 0 when the answer has not come yet. -/
def World.unregisterResult (w : World) (r : Registration) : Keys × UnregisterSocketResult :=
  unregisterSocket env w.keys r.socketId r.version

def History.register (h : History) (socketId : String) (version : ℕ) : History :=
  { h with registered := ⟨h.registered.length, socketId, version, h.nextRank socketId⟩ ::
      h.registered }

def World.next (w : World) : Event → World
  | .register instanceId socketId role connectedAt =>
    let (k, result) := registerSocket env w.keys instanceId socketId role connectedAt
    { w with keys := k, history := w.history.register socketId result.version }
  | .unregister id =>
    match w.history.find id with
    | none => w
    | some r =>
      { w with
        keys := (w.unregisterResult env r).1
        history := { w.history with unregistered := id :: w.history.unregistered } }
  | .unregisterUnknown socketId => { w with keys := (unregisterSocket env w.keys socketId 0).1 }
  | .tryAcquireHeartbeatLease instanceId =>
    { w with keys := tryAcquireHeartbeatLease env w.keys instanceId }
  | .renewHeartbeatLease instanceId => { w with keys := renewHeartbeatLease env w.keys instanceId }
  | .releaseRead instanceId =>
    if (w.keys.hbOwner.map HeartbeatLease.instanceId) = some instanceId then
      { w with releases := w.releases + 1 }
    else w
  | .releaseDelete =>
    match w.releases with
    | 0 => w
    | n + 1 => { w with releases := n, keys := { w.keys with hbOwner := none } }
  | .pass ms =>
    let k := { w.keys with now := w.keys.now + ms }.purge
    { w with
      keys := k
      history := if w.keys.sockets.isSome ∧ k.sockets = none then
        { w.history with expired := w.history.registered.length } else w.history }

end VibemeetBackend.Presence
