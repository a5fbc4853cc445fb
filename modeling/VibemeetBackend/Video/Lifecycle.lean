import VibemeetBackend.Video.Finalization

/-!
# The webhooks of a call

`call-lifecycle.service.ts`: the handlers of the Stream webhooks, and with the ends of
`Video.Finalization`, the starts and the settlement everything that can be admitted at any time.
-/

namespace VibemeetBackend.Video

open Async Billing

variable (cfg : VideoConfig)

/-- `Call.create`, which fails when the call is there. -/
def createCall (callId : String) (call : CallDoc) : VideoFlow Unit := do
  let (_, s) ← run (.createCall callId call)
  if (s.calls callId).isSome = true then throw "E11000 duplicate key error" else pure ()

def ensureCallRecordExists (callId : String) : VideoFlow Unit := do
  let (_, s) ← run .query
  if (s.calls callId).isSome = true then pure ()
  else do
    let (r, _) ← run .query
    match r.participants with
    | none => pure ()
    | some p => do
      let _ ← Flow.attempt (do
        let (r, _) ← run .query
        createCall callId (newCall .ringing r.price))
      markCreatorBusyForCall callId p.creatorUid .ringing

/-- The last step of `handleCallEnded`. -/
def markEnded (callId : String) (call : CallDoc) : VideoFlow Unit := do
  let now ← dateNow
  let _ ← run (.saveCall .callEnded callId call
    { transitionCallStatus now .ended call with isSettled := true })
  pure ()

def handleCallEnded (callId : String) (t : EndTokens) : VideoFlow Unit := do
  let _ ← Flow.attempt (finalizeCallEnd cfg callId t)
  let (_, s) ← run .query
  match s.calls callId with
  | some call => markEnded callId call
  | none => do
    let (r, _) ← run .query
    match r.participants with
    | none => pure ()
    | some _ => do
      let (r, _) ← run .query
      createCall callId (newCall .accepted r.price)
      markEnded callId (newCall .accepted r.price)

/-- The document that `handleSessionStarted` saves. -/
def startCall (now : ℤ) (startedAt : Option ℤ) (price : PriceSnapshot) (call : CallDoc) : CallDoc :=
  let started := { call with startedAt := some (startedAt.getD now) }
  let accepted :=
    if started.status = .ringing then transitionCallStatus now .accepted started else started
  { accepted with
    price :=
      { priceAtCallTime := accepted.price.priceAtCallTime <|> price.priceAtCallTime
        creatorShareAtCallTime :=
          accepted.price.creatorShareAtCallTime <|> price.creatorShareAtCallTime }
    billedSeconds := 0
    userCoinsSpent := 0
    creatorCoinsEarned := 0
    isForceEnded := false
    isSettled := false }

/-- The rest of `handleSessionStarted` without a billing session: the start of one. -/
def startBillingOfCall (callId token : String) : VideoFlow Unit := do
  let (r, _) ← run .query
  if let some uid := r.creatorUid then markCreatorBusyForCall callId uid .sessionStarted
  let (r', _) ← run .query
  match r.creatorUid, r'.callerUid, r'.creatorMongoId with
  | some creatorFirebaseUid, some userFirebaseUid, some creatorMongoId => do
    let (r, _) ← quiet .query
    -- `handleCallStartedHttp`, whose errors are caught
    if r.admitted = true then do
      let _ ← Flow.attempt (onStart callId (ActiveCall.startBillingSession cfg.billing callId token
        ⟨userFirebaseUid, creatorFirebaseUid, creatorMongoId⟩))
      pure ()
    else pure ()
  | _, _, _ => pure ()

def handleSessionStarted (callId : String) (startedAt : Option ℤ) (token : String) :
    VideoFlow Unit := do
  ensureCallRecordExists callId
  let (_, s) ← run .query
  match s.calls callId with
  | none => do
    let (r, _) ← run .query
    if let some uid := r.creatorUid then markCreatorBusyForCall callId uid .sessionStarted
  | some call => do
    let (_, s) ← run .query
    if (s.session callId).isSome = true then do
      let (r, _) ← run .query
      if let some uid := r.creatorUid then markCreatorBusyForCall callId uid .sessionStarted
    else do
      let (r, _) ← run .query
      let _ ← run (.saveCall .sessionStarted callId call (startCall r.now startedAt r.price call))
      startBillingOfCall cfg callId token

/-- The document that `handleSessionEnded` saves. -/
def endSession (now : ℤ) (endedAt : Option ℤ) (call : CallDoc) : CallDoc :=
  let dated := { call with endedAt := call.endedAt <|> some (endedAt.getD now) }.withDuration
  { (if dated.status ≠ .ended then transitionCallStatus now .ended dated else dated) with
    isSettled := true }

def handleSessionEnded (callId : String) (endedAt : Option ℤ) (t : EndTokens) : VideoFlow Unit := do
  let _ ← Flow.attempt (finalizeCallEnd cfg callId t)
  let (_, s) ← run .query
  match s.calls callId with
  | none => pure ()
  | some call =>
    if call.isSettled = true then pure ()
    else do
      let now ← dateNow
      let _ ← run (.saveCall .sessionEnded callId call (endSession now endedAt call))
      pure ()

def readActiveCallConflict (callId uid : String) : VideoFlow Bool := do
  let (_, s) ← run (.readSlot uid)
  match s.slot uid with
  | none => pure false
  | some activeCallId =>
    if activeCallId = callId then pure false
    else do
      let (_, s) ← run .query
      if (s.session activeCallId).isSome = true then pure true
      else do
        let _ ← quiet (.delSlot .conflict callId uid)
        let _ ← run .query
        pure false

def rejectOverlappingIncomingCallIfNeeded (callId : String) (t : EndTokens) : VideoFlow Bool := do
  let (r, _) ← run .query
  match r.participants with
  | none => pure false
  | some p => do
    let callerConflict ← readActiveCallConflict callId p.callerUid
    let creatorConflict ← readActiveCallConflict callId p.creatorUid
    if (callerConflict || creatorConflict) = false then pure false
    else do
      let (_, s) ← run (.claimKey (.overlapRejected callId))
      if s.keys (.overlapRejected callId) = true then pure true
      else do
        let _ ← Flow.attempt (finalizeCallEnd cfg callId t)
        pure true

def handleCallRinging (callId : String) (t : EndTokens) : VideoFlow Unit := do
  ensureCallRecordExists callId
  if (← rejectOverlappingIncomingCallIfNeeded cfg callId t) = true then pure ()
  else do
    let (r, _) ← run .query
    match r.creatorUid with
    | none => pure ()
    | some uid => do
      let (r, _) ← run .query
      if r.creatorOnline = false then do
        let _ ← run (.claimKey (.offlineRejected callId))
        pure ()
      else markCreatorBusyForCall callId uid .ringing

def handleCallAccepted (callId : String) : VideoFlow Unit := do
  ensureCallRecordExists callId
  let (r, _) ← run .query
  match r.creatorUid with
  | none => pure ()
  | some uid => markCreatorBusyForCall callId uid .accepted

def transitionCallStatusById (callId : String) (nextStatus : CallStatus) : VideoFlow Unit := do
  let (_, s) ← run .query
  match s.calls callId with
  | none => pure ()
  | some call => do
    let now ← dateNow
    let _ ← run (.saveCall .byId callId call (transitionCallStatus now nextStatus call))
    pure ()

/-! ### Requests -/

/-- `StreamVideoWebhookPayload.type`, with the dates of its payload. -/
inductive Webhook where
  | ringing
  | accepted
  | sessionStarted (startedAt : Option ℤ)
  | sessionEnded (endedAt : Option ℤ)
  | ended

/-- What can be admitted at any time: a webhook, an end that another module requests, an admin
transition, the insertion of a promoted call, a client's start, a step of the settlement that no end
waits for, the deletion of an ended call's keys, or the expiry of a key. -/
inductive Request where
  | webhook (callId : String) (w : Webhook) (t : EndTokens) (token : String)
  | explicitEnd (callId : String) (t : EndTokens)
  | finalize (callId : String) (t : EndTokens)
  | transition (callId : String) (nextStatus : CallStatus)
  | upsertCall (callId : String)
  | start (callId token : String) (q : StartRequest)
  | settlement (callId : String) (q : Settlement.Request)
  | deleteKeys (callId : String) (p : ActiveCall.Parties)
  | deadLetterSlot (callId uid : String)
  | expireKey (k : VideoKey)
  | expireSlot (uid : String)
  | expireSession (callId : String)

def routeEvent (callId : String) (t : EndTokens) (token : String) : Webhook → VideoFlow Unit
  | .ringing => handleCallRinging cfg callId t
  | .accepted => handleCallAccepted callId
  | .sessionStarted startedAt => handleSessionStarted cfg callId startedAt token
  | .sessionEnded endedAt => handleSessionEnded cfg callId endedAt t
  | .ended => handleCallEnded cfg callId t

def program (q : Request) : Prog VideoCmd VideoReply VideoStore Unit :=
  let flow : VideoFlow Unit :=
    match q with
    | .webhook callId w t token => routeEvent cfg callId t token w
    | .explicitEnd callId t => endExplicitly cfg callId t
    | .finalize callId t => finalizeCallEnd cfg callId t
    | .transition callId nextStatus => transitionCallStatusById callId nextStatus
    | .upsertCall callId => do
      let _ ← quiet (.upsertCall callId)
      pure ()
    | .start callId token q =>
      onStart callId (ActiveCall.startBillingSession cfg.billing callId token q)
    | .settlement callId q =>
      onSettlement callId (ExceptT.mk (Settlement.program cfg.settlement q >>= fun _ => pure (.ok ())))
    | .deleteKeys callId p => do
      let _ ← run (.setKey (.terminal callId))
      onStart callId (ActiveCall.deleteBillingSessionRedisKeys callId p)
    | .deadLetterSlot callId uid => clearSlotOfDeadLetter callId uid
    | .expireKey k => do
      let _ ← quiet (.expireKey k)
      pure ()
    | .expireSlot uid => do
      let _ ← quiet (.expireSlot uid)
      pure ()
    | .expireSession callId => do
      let _ ← quiet (.start callId (.delSession callId))
      pure ()
  flow.run >>= fun _ => .ret ()

abbrev VideoEvent : Type := Event VideoCmd VideoReply VideoStore

def runOf (s : VideoStore) (ms : List (Move Request VideoReply)) :
    Pool VideoCmd VideoReply VideoStore :=
  (Pool.start s).play exec (program cfg) ms

end VibemeetBackend.Video
