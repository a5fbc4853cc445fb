import VibemeetBackend.CreatorReferral.Stages

/-!
# A stage is paid once

Whole runs of the triggers and the repair, with changes of the configuration and of the wallets
between any two of their commands, and requests that stop for good anywhere.

The mark of a stage and its ledger row are written by one transaction, so the row of a stage that is
not marked does not exist: the update that adopts a row finds the mark, and leaves its amount alone.
-/

namespace VibemeetBackend.CreatorReferral

open Async Flow Rewards Pool

/-! ### What a request knows -/

structure Phase where
  edge : Option (ObjectId × ObjectId)
  paid : Option String

namespace Phase

def start : Phase := ⟨none, none⟩

def next (φ : Phase) (c : Cmd) (_ : Reply) (s : Store) : Phase :=
  match c with
  | .find (.edgeOf creatorUserId referredUserId) =>
    if (s.edgeOf creatorUserId referredUserId).isSome then
      { φ with edge := some (creatorUserId, referredUserId) }
    else φ
  | .find (.edgeOfReferred referredUserId) =>
    match s.edges.find referredUserId with
    | some e => { φ with edge := some (e.creatorUserId, referredUserId) }
    | none => φ
  | .find (.transaction transactionId) =>
    if (s.ledger.row transactionId).isSome then { φ with paid := some transactionId } else φ
  | _ => φ

end Phase

/-- A credit is for the edge that was found, an adoption for its row; a new edge is unpaid. -/
def Allows (φ : Phase) : Cmd → Prop
  | .commit (some w) => φ.edge = some (w.creatorUserId, w.edge.referredUserId)
  | .adopt stage referredUserId _ => ∃ creatorUserId,
    φ.edge = some (creatorUserId, referredUserId) ∧
      φ.paid = some (creatorReferralStageTransactionId stage creatorUserId referredUserId)
  | .createEdge edge => ∀ stage, edge.reward stage = .unpaid
  | _ => True

variable {s : Store} {w : StageCredit} {e : CreatorReferralEdge}

section protocol

variable {α β : Type} {φ : Phase} {Q : α → Phase → Prop}

abbrev Keeps (φ : Phase) (p : ReferralFlow α) (Q : α → Phase → Prop) : Prop :=
  Follows (guarded Allows Phase.next) φ p Q fun _ _ => True

theorem keeps_run_bind {c : Cmd} {f : Reply × Store → ReferralFlow α} (hc : Allows φ c)
    (h : ∀ r s, Keeps (φ.next c r s) (f (r, s)) Q) : Keeps φ (run c >>= f) Q :=
  follows_guarded_bind hc (fun _ _ => trivial) fun r s _ => h r s

theorem keeps_bind {p : ReferralFlow β} {f : β → ReferralFlow α}
    (hp : Keeps φ p fun _ _ => True) (hf : ∀ b φ', Keeps φ' (f b) Q) : Keeps φ (p >>= f) Q := by
  simp [hp, hf]

variable {input : StageInput}

theorem creditOf_spec {coins : ℤ} {a : Unit} (h : creditOf input coins s = .ok (some w, a)) :
    w.creatorUserId = input.creatorUserId ∧ w.edge.referredUserId = input.referredUserId := by
  unfold creditOf at h
  split at h
  · cases h
  rename_i edge hedge
  split at h
  · cases h
  split at h
  · cases h
  split at h
  · cases h
  · cases h
    exact ⟨rfl, (Edges.mem_of_find hedge).2⟩

theorem payStage_keeps (coins : ℤ) (attempts : ℕ)
    (h : φ.edge = some (input.creatorUserId, input.referredUserId)) :
    Keeps φ (payStage input coins attempts) fun _ _ => True := by
  apply keeps_run_bind
  · trivial
  intro r s
  have hedge : (φ.next (.find (.transaction input.transactionId)) r s).edge =
      some (input.creatorUserId, input.referredUserId) := by
    unfold Phase.next
    dsimp only
    split <;> exact h
  have hpaid : ∀ row, s.ledger.row input.transactionId = some row →
      (φ.next (.find (.transaction input.transactionId)) r s).paid =
        some input.transactionId := by
    intro row hrow
    simp [Phase.next, hrow]
  revert hedge hpaid
  generalize φ.next (.find (.transaction input.transactionId)) r s = φ₁
  intro hedge hpaid
  dsimp only
  split
  case h_1 row hrow =>
    apply keeps_run_bind
    · exact ⟨input.creatorUserId, hedge, hpaid row hrow⟩
    intro _ _
    exact follows_pure trivial
  case h_2 =>
    apply follows_withTransaction transactions
      (P := fun φ => φ.edge = some (input.creatorUserId, input.referredUserId))
    · intro φ' r' s' hφ'
      exact ⟨_, guarded_of trivial, hφ'⟩
    · intro φ' s₀ w a hφ' hok r' s'
      have hallows : Allows φ' (.commit w) := by
        cases w with
        | none => trivial
        | some w =>
          obtain ⟨hcreator, hreferred⟩ := creditOf_spec hok
          rw [Allows, hcreator, hreferred]
          exact hφ'
      exact ⟨_, guarded_of hallows, fun _ => ⟨trivial, fun _ => trivial⟩, fun _ => hφ'⟩
    · intro _ _ _
      trivial
    · exact hedge

theorem creditStage_keeps (attempts : ℕ)
    (h : φ.edge = some (input.creatorUserId, input.referredUserId)) :
    Keeps φ (creditStage input attempts) fun _ _ => True := by
  apply keeps_run_bind
  · trivial
  intro _ s
  dsimp only
  split
  · exact follows_pure trivial
  apply keeps_run_bind
  · trivial
  intro _ _
  split
  · exact follows_pure trivial
  split
  · exact follows_pure trivial
  · exact payStage_keeps _ attempts h

theorem next_edgeOf {creatorUserId referredUserId : ObjectId}
    (h : s.edgeOf creatorUserId referredUserId = some e) (r : Reply) :
    (φ.next (.find (.edgeOf creatorUserId referredUserId)) r s).edge =
      some (creatorUserId, referredUserId) := by
  simp [Phase.next, h]

theorem tryCreditAttach_keeps (creatorUserId referredUserId : ObjectId) (attempts : ℕ) :
    Keeps φ (tryCreditAttach creatorUserId referredUserId attempts) fun _ _ => True := by
  apply keeps_run_bind
  · trivial
  intro r s
  dsimp only
  split
  case h_1 => exact follows_pure trivial
  case h_2 e he => exact creditStage_keeps attempts (next_edgeOf he r)

theorem tryCreditTelegram_keeps (creatorUserId referredUserId : ObjectId) (attempts : ℕ) :
    Keeps φ (tryCreditTelegram creatorUserId referredUserId attempts) fun _ _ => True := by
  apply keeps_run_bind
  · trivial
  intro r s
  dsimp only
  split
  case h_1 => exact follows_pure trivial
  case h_2 e he =>
    split
    · exact creditStage_keeps attempts (next_edgeOf he r)
    · exact follows_pure trivial

variable (referredUserId : ObjectId)

theorem tryCreditPurchase_keeps (attempts : ℕ) :
    Keeps φ (tryCreditPurchase referredUserId attempts) fun _ _ => True := by
  apply keeps_run_bind
  · trivial
  intro r s
  dsimp only
  split
  case h_1 => exact follows_pure trivial
  case h_2 e he =>
    apply creditStage_keeps attempts
    unfold Phase.next
    dsimp only
    rw [he]

theorem creditQualifyingPurchase_keeps (attempts : ℕ) :
    Keeps φ (creditQualifyingPurchase referredUserId attempts) fun _ _ => True := by
  simp [tryCreditPurchase_keeps, Allows, run, creditQualifyingPurchase]

theorem creditTelegramIf_keeps (condition : Bool) (creatorUserId referredUserId : ObjectId)
    (attempts : ℕ) :
    Keeps φ (creditTelegramIf condition creatorUserId referredUserId attempts)
      fun _ _ => True := by
  simp [creditTelegramIf, tryCreditTelegram_keeps]

theorem attached_keeps (input : AttachInput) (attempts : ℕ) :
    Keeps φ (createCreatorReferralEdgeAfterAttach input attempts) fun _ _ => True := by
  apply keeps_bind
  · simp [telegramClaimed, Allows, run]
  intro telegramJoined φ₁
  apply keeps_run_bind
  · intro stage
    cases stage <;> rfl
  intro _ _
  apply keeps_bind (tryCreditAttach_keeps _ _ _)
  intro _ _
  apply keeps_bind (creditTelegramIf_keeps _ _ _ _)
  intro _ _
  exact creditQualifyingPurchase_keeps _ _

theorem telegramJoined_keeps (attempts : ℕ) :
    Keeps φ (markCreatorReferralTelegramJoined referredUserId attempts) fun _ _ => True := by
  apply keeps_run_bind
  · trivial
  intro r s
  dsimp only
  split
  · exact tryCreditTelegram_keeps _ _ _
  apply keeps_run_bind
  · trivial
  intro r' s'
  split
  · exact follows_pure trivial
  · exact creditTelegramIf_keeps _ _ _ _

theorem reconcileRows_keeps (attempts : ℕ) (rows : List CreatorReferralEdge) :
    Keeps φ (reconcileRows attempts rows) fun _ _ => True := by
  induction rows generalizing φ with
  | nil => exact follows_pure trivial
  | cons row rows ih =>
    simp_all [creditAttachIf, creditPurchaseIf, tryCreditAttach_keeps, creditTelegramIf_keeps,
      creditQualifyingPurchase_keeps, reconcileRows]

theorem reconcile_keeps (limit attempts : ℕ) :
    Keeps φ (reconcileUnpaidCreatorReferrals limit attempts) fun _ _ => True := by
  simp [reconcileRows_keeps, Allows, run, reconcileUnpaidCreatorReferrals]

theorem program_keeps (q : Request) :
    (program q).Follows (guarded Allows Phase.next) .start fun _ _ => True := by
  cases q with
  | attached input attempts => exact Follows.run (attached_keeps input attempts)
  | telegramClaimed referredUserId attempts =>
    exact Follows.run (telegramJoined_keeps referredUserId attempts)
  | callSettled referredUserId => trivial
  | purchased referredUserId attempts =>
    exact Follows.run (tryCreditPurchase_keeps referredUserId attempts)
  | reconcile limit attempts => exact Follows.run (reconcile_keeps limit attempts)
  | setConfig | income | repairBalance | claimTelegram | purchase =>
    exact fun r s => ⟨_, guarded_of trivial, trivial⟩

end protocol

/-! ### The rewards of the edges -/

def StageReward.ofRow : Option CoinTransaction → StageReward
  | some row => ⟨true, some row.coins⟩
  | none => .unpaid

def Store.stageRow (s : Store) (stage : CreatorReferralStage) (e : CreatorReferralEdge) :
    Option CoinTransaction :=
  s.ledger.row (creatorReferralStageTransactionId stage e.creatorUserId e.referredUserId)

structure Recorded (s : Store) : Prop where
  rewards : ∀ e ∈ s.edges.docs, ∀ stage, e.reward stage = .ofRow (s.stageRow stage e)
  rows : ∀ row ∈ s.ledger.rows, ∃ e ∈ s.edges.docs, ∃ stage,
    row.transactionId =
      creatorReferralStageTransactionId stage e.creatorUserId e.referredUserId

structure Known (φ : Phase) (s : Store) : Prop where
  edge : ∀ creatorUserId referredUserId, φ.edge = some (creatorUserId, referredUserId) →
    ∃ e, s.edges.find referredUserId = some e ∧ e.creatorUserId = creatorUserId
  paid : ∀ transactionId, φ.paid = some transactionId → (s.ledger.row transactionId).isSome

structure Grows (s s' : Store) : Prop where
  edges : ∀ referredUserId e, s.edges.find referredUserId = some e →
    ∃ e', s'.edges.find referredUserId = some e' ∧ e'.creatorUserId = e.creatorUserId
  rows : ∀ transactionId row, s.ledger.row transactionId = some row →
    (s'.ledger.row transactionId).isSome

variable {s' : Store}

theorem Known.mono {φ : Phase} (h : Known φ s) (hs : Grows s s') : Known φ s' where
  edge creatorUserId referredUserId hφ := by
    obtain ⟨e, he, hcreator⟩ := h.edge creatorUserId referredUserId hφ
    obtain ⟨e', he', hsame⟩ := hs.edges referredUserId e he
    exact ⟨e', he', hsame.trans hcreator⟩
  paid transactionId hφ := by
    obtain ⟨row, hrow⟩ := Option.isSome_iff_exists.1 (h.paid transactionId hφ)
    exact hs.rows transactionId row hrow

theorem Grows.of_eq (he : s'.edges = s.edges) (hl : s'.ledger = s.ledger) :
    Grows s s' where
  edges referredUserId e h := ⟨e, (congrArg (fun es => es.find referredUserId) he).trans h, rfl⟩
  rows transactionId row h := by
    rw [hl, h]
    rfl

variable {f : CreatorReferralEdge → CreatorReferralEdge}

theorem Grows.update {k : ObjectId} (hf : ∀ e, (f e).referredUserId = e.referredUserId)
    (hcreator : ∀ e, (f e).creatorUserId = e.creatorUserId)
    (he : s'.edges = s.edges.update k f hf)
    (hl : ∀ transactionId row, s.ledger.row transactionId = some row →
      (s'.ledger.row transactionId).isSome) : Grows s s' where
  edges referredUserId e h := by
    grind [Edges.find_update]
  rows := hl

section step

variable {s s' : Store}

theorem Recorded.of_eq (h : Recorded s) (he : s'.edges = s.edges) (hl : s'.ledger = s.ledger) :
    Recorded s' where
  rewards := by
    unfold Store.stageRow
    rw [he, hl]
    exact h.rewards
  rows := by
    rw [he, hl]
    exact h.rows

theorem Recorded.update (h : Recorded s) {k : ObjectId}
    (hf : ∀ e, (f e).referredUserId = e.referredUserId)
    (hcreator : ∀ e, (f e).creatorUserId = e.creatorUserId)
    (hreward : ∀ e ∈ s.edges.docs, e.referredUserId = k → ∀ stage,
      (f e).reward stage = e.reward stage) (he : s'.edges = s.edges.update k f hf)
    (hl : s'.ledger = s.ledger) : Recorded s' where
  rewards := by
    intro e' he' stage
    rw [he] at he'
    obtain ⟨e, hmem, rfl⟩ := List.mem_map.1 he'
    unfold Store.stageRow
    rw [hl]
    split
    · rename_i hk
      rw [hreward e hmem hk, hcreator, hf]
      exact h.rewards e hmem stage
    · exact h.rewards e hmem stage
  rows := by
    intro row hrow
    rw [hl] at hrow
    obtain ⟨e, hmem, stage, hid⟩ := h.rows row hrow
    rw [he]
    refine ⟨_, List.mem_map.2 ⟨e, hmem, rfl⟩, stage, ?_⟩
    split
    · rw [hcreator, hf]
      exact hid
    · exact hid

theorem Recorded.createEdge (h : Recorded s) {edge : CreatorReferralEdge}
    (hunpaid : ∀ stage, edge.reward stage = .unpaid) :
    Recorded { s with edges := s.edges.insert edge } where
  rewards := by
    intro e he stage
    rcases Edges.mem_insert he with he | ⟨rfl, hnew⟩
    · exact h.rewards e he stage
    · rw [hunpaid]
      cases hrow : Store.stageRow { s with edges := s.edges.insert e } stage e with
      | none => rfl
      | some row =>
        obtain ⟨hmem, hid⟩ := Ledger.mem_of_row hrow
        obtain ⟨e', he', stage', hid'⟩ := h.rows row hmem
        obtain ⟨-, -, hsame⟩ := stageId_injective (hid.symm.trans hid')
        simp [hsame, Edges.find_of_mem he'] at hnew
  rows := by
    intro row hrow
    obtain ⟨e, he, hstage⟩ := h.rows row hrow
    exact ⟨e, Edges.subset_insert he edge, hstage⟩

theorem StageCredit.of_not_conflicts (h : w.conflicts s = false) :
    s.edges.find w.edge.referredUserId = some w.edge ∧ s.user w.creatorUserId = some w.user ∧
      s.ledger.row w.row.transactionId = none := by
  simp_all [StageCredit.conflicts]

theorem Recorded.credit (h : Recorded s) (hc : w.conflicts s = false)
    (hcreator : w.creatorUserId = w.edge.creatorUserId) : Recorded (s.credit w) := by
  obtain ⟨hedge, -, hnone⟩ := StageCredit.of_not_conflicts hc
  have hid : w.row.transactionId = creatorReferralStageTransactionId w.stage
      w.edge.creatorUserId w.edge.referredUserId := by
    rw [← hcreator]
    rfl
  have hrow : ∀ id, (s.credit w).ledger.row id =
      if w.row.transactionId = id then some w.row else s.ledger.row id :=
    Ledger.row_insert hnone
  constructor
  · intro e' he' stage
    obtain ⟨e, hmem, rfl⟩ := List.mem_map.1 he'
    unfold Store.stageRow
    rw [hrow]
    by_cases hk : e.referredUserId = w.edge.referredUserId
    · have hsame : e = w.edge := by
        have hfind := Edges.find_of_mem hmem
        rw [hk, hedge] at hfind
        exact (Option.some.inj hfind).symm
      subst hsame
      rw [if_pos rfl, CreatorReferralEdge.setReward_creatorUserId,
        CreatorReferralEdge.setReward_referredUserId, CreatorReferralEdge.reward_setReward]
      by_cases hstage : stage = w.stage
      · subst hstage
        rw [if_pos rfl, if_pos hid]
        rfl
      · rw [if_neg hstage, if_neg]
        · exact h.rewards w.edge hmem stage
        · intro hsame
          exact hstage (stageId_injective (hid.symm.trans hsame)).1.symm
    · rw [if_neg hk, if_neg]
      · exact h.rewards e hmem stage
      · intro hsame
        exact hk (stageId_injective (hid.symm.trans hsame)).2.2.symm
  · intro row hmem
    have hmem : row ∈ s.ledger.rows ++ [w.row] := Ledger.insert_rows hnone ▸ hmem
    obtain ⟨e, he, stage, hstage⟩ : ∃ e ∈ s.edges.docs, ∃ stage, row.transactionId =
        creatorReferralStageTransactionId stage e.creatorUserId e.referredUserId := by
      rcases List.mem_append.1 hmem with hmem | hmem
      · exact h.rows row hmem
      · rw [List.mem_singleton.1 hmem]
        exact ⟨w.edge, (Edges.mem_of_find hedge).1, w.stage, hid⟩
    have hdoc : (if e.referredUserId = w.edge.referredUserId then
        e.setReward w.stage ⟨true, some w.coins⟩ else e) ∈ (s.credit w).edges.docs :=
      List.mem_map.2 ⟨e, he, rfl⟩
    refine ⟨_, hdoc, stage, ?_⟩
    split
    · rw [CreatorReferralEdge.setReward_creatorUserId,
        CreatorReferralEdge.setReward_referredUserId]
      exact hstage
    · exact hstage

theorem Recorded.adopt (h : Recorded s) {stage : CreatorReferralStage}
    {creatorUserId referredUserId : ObjectId} (he : s.edges.find referredUserId = some e)
    (hcreator : e.creatorUserId = creatorUserId)
    (hpaid : (s.ledger.row
      (creatorReferralStageTransactionId stage creatorUserId referredUserId)).isSome) (coins : ℤ) :
    Recorded (s.adopt stage referredUserId coins) := by
  obtain ⟨row, hrow⟩ := Option.isSome_iff_exists.1 hpaid
  obtain ⟨hmem, hk⟩ := Edges.mem_of_find he
  have hreward : ∀ d ∈ s.edges.docs, d.referredUserId = referredUserId → ∀ stage',
      (adoptEdge stage coins d).reward stage' = d.reward stage' := by
    intro d hd hdk stage'
    have hsame : d = e := by
      have hfind := Edges.find_of_mem hd
      rw [hdk, he] at hfind
      exact (Option.some.inj hfind).symm
    subst hsame
    have hmarked := h.rewards d hmem stage
    rw [Store.stageRow, hcreator, hk, hrow] at hmarked
    rw [adoptEdge, if_pos]
    rw [hmarked]
    rfl
  exact h.update (adoptEdge_referredUserId stage coins) (adoptEdge_creatorUserId stage coins) hreward rfl rfl

end step

/-! ### What a command does -/

section exec

variable {φ : Phase} {c : Cmd} {r : Reply} {s : Store}

def credited (e : Event Cmd Reply Store) : Option StageCredit :=
  match e.cmd with
  | .commit (some w) => if transactions.applied (some w) e.ans e.before = true then some w else none
  | _ => none

theorem credited_some (h : credited ⟨s, c, r, s'⟩ = some w) :
    c = .commit (some w) ∧ w.conflicts s = false ∧ c.exec r s = s.credit w := by
  unfold credited at h
  dsimp only at h
  split at h
  · rename_i w'
    split at h
    · rename_i happlied
      obtain rfl := Option.some.inj h
      have happlied : (r.delivered && !w'.conflicts s) = true := happlied
      rw [Bool.and_eq_true, Bool.not_eq_true'] at happlied
      refine ⟨rfl, happlied.2, ?_⟩
      show (if r.delivered = false then s else if w'.conflicts s = true then s
        else s.credit w') = _
      rw [happlied.1, happlied.2]
      rfl
    · cases h
  · cases h

theorem exec_uncredited {w : Option StageCredit} (h : credited ⟨s, .commit w, r, s'⟩ = none) :
    Cmd.exec (.commit w) r s = s := by
  cases w with
  | none =>
    show (if r.delivered = false then s else s) = s
    exact ite_self s
  | some w =>
    show (if r.delivered = false then s else if w.conflicts s = true then s
      else s.credit w) = s
    have happlied : ¬ (r.delivered && !w.conflicts s) = true := by
      intro happlied
      have hsome : credited ⟨s, .commit (some w), r, s'⟩ = some w := if_pos happlied
      simp [hsome] at h
    cases hd : r.delivered <;> simp_all

theorem Edges.find_insert {es : Edges} {k : ObjectId} (h : es.find k = some e)
    (e' : CreatorReferralEdge) : (es.insert e').find k = some e := by
  obtain ⟨hmem, rfl⟩ := Edges.mem_of_find h
  exact Edges.find_of_mem (Edges.subset_insert hmem e')

theorem Recorded.step (h : Recorded s) (hφ : Known φ s) (hA : Allows φ c) :
    Grows s (c.exec r s) ∧ Recorded (c.exec r s) := by
  have hsame : ∀ {s' : Store}, s'.edges = s.edges → s'.ledger = s.ledger →
      Grows s s' ∧ Recorded s' := fun he hl => ⟨Grows.of_eq he hl, h.of_eq he hl⟩
  by_cases hr : r.delivered = false
  · rw [CreatorReferral.exec_of_not_delivered hr]
    exact hsame rfl rfl
  have hexec : c.exec r s = _ := if_neg hr
  cases c with
  | commit w =>
    cases hw : credited ⟨s, .commit w, r, s⟩ with
    | none =>
      rw [exec_uncredited hw]
      exact hsame rfl rfl
    | some w' =>
      obtain ⟨hcmd, hc, hcredit⟩ := credited_some hw
      obtain rfl : w = some w' := Cmd.commit.inj hcmd
      obtain ⟨e, he, hcreator⟩ := hφ.edge _ _ hA
      obtain ⟨hedge, -, hnone⟩ := StageCredit.of_not_conflicts hc
      obtain rfl := Option.mem_unique he hedge
      rw [hcredit]
      refine ⟨?_, h.credit hc hcreator.symm⟩
      apply Grows.update _ (fun e => e.setReward_creatorUserId _ _) rfl
      · intro id row hrow
        have hinsert : (s.credit w').ledger.row id = _ := Ledger.row_insert hnone id
        rw [hinsert]
        split
        · rfl
        · rw [hrow]
          rfl
      · intro e
        exact e.setReward_referredUserId _ _
  | adopt stage referredUserId coins =>
    obtain ⟨creatorUserId, hedge, hpaid⟩ := hA
    obtain ⟨e, he, hcreator⟩ := hφ.edge _ _ hedge
    rw [hexec]
    refine ⟨?_, h.adopt he hcreator (hφ.paid _ hpaid) coins⟩
    apply Grows.update (adoptEdge_referredUserId stage coins) (adoptEdge_creatorUserId stage coins)
    · rfl
    · intro id row hrow
      exact Option.isSome_of_eq_some hrow
  | createEdge edge =>
    rw [hexec]
    refine ⟨⟨?_, ?_⟩, h.createEdge hA⟩
    · intro k e he
      exact ⟨e, Edges.find_insert he edge, rfl⟩
    · intro id row hrow
      exact Option.isSome_of_eq_some hrow
  | joinTelegram referredUserId =>
    have hcreator : ∀ e, (joinTelegramEdge e).creatorUserId = e.creatorUserId := by
      intro e
      unfold joinTelegramEdge
      split <;> rfl
    have hreward : ∀ e stage, (joinTelegramEdge e).reward stage = e.reward stage := by
      intro e stage
      unfold joinTelegramEdge
      split <;> cases stage <;> rfl
    rw [hexec]
    constructor
    · apply Grows.update joinTelegramEdge_referredUserId hcreator
      · rfl
      · intro id row hrow
        exact Option.isSome_of_eq_some hrow
    · exact h.update joinTelegramEdge_referredUserId hcreator (fun e _ _ => hreward e) rfl rfl
  | find | snapshot | setConfig | incCoins | setCoins | claimTelegram | purchase =>
    rw [hexec]
    exact hsame rfl rfl

theorem Known.next (h : Known φ s) (hg : Grows s (c.exec r s)) :
    Known (φ.next c r s) (c.exec r s) := by
  have hfind : ∀ query, Cmd.exec (.find query) r s = s := fun query => ite_self s
  unfold Phase.next
  split
  case h_1 creatorUserId referredUserId =>
    rw [hfind]
    split
    · rename_i hsome
      refine ⟨?_, h.paid⟩
      intro creator referred hφ
      cases hφ
      obtain ⟨e, he⟩ := Option.isSome_iff_exists.1 hsome
      obtain ⟨hedge, hcreator⟩ := Option.filter_eq_some_iff.1 he
      exact ⟨e, hedge, of_decide_eq_true hcreator⟩
    · exact h
  case h_2 referredUserId =>
    rw [hfind]
    split
    · rename_i e he
      refine ⟨?_, h.paid⟩
      intro creator referred hφ
      cases hφ
      exact ⟨e, he, rfl⟩
    · exact h
  case h_3 transactionId =>
    rw [hfind]
    split
    · rename_i hsome
      refine ⟨h.edge, ?_⟩
      intro id hφ
      cases hφ
      exact hsome
    · exact h
  case h_4 => exact h.mono hg

theorem exec_rows : (c.exec r s).ledger.rows =
    s.ledger.rows ++ ((credited ⟨s, c, r, c.exec r s⟩).map StageCredit.row).toList := by
  cases hw : credited ⟨s, c, r, c.exec r s⟩ with
  | some w =>
    obtain ⟨-, hc, hcredit⟩ := credited_some hw
    rw [hcredit]
    exact Ledger.insert_rows (StageCredit.of_not_conflicts hc).2.2
  | none =>
    show _ = s.ledger.rows ++ []
    rw [List.append_nil]
    by_cases hr : r.delivered = false
    · rw [CreatorReferral.exec_of_not_delivered hr]
    have hexec : c.exec r s = _ := if_neg hr
    cases c with
    | commit w => rw [exec_uncredited hw]
    | _ => exact congrArg (fun t => t.ledger.rows) hexec

end exec

/-! ### Wallets -/

def Cmd.wallet : Cmd → Bool
  | .incCoins .. | .setCoins .. => true
  | _ => false

def paid (e : Event Cmd Reply Store) (userId : ObjectId) : ℤ :=
  match credited e with
  | some w => if w.creatorUserId = userId then w.coins else 0
  | none => 0

theorem coins_updateUser {f : ReferralUser → ReferralUser} (hf : ∀ u, (f u).id = u.id) (s : Store)
    (id userId : ObjectId) : (s.updateUser id f).coins userId =
      if id = userId then (s.user userId).map fun u => (f u).coins else s.coins userId := by
  rw [Store.coins, Store.user, Store.updateUser, Mongo.find?_update hf, Store.coins, Store.user]
  split
  · rw [Option.map_map]
    rfl
  · rfl

theorem map_add_zero (o : Option ℤ) : o = o.map fun v => v + 0 := by
  cases o with
  | none => rfl
  | some v => rw [Option.map_some, add_zero]

theorem exec_coins {c : Cmd} {r : Reply} (hc : c.wallet = false) (userId : ObjectId) :
    (c.exec r s).coins userId =
      (s.coins userId).map fun v => v + paid ⟨s, c, r, c.exec r s⟩ userId := by
  unfold paid
  cases hw : credited ⟨s, c, r, c.exec r s⟩ with
  | some w =>
    obtain ⟨-, -, hcredit⟩ := credited_some hw
    rw [hcredit]
    show (s.updateUser w.creatorUserId fun u => { u with coins := u.coins + w.coins }).coins
      userId = _
    rw [coins_updateUser (f := fun u => { u with coins := u.coins + w.coins }) fun _ => rfl]
    dsimp only
    split
    · rw [Store.coins, Option.map_map]
      rfl
    · exact map_add_zero _
  | none =>
    dsimp only
    rw [← map_add_zero]
    by_cases hr : r.delivered = false
    · rw [CreatorReferral.exec_of_not_delivered hr]
    have hexec : c.exec r s = _ := if_neg hr
    cases c with
    | commit w => rw [exec_uncredited hw]
    | claimTelegram id =>
      rw [hexec]
      rw [coins_updateUser (f := fun u => { u with telegramRewardClaimed := true }) fun _ => rfl]
      exact ite_self _
    | incCoins | setCoins => cases hc
    | _ => exact congrArg (fun t => t.coins userId) hexec

/-! ### Runs -/

def credits (log : List (Event Cmd Reply Store)) : List StageCredit := log.filterMap credited

/-- The run so far: each stage was credited at most once, with the amount of its row, and the edges
have the marks and the amounts of the rows. -/
structure PaidOnce (log : List (Event Cmd Reply Store)) (s : Store) : Prop where
  once : ∀ stage creatorUserId referredUserId, (credits log).countP (fun w =>
    w.row.transactionId ==
      creatorReferralStageTransactionId stage creatorUserId referredUserId) ≤ 1
  rows : s.ledger.rows = (credits log).map StageCredit.row
  wallets : ∀ e ∈ log, e.cmd.wallet = false → ∀ userId,
    e.after.coins userId = (e.before.coins userId).map fun v => v + paid e userId
  marked : ∀ e ∈ s.edges.docs, ∀ stage, (e.reward stage).rewarded = true ↔
    ∃ row ∈ s.ledger.rows, row.transactionId =
      creatorReferralStageTransactionId stage e.creatorUserId e.referredUserId
  amount : ∀ e ∈ s.edges.docs, ∀ stage, ∀ row ∈ s.ledger.rows,
    row.transactionId = creatorReferralStageTransactionId stage e.creatorUserId e.referredUserId →
      (e.reward stage).coins = some row.coins

theorem row_of_mem {l : Ledger} {row : CoinTransaction} (h : row ∈ l.rows) :
    l.row row.transactionId = some row := by
  have hsome : (l.row row.transactionId).isSome := by
    rw [Ledger.row, List.find?_isSome]
    exact ⟨row, h, beq_self_eq_true _⟩
  obtain ⟨row', hrow'⟩ := Option.isSome_iff_exists.1 hsome
  obtain ⟨hmem, hid⟩ := Ledger.mem_of_row hrow'
  rw [hrow', List.inj_on_of_nodup_map l.unique hmem h hid]

/-- What the requests know holds, and the ledger is what was credited. -/
structure Paying (φs : List Phase) (log : List (Event Cmd Reply Store)) (s : Store) : Prop where
  known : ∀ φ ∈ φs, Known φ s
  recorded : Recorded s
  rows : s.ledger.rows = (credits log).map StageCredit.row
  wallets : ∀ e ∈ log, e.cmd.wallet = false → ∀ userId,
    e.after.coins userId = (e.before.coins userId).map fun v => v + paid e userId

namespace Paying

variable {φs : List Phase} {log : List (Event Cmd Reply Store)} {s : Store}

theorem start (config : CreatorReferralConfig) (users : List ReferralUser)
    (purchases : List ObjectId) : Paying [] [] (.start config users purchases) where
  known _ hφ := nomatch hφ
  recorded := ⟨fun _ he => absurd he List.not_mem_nil, fun _ hrow => absurd hrow List.not_mem_nil⟩
  rows := rfl
  wallets _ he := nomatch he

theorem spawn (h : Paying φs log s) : Paying (φs ++ [.start]) log s := by
  refine { h with known := ?_ }
  apply forall_snoc h.known
  constructor
  · intro _ _ hnone
    cases hnone
  · intro _ hnone
    cases hnone

theorem step (h : Paying φs log s) {i : ℕ} {φ : Phase} {c : Cmd} (r : Reply)
    (hi : φs[i]? = some φ) (hA : Allows φ c) :
    Paying (φs.set i (φ.next c r s)) (log ++ [⟨s, c, r, c.exec r s⟩]) (c.exec r s) := by
  have hφ := h.known φ (List.mem_of_getElem? hi)
  obtain ⟨hgrows, hrecorded⟩ := h.recorded.step (r := r) hφ hA
  constructor
  case known =>
    apply forall_set
    · intro ψ hψ
      exact (h.known ψ hψ).mono hgrows
    · exact hφ.next hgrows
  case recorded => exact hrecorded
  case rows =>
    rw [exec_rows, h.rows, credits, credits, List.filterMap_append, List.map_append]
    apply congrArg
    rw [List.filterMap_cons]
    cases credited ⟨s, c, r, c.exec r s⟩ <;> rfl
  case wallets =>
    exact forall_snoc h.wallets exec_coins

theorem paidOnce (h : Paying φs log s) : PaidOnce log s where
  once stage creatorUserId referredUserId := by
    have hle := s.ledger.countP_le_one
      (creatorReferralStageTransactionId stage creatorUserId referredUserId)
    rw [h.rows, List.countP_map] at hle
    exact hle
  rows := h.rows
  wallets := h.wallets
  marked := by
    intro e he stage
    rw [h.recorded.rewards e he stage]
    constructor
    · intro hmark
      cases hrow : s.stageRow stage e with
      | none =>
        rw [hrow] at hmark
        cases hmark
      | some row => exact ⟨row, Ledger.mem_of_row hrow⟩
    · rintro ⟨row, hmem, hid⟩
      have hrow : s.stageRow stage e = some row := by
        rw [Store.stageRow, ← hid]
        exact row_of_mem hmem
      rw [hrow]
      rfl
  amount := by
    intro e he stage row hmem hid
    have hrow : s.stageRow stage e = some row := by
      rw [Store.stageRow, ← hid]
      exact row_of_mem hmem
    rw [h.recorded.rewards e he stage, hrow]
    rfl

end Paying

/-- **Every run pays each stage once and records it.** -/
theorem paidOnce_run (config : CreatorReferralConfig) (users : List ReferralUser)
    (purchases : List ObjectId) (ms : List (Move Request Reply)) :
    PaidOnce ((start (.start config users purchases)).play Cmd.exec program ms).log
      ((start (.start config users purchases)).play Cmd.exec program ms).store := by
  have hstep : ∀ φs log s i φ c r φ', Paying φs log s → φs[i]? = some φ →
      guarded Allows Phase.next φ c r s = some φ' → True →
      Paying (φs.set i φ') (log ++ [⟨s, c, r, c.exec r s⟩]) (c.exec r s) := by
    intro φs log s i φ c r φ' h hi hδ _
    obtain ⟨hA, rfl⟩ := guarded_eq_some hδ
    exact h.step r hi hA
  obtain ⟨φs, -, h⟩ := play_protocol Paying (fun _ => True) program_keeps
    (Paying.start config users purchases) (fun _ _ _ _ h => h.spawn) hstep ms fun _ _ => trivial
  exact h.paidOnce

/-- An attach pays the first stage. -/
example :
    let creator : ObjectId := ⟨"000000000000000000000001", by decide⟩
    let referred : ObjectId := ⟨"000000000000000000000002", by decide⟩
    let run := (start (.start ⟨true, 200, 100, 1000⟩ [⟨creator, 5, false⟩] [])).play Cmd.exec
      program (.spawn (.attached ⟨creator, referred, "CODE", true⟩ 1) ::
        List.replicate 7 (.step 0 ⟨true, true, false⟩))
    run.store.coins creator = some 205 ∧
      (run.store.edges.find referred).map CreatorReferralEdge.attach = some ⟨true, some 200⟩ := by
  decide +kernel

end VibemeetBackend.CreatorReferral
