import VibemeetBackend.Async.Trace
import VibemeetBackend.Staff.SettlementEvents

/-!
# The outbox and the staff ledger of a call

After the events of a call are enqueued, the outbox covers the rows that settlements of the call have
created exactly when none of these settlements pays an agency: the row of an agency has no `callId`, so
that it is not found again.
-/

namespace VibemeetBackend.Staff

open Async
open Mongo (Unique)

variable {s : EventStore} {callId : String}

/-! ### Coverage -/

/-- A `SettlementCompletedEvent` of the call. -/
def DomainEvent.completes (callId : String) (d : DomainEvent) : Bool :=
  d.eventType == "SettlementCompletedEvent" && d.aggregateId == callId

def DomainEvent.ofStaff (callId : String) (d : DomainEvent) : Bool :=
  d.eventType == "StaffLedgerCreditedEvent" && d.aggregateId == callId

def EventPayload.tells (row : CallLedgerRow) : EventPayload → Bool
  | .staffLedgerCredited _ staffUserId direction amountCoins sourceLedgerKey =>
    staffUserId == row.staffUserId && direction == row.direction &&
      amountCoins == row.amountCoins && sourceLedgerKey == row.idempotencyKey
  | _ => false

def DomainEvent.credits (callId : String) (row : CallLedgerRow) (d : DomainEvent) : Bool :=
  d.ofStaff callId && d.payload.tells row

structure Covered (callId : String) (rows : List CallLedgerRow) (s : EventStore) : Prop where
  completed : s.outbox.rows.countP (DomainEvent.completes callId) = 1
  credited : ∀ row ∈ rows, s.outbox.rows.countP (DomainEvent.credits callId row) = 1
  only : ∀ d ∈ s.outbox.rows, d.ofStaff callId = true → ∃ row ∈ rows, d.credits callId row = true

def createdBy (q : RatedSettlement) (s : EventStore) : List CallLedgerRow :=
  (s.settle q).ledger.rows.filter fun row => row ∉ s.ledger.rows

def createdIn (callId : String) (e : EventStore × EventMove) : List CallLedgerRow :=
  match e.2.settlement with
  | some q => if q.callId = callId then createdBy q e.1 else []
  | none => []

def createdRows (callId : String) (log : List (EventStore × EventMove)) : List CallLedgerRow :=
  log.flatMap (createdIn callId)

def PaysAgency (q : RatedSettlement) (s : EventStore) : Prop :=
  (s.agencyOf q.creatorMongoId).isSome = true ∧ 10000 ≤ q.totalEarnedCreator * q.agencyBps

/-! ### Keys -/

variable {p : Share}

theorem Share.key_injective {p' : Share} (h : p.key = p'.key) :
    p.role = p'.role ∧ p.callId = p'.callId := by
  obtain ⟨c, role, u, n⟩ := p
  obtain ⟨c', role', u', n'⟩ := p'
  -- the eighth letter from the end tells the two roles apart
  have hlast := congrArg (fun k => (k.toList.reverse)[7]?) h
  cases role <;> cases role' <;>
    simp only [Share.key, String.toList_append, List.reverse_append] at h hlast ⊢
  · rw [String.append_left_inj, String.append_right_inj] at h
    exact ⟨trivial, h⟩
  · simp at hlast
  · simp at hlast
  · rw [String.append_left_inj, String.append_right_inj] at h
    exact ⟨trivial, h⟩

theorem key_ne_withdrawal (p : Share) (withdrawalId staffUserId : String) (n : ℕ) :
    (withdrawalRow withdrawalId staffUserId n).key ≠ p.key := by
  intro h
  have hletter := congrArg (fun k => k.toList[13]?) h
  obtain ⟨c, role, u, m⟩ := p
  cases role <;> simp [Share.key, withdrawalRow, CallLedgerRow.key] at hletter

theorem callRow_injective {p' : Share} (h : p.callRow = p'.callRow) :
    p.role = p'.role ∧ p.callId = p'.callId :=
  Share.key_injective (congrArg (fun row => row.idempotencyKey) h)

theorem callRow_callId (p : Share) :
    p.callRow.callId = match p.role with
      | .bd => some p.callId
      | .agency => none := rfl

theorem sourceLedgerKey_callRow (c : String) (p : Share) :
    sourceLedgerKey c p.callRow = p.key := by
  have hne : p.key ≠ "" := by
    intro h
    have hletter := congrArg (fun k => k.toList[0]?) h
    obtain ⟨c, role, u, m⟩ := p
    cases role <;> simp [Share.key] at hletter
  exact if_neg hne

/-! ### Operations -/

theorem creditStaff_spec (s : EventStore) (p : Share) :
    (s.creditStaff p).outbox = s.outbox ∧ (s.creditStaff p).ledger =
      if p.coins = 0 then s.ledger else s.ledger.insert p.callRow := by
  unfold EventStore.creditStaff
  by_cases hcoins : p.coins = 0
  · simp [hcoins]
  · rw [if_neg hcoins, if_neg hcoins]
    cases hget : s.ledger.get p.key with
    | none => exact ⟨rfl, rfl⟩
    | some row => exact ⟨rfl, (Unique.insert_of_get (d := p.callRow) hget).symm⟩

structure CreditedShare (p : Share) (s s' : EventStore) : Prop where
  outbox : s'.outbox = s.outbox
  kept : ∀ row ∈ s.ledger.rows, row ∈ s'.ledger.rows
  new : ∀ row ∈ s'.ledger.rows, row ∈ s.ledger.rows ∨ row = p.callRow ∧ 0 < p.coins
  taken : 0 < p.coins → ∃ row ∈ s'.ledger.rows, row.key = p.key

theorem creditStaff_credited (s : EventStore) (p : Share) : CreditedShare p s (s.creditStaff p) := by
  obtain ⟨houtbox, hledger⟩ := creditStaff_spec s p
  by_cases hcoins : p.coins = 0
  · rw [if_pos hcoins] at hledger
    refine ⟨houtbox, ?_, ?_, fun hpos => absurd hcoins hpos.ne'⟩
    · intro row hrow
      rw [hledger]
      exact hrow
    · intro row hrow
      rw [hledger] at hrow
      exact .inl hrow
  · rw [if_neg hcoins] at hledger
    refine ⟨houtbox, ?_, ?_, ?_⟩
    · intro row hrow
      rw [hledger]
      exact Unique.mem_insert_of_mem _ hrow
    · intro row hrow
      rw [hledger] at hrow
      exact (Unique.mem_insert hrow).imp_right fun h => ⟨h, Nat.pos_of_ne_zero hcoins⟩
    · intro _
      rw [hledger]
      exact Unique.exists_mem_insert s.ledger p.callRow

theorem creditBd_spec (s : EventStore) (callId : String) (bdId : Option String) (bdCut : ℕ) :
    (s.creditBd callId bdId bdCut).outbox = s.outbox ∧
      (∀ row ∈ s.ledger.rows, row ∈ (s.creditBd callId bdId bdCut).ledger.rows) ∧
      ∀ row ∈ (s.creditBd callId bdId bdCut).ledger.rows, row ∈ s.ledger.rows ∨
        ∃ p : Share, p.callId = callId ∧ row = p.callRow ∧ p.role = .bd := by
  cases bdId with
  | none => exact ⟨rfl, fun _ hrow => hrow, fun _ hrow => .inl hrow⟩
  | some bdId =>
    have hline := creditStaff_credited s ⟨callId, .bd, bdId, bdCut⟩
    refine ⟨hline.outbox, hline.kept, ?_⟩
    intro row hrow
    exact (hline.new row hrow).imp_right fun h => ⟨_, rfl, h.1, rfl⟩

structure Settled (q : RatedSettlement) (s s' : EventStore) : Prop where
  outbox : s'.outbox = s.outbox
  kept : ∀ row ∈ s.ledger.rows, row ∈ s'.ledger.rows
  new : ∀ row ∈ s'.ledger.rows, row ∈ s.ledger.rows ∨
    ∃ p : Share, p.callId = q.callId ∧ row = p.callRow ∧ (p.role = .agency → PaysAgency q s)
  paid : PaysAgency q s → ∃ row ∈ s'.ledger.rows, ∃ p : Share, p.callId = q.callId ∧
    p.role = .agency ∧ row.key = p.key

theorem settle_settled (q : RatedSettlement) (s : EventStore) : Settled q s (s.settle q) := by
  have hsame : ¬PaysAgency q s → Settled q s s :=
    fun h => ⟨rfl, fun _ hrow => hrow, fun _ hrow => .inl hrow, fun hpays => absurd hpays h⟩
  unfold EventStore.settle
  split
  · rename_i hzero
    apply hsame
    rintro ⟨-, hcut⟩
    rw [hzero, Nat.zero_mul] at hcut
    omega
  · cases hagency : s.agencyOf q.creatorMongoId with
    | none =>
      apply hsame
      rintro ⟨hsome, -⟩
      simp [hagency] at hsome
    | some agency =>
      have hpays : PaysAgency q s ↔ 0 < q.totalEarnedCreator * q.agencyBps / 10000 := by
        simp [PaysAgency, hagency]
      obtain ⟨houtbox, hkept, hnew⟩ := creditBd_spec s q.callId agency.bdId
        (computeStaffCutsFromHostEarnings q.totalEarnedCreator q.bdBps q.agencyBps
          agency.bdId.isSome).bdCut
      have hline := creditStaff_credited
        (s.creditBd q.callId agency.bdId
          (computeStaffCutsFromHostEarnings q.totalEarnedCreator q.bdBps q.agencyBps
            agency.bdId.isSome).bdCut)
        ⟨q.callId, .agency, agency.id, q.totalEarnedCreator * q.agencyBps / 10000⟩
      constructor
      · exact hline.outbox.trans houtbox
      · intro row hrow
        exact hline.kept row (hkept row hrow)
      · intro row hrow
        rcases hline.new row hrow with hold | ⟨rfl, hpos⟩
        · rcases hnew row hold with h | ⟨p, hp, hrow', hbd⟩
          · exact .inl h
          · exact .inr ⟨p, hp, hrow', fun hagency' => by rw [hbd] at hagency'; cases hagency'⟩
        · exact .inr ⟨_, rfl, rfl, fun _ => hpays.2 hpos⟩
      · intro h
        obtain ⟨row, hrow, hkey⟩ := hline.taken (hpays.1 h)
        exact ⟨row, hrow, _, rfl, rfl, hkey⟩

theorem enqueue_eq (s : EventStore) (p : EnqueueParams) (now : ℤ) :
    s.enqueueSettlementDomainEvents true p now =
      { s with
        outbox := s.outbox.insertAll
          (completedEvent p now :: (s.rowsOf p.callId).map (creditedEvent p.callId now)) } := by
  have hfold : ∀ (rows : List CallLedgerRow) (t : EventStore),
      rows.foldl (fun t row => t.persistDomainEvent true (creditedEvent p.callId now row)) t =
        { t with outbox := t.outbox.insertAll (rows.map (creditedEvent p.callId now)) } := by
    intro rows
    induction rows with
    | nil => exact fun t => rfl
    | cons row rows ih => exact fun t => ih _
  exact hfold _ _

/-! ### What is written -/

inductive WrittenFrom (rows : List CallLedgerRow) : DomainEvent → Prop where
  | completed (p : EnqueueParams) (now : ℤ) : WrittenFrom rows (completedEvent p now)
  | credited (p : Share) (now : ℤ) (hmem : p.callRow ∈ rows) (hrole : p.role = .bd) :
      WrittenFrom rows (creditedEvent p.callId now p.callRow)
  | withdrawal (withdrawalId : String) : WrittenFrom rows (withdrawalEvent withdrawalId)
  | projection (type : Outbox.BillingEventType) (callId : String) :
      WrittenFrom rows (projectionEvent type callId)

structure Written (s : EventStore) : Prop where
  rows : ∀ row ∈ s.ledger.rows, (∃ p : Share, row = p.callRow) ∨
    ∃ withdrawalId staffUserId n, row = withdrawalRow withdrawalId staffUserId n
  events : ∀ d ∈ s.outbox.rows, WrittenFrom s.ledger.rows d

variable {rows : List CallLedgerRow} {d : DomainEvent}

theorem WrittenFrom.mono {rows' : List CallLedgerRow} (h : WrittenFrom rows d)
    (hsub : ∀ row ∈ rows, row ∈ rows') : WrittenFrom rows' d := by
  cases h with
  | completed p now => exact .completed p now
  | credited p now hmem hrole => exact .credited p now (hsub _ hmem) hrole
  | withdrawal withdrawalId => exact .withdrawal withdrawalId
  | projection type callId => exact .projection type callId

variable {row : CallLedgerRow}

theorem Written.of_rowsOf (h : Written s) (hrow : row ∈ s.rowsOf callId) :
    ∃ p : Share, row = p.callRow ∧ p.callId = callId ∧ p.role = .bd ∧ row ∈ s.ledger.rows := by
  obtain ⟨hmem, hcall⟩ := List.mem_filter.1 hrow
  have hcall := beq_iff_eq.1 hcall
  rcases h.rows row hmem with ⟨p, rfl⟩ | ⟨w, u, n, rfl⟩
  · refine ⟨p, rfl, ?_⟩
    grind [callRow_callId]
  · cases hcall

theorem exec_kept (s : EventStore) (m : EventMove) :
    (∀ row ∈ s.ledger.rows, row ∈ (m.exec s).ledger.rows) ∧
      ∀ d ∈ s.outbox.rows, d ∈ (m.exec s).outbox.rows := by
  cases m with
  | settle q =>
    have h := settle_settled q s
    refine ⟨h.kept, ?_⟩
    intro d hd
    show d ∈ (s.settle q).outbox.rows
    rw [h.outbox]
    exact hd
  | enqueue p now =>
    show (∀ row ∈ _, row ∈ (s.enqueueSettlementDomainEvents true p now).ledger.rows) ∧ _
    rw [EventMove.exec, enqueue_eq]
    exact ⟨fun _ h => h, fun _ h => Unique.mem_insertAll_of_mem _ h⟩
  | createWithdrawalRow withdrawalId staffUserId n =>
    exact ⟨fun _ h => Unique.mem_insert_of_mem _ h, fun _ h => h⟩
  | persistWithdrawalEvent withdrawalId =>
    exact ⟨fun _ h => h, fun _ h => Unique.mem_insert_of_mem _ h⟩
  | persistProjectionEvent type c => exact ⟨fun _ h => h, fun _ h => Unique.mem_insert_of_mem _ h⟩
  | edit users creators => exact ⟨fun _ h => h, fun _ h => h⟩

theorem exec_new (s : EventStore) (m : EventMove) (hrow : row ∈ (m.exec s).ledger.rows) :
    row ∈ s.ledger.rows ∨
      (∃ q, m = .settle q ∧ ∃ p : Share, p.callId = q.callId ∧ row = p.callRow ∧
        (p.role = .agency → PaysAgency q s)) ∨
      ∃ withdrawalId staffUserId n, row = withdrawalRow withdrawalId staffUserId n := by
  cases m with
  | settle q => exact ((settle_settled q s).new row hrow).imp_right fun h => .inl ⟨q, rfl, h⟩
  | enqueue p now =>
    rw [EventMove.exec, enqueue_eq] at hrow
    exact .inl hrow
  | createWithdrawalRow withdrawalId staffUserId n =>
    exact (Unique.mem_insert hrow).imp_right fun h => .inr ⟨withdrawalId, staffUserId, n, h⟩
  | _ => exact .inl hrow

theorem exec_events (h : Written s) (m : EventMove) (hd : d ∈ (m.exec s).outbox.rows) :
    d ∈ s.outbox.rows ∨ WrittenFrom s.ledger.rows d := by
  cases m with
  | settle q =>
    have hd : d ∈ (s.settle q).outbox.rows := hd
    rw [(settle_settled q s).outbox] at hd
    exact .inl hd
  | enqueue p now =>
    rw [EventMove.exec, enqueue_eq] at hd
    rcases Unique.mem_insertAll hd with hd | hd
    · exact .inl hd
    · rcases List.mem_cons.1 hd with rfl | hd
      · exact .inr (.completed p now)
      · obtain ⟨row, hrow, rfl⟩ := List.mem_map.1 hd
        obtain ⟨share, rfl, hcall, hrole, hmem⟩ := h.of_rowsOf hrow
        rw [← hcall]
        exact .inr (.credited share now hmem hrole)
  | createWithdrawalRow withdrawalId staffUserId n => exact .inl hd
  | persistWithdrawalEvent withdrawalId =>
    apply (Unique.mem_insert hd).imp_right
    rintro rfl
    exact .withdrawal withdrawalId
  | persistProjectionEvent type c =>
    apply (Unique.mem_insert hd).imp_right
    rintro rfl
    exact .projection type c
  | edit users creators => exact .inl hd

theorem written_exec (h : Written s) (m : EventMove) : Written (m.exec s) := by
  have hkept := (exec_kept s m).1
  constructor
  · intro row hrow
    rcases exec_new s m hrow with hold | ⟨q, -, p, -, hp, -⟩ | hwithdrawal
    · exact h.rows row hold
    · exact .inl ⟨p, hp⟩
    · exact .inr hwithdrawal
  · intro d hd
    rcases exec_events h m hd with hold | hnew
    · exact (h.events d hold).mono hkept
    · exact hnew.mono hkept

theorem completes_of_key (h : WrittenFrom rows d)
    (hkey : d.idempotencyKey = "domain_evt_settlement_completed_" ++ callId) :
    d.completes callId = true := by
  have hletter := congrArg (fun k => (k.toList[0]?, k.toList[11]?, k.toList[12]?)) hkey
  cases h with
  | completed p now =>
    have hcall : p.callId = callId := (String.append_right_inj _).1 hkey
    simp [DomainEvent.completes, completedEvent, hcall]
  | credited p now hmem hrole =>
    obtain ⟨c, role, u, n⟩ := p
    rw [creditedEvent, sourceLedgerKey_callRow] at hletter
    cases role <;> simp [Share.key] at hletter
  | withdrawal withdrawalId => simp [withdrawalEvent] at hletter
  | projection type c =>
    cases type <;> simp [projectionEvent, Outbox.BillingEventType.text] at hletter

theorem key_of_completes (h : WrittenFrom rows d) (hd : d.completes callId = true) :
    d.idempotencyKey = "domain_evt_settlement_completed_" ++ callId := by
  obtain ⟨htype, hcall⟩ := Bool.and_eq_true_iff.1 hd
  cases h with
  | completed p now =>
    have hcall : p.callId = callId := beq_iff_eq.1 hcall
    rw [completedEvent, hcall]
  | credited p now hmem hrole => simp [creditedEvent] at htype
  | withdrawal withdrawalId => simp [withdrawalEvent] at htype
  | projection type c =>
    cases type <;> simp [projectionEvent, Outbox.BillingEventType.text] at htype

theorem of_ofStaff (h : WrittenFrom rows d) (hd : d.ofStaff callId = true) :
    ∃ (p : Share) (now : ℤ), p.callRow ∈ rows ∧ p.role = .bd ∧
      p.callId = callId ∧ d = creditedEvent callId now p.callRow := by
  obtain ⟨htype, hcall⟩ := Bool.and_eq_true_iff.1 hd
  cases h with
  | completed p now => simp [completedEvent] at htype
  | credited p now hmem hrole =>
    have hcall : p.callId = callId := beq_iff_eq.1 hcall
    rw [← hcall]
    exact ⟨p, now, hmem, hrole, rfl, rfl⟩
  | withdrawal withdrawalId => simp [withdrawalEvent] at htype
  | projection type c =>
    cases type <;> simp [projectionEvent, Outbox.BillingEventType.text] at htype

theorem of_creditedKey {c : Unique CallLedgerRow.key} (h : WrittenFrom c.rows d)
    (hp : p.callRow ∈ c.rows) (hkey : d.idempotencyKey = "domain_evt_" ++ p.key) :
    ∃ now, d = creditedEvent p.callId now p.callRow := by
  have hletter := congrArg (fun k => (k.toList[0]?, k.toList[11]?, k.toList[12]?)) hkey
  cases h with
  | completed q now =>
    obtain ⟨c, role, u, n⟩ := p
    cases role <;> simp [Share.key, completedEvent] at hletter
  | credited p' now hmem hrole =>
    have hsame : p'.key = p.key := by
      rw [creditedEvent, sourceLedgerKey_callRow] at hkey
      exact (String.append_right_inj _).1 hkey
    have hrow : p'.callRow = p.callRow := List.inj_on_of_nodup_map c.nodup hmem hp hsame
    refine ⟨now, ?_⟩
    rw [hrow, (callRow_injective hrow).2]
  | withdrawal withdrawalId =>
    obtain ⟨c, role, u, n⟩ := p
    cases role <;> simp [Share.key, withdrawalEvent] at hletter
  | projection type c =>
    cases type <;> simp [projectionEvent, Outbox.BillingEventType.text] at hletter

theorem credits_credited (c : String) (now : ℤ) (p : Share) :
    (creditedEvent c now p.callRow).credits c p.callRow = true := by
  unfold DomainEvent.credits DomainEvent.ofStaff EventPayload.tells creditedEvent
  rw [sourceLedgerKey_callRow]
  simp [Share.callRow, Share.row]

theorem key_of_tells {c : String} {now : ℤ} {p' : Share}
    (h : (creditedEvent c now p.callRow).payload.tells p'.callRow = true) : p.key = p'.key := by
  unfold EventPayload.tells creditedEvent at h
  rw [sourceLedgerKey_callRow] at h
  exact beq_iff_eq.1 (Bool.and_eq_true_iff.1 h).2

/-! ### Enqueued calls -/

structure Enqueued (callId : String) (s : EventStore) : Prop where
  completed : ∃ d ∈ s.outbox.rows,
    d.idempotencyKey = "domain_evt_settlement_completed_" ++ callId
  credited : ∀ row ∈ s.rowsOf callId, ∃ d ∈ s.outbox.rows,
    d.idempotencyKey = "domain_evt_" ++ row.idempotencyKey

theorem enqueued_enqueue (h : Written s) (p : EnqueueParams) (now : ℤ) :
    Enqueued p.callId (EventMove.exec s (.enqueue p now)) := by
  rw [EventMove.exec, enqueue_eq]
  constructor
  · exact Unique.exists_mem_insertAll s.outbox List.mem_cons_self
  · intro row hrow
    have hrow : row ∈ s.rowsOf p.callId := hrow
    obtain ⟨share, hshare, -, -, -⟩ := h.of_rowsOf hrow
    obtain ⟨d, hd, hkey⟩ := Unique.exists_mem_insertAll s.outbox
      (List.mem_cons_of_mem (completedEvent p now)
        (List.mem_map_of_mem (f := creditedEvent p.callId now) hrow))
    refine ⟨d, hd, hkey.trans ?_⟩
    rw [hshare, creditedEvent, sourceLedgerKey_callRow]
    rfl

theorem enqueued_exec (h : Enqueued callId s) {m : EventMove} (hm : m.settles callId = false) :
    Enqueued callId (m.exec s) := by
  obtain ⟨hrows, hevents⟩ := exec_kept s m
  constructor
  · obtain ⟨d, hd, hkey⟩ := h.completed
    exact ⟨d, hevents d hd, hkey⟩
  · intro row hrow
    obtain ⟨hmem, hcall⟩ := List.mem_filter.1 hrow
    rcases exec_new s m hmem with hold | ⟨q, rfl, p, hp, rfl, -⟩ | ⟨w, u, n, rfl⟩
    · obtain ⟨d, hd, hkey⟩ := h.credited row (List.mem_filter.2 ⟨hold, hcall⟩)
      exact ⟨d, hevents d hd, hkey⟩
    · have hcall := beq_iff_eq.1 hcall
      rw [callRow_callId] at hcall
      cases hrole : p.role with
      | bd =>
        rw [hrole] at hcall
        have hsame : q.callId = callId := hp.symm.trans (Option.some.inj hcall)
        have hsettles : (EventMove.settle q).settles callId = true := beq_iff_eq.2 hsame
        simp [hsettles] at hm
      | agency =>
        simp [hrole] at hcall
    · cases hcall

theorem covered_iff (hwritten : Written s) (h : Enqueued callId s)
    (hrows : ∀ row, row ∈ rows ↔
      row ∈ s.ledger.rows ∧ ∃ p : Share, p.callId = callId ∧ row = p.callRow) :
    Covered callId rows s ↔ ∀ row ∈ rows, row.callId = some callId := by
  constructor
  · intro hcovered row hrow
    obtain ⟨hmem, p, hp, rfl⟩ := (hrows row).1 hrow
    have hone := hcovered.credited _ hrow
    have hpos : 0 < s.outbox.rows.countP (DomainEvent.credits callId p.callRow) := by omega
    obtain ⟨d, hd, hcredits⟩ := List.countP_pos_iff.1 hpos
    obtain ⟨hstaff, htells⟩ := Bool.and_eq_true_iff.1 hcredits
    obtain ⟨p', now, -, hrole, -, rfl⟩ := of_ofStaff (hwritten.events d hd) hstaff
    have hsame := Share.key_injective (key_of_tells htells)
    rw [callRow_callId, ← hsame.1, hrole, hp]
  · intro hnamed
    constructor
    · obtain ⟨d, hd, hkey⟩ := h.completed
      apply Unique.countP_eq_one hd (completes_of_key (hwritten.events d hd) hkey)
      intro d' hd' hcompletes
      exact (key_of_completes (hwritten.events d' hd') hcompletes).trans hkey.symm
    · intro row hrow
      obtain ⟨hmem, p, hp, rfl⟩ := (hrows row).1 hrow
      have hcall := hnamed _ hrow
      obtain ⟨d, hd, hkey⟩ := h.credited p.callRow
        (List.mem_filter.2 ⟨hmem, beq_iff_eq.2 hcall⟩)
      obtain ⟨now, rfl⟩ := of_creditedKey (hwritten.events d hd) hmem hkey
      rw [hp] at hd hkey
      apply Unique.countP_eq_one hd (credits_credited callId now p)
      intro d' hd' hcredits
      obtain ⟨hstaff, htells⟩ := Bool.and_eq_true_iff.1 hcredits
      obtain ⟨p', now', -, -, -, rfl⟩ := of_ofStaff (hwritten.events d' hd') hstaff
      have hsame := key_of_tells htells
      rw [hkey, creditedEvent, sourceLedgerKey_callRow, hsame]
      rfl
    · intro d hd hstaff
      obtain ⟨p, now, hmem, -, hp, rfl⟩ := of_ofStaff (hwritten.events d hd) hstaff
      exact ⟨p.callRow, (hrows _).2 ⟨hmem, p, hp, rfl⟩, credits_credited callId now p⟩

/-! ### Runs -/

theorem mem_createdIn {m : EventMove} :
    row ∈ createdIn callId (s, m) ↔ row ∈ (m.exec s).ledger.rows ∧ row ∉ s.ledger.rows ∧
      ∃ p : Share, p.callId = callId ∧ row = p.callRow := by
  constructor
  · intro h
    unfold createdIn at h
    cases m with
    | settle q =>
      dsimp only [EventMove.settlement] at h
      split at h
      · rename_i hcall
        obtain ⟨hmem, hnew⟩ := List.mem_filter.1 h
        have hnew := of_decide_eq_true hnew
        rcases (settle_settled q s).new row hmem with hold | ⟨p, hp, hrow, -⟩
        · exact absurd hold hnew
        · exact ⟨hmem, hnew, p, hp.trans hcall, hrow⟩
      · cases h
    | _ => cases h
  · rintro ⟨hmem, hnew, p, hp, rfl⟩
    rcases exec_new s m hmem with hold | ⟨q, rfl, p', hp', hrow, -⟩ | ⟨w, u, n, hrow⟩
    · exact absurd hold hnew
    · have hcall : q.callId = callId := hp'.symm.trans ((callRow_injective hrow).2.symm.trans hp)
      unfold createdIn
      dsimp only [EventMove.settlement]
      rw [if_pos hcall]
      exact List.mem_filter.2 ⟨hmem, decide_eq_true hnew⟩
    · exact absurd (congrArg CallLedgerRow.key hrow).symm (key_ne_withdrawal p w u n)

theorem kept_run (h : row ∈ s.ledger.rows) (ms : List EventMove) :
    row ∈ (runFrom EventMove.exec s ms).ledger.rows :=
  runFrom_invariant (G := fun _ => True) (I := fun t => row ∈ t.ledger.rows) h
    (fun t m ht _ => (exec_kept t m).1 row ht) fun _ _ => trivial

theorem mem_createdRows {ms : List EventMove} :
    row ∈ createdRows callId (stepLog EventMove.exec s ms) ↔
      row ∈ (runFrom EventMove.exec s ms).ledger.rows ∧ row ∉ s.ledger.rows ∧
        ∃ p : Share, p.callId = callId ∧ row = p.callRow := by
  induction ms generalizing s with
  | nil => exact iff_of_false (fun h => nomatch h) fun h => h.2.1 h.1
  | cons m ms ih =>
    have hcons : row ∈ createdRows callId (stepLog EventMove.exec s (m :: ms)) ↔
        row ∈ createdIn callId (s, m) ∨
          row ∈ createdRows callId (stepLog EventMove.exec (m.exec s) ms) := by
      unfold createdRows
      rw [stepLog, List.flatMap_cons, List.mem_append]
    rw [hcons, mem_createdIn, ih, runFrom_cons]
    constructor
    · rintro (⟨hmem, hnew, hshare⟩ | ⟨hmem, hnew, hshare⟩)
      · exact ⟨kept_run hmem ms, hnew, hshare⟩
      · exact ⟨hmem, fun hold => hnew ((exec_kept s m).1 row hold), hshare⟩
    · rintro ⟨hmem, hnew, hshare⟩
      by_cases hfirst : row ∈ (m.exec s).ledger.rows
      · exact .inl ⟨hfirst, hnew, hshare⟩
      · exact .inr ⟨hmem, hfirst, hshare⟩

theorem createdRows_named_iff {ms : List EventMove}
    (hwritten : Written (runFrom EventMove.exec s ms)) (hempty : s.ledger.rows = []) :
    (∀ row ∈ createdRows callId (stepLog EventMove.exec s ms), row.callId = some callId) ↔
      ∀ e ∈ stepLog EventMove.exec s ms, ∀ q ∈ e.2.settlement, q.callId = callId →
        ¬PaysAgency q e.1 := by
  constructor
  · rintro hnamed ⟨t, m⟩ he q hq hcall hpays
    cases m with
    | settle q' =>
      obtain rfl := Option.some.inj hq
      obtain ⟨row, hrow, p, hp, hrole, hkey⟩ := (settle_settled q' t).paid hpays
      have hmem : row ∈ (runFrom EventMove.exec s ms).ledger.rows :=
        runFrom_of_mem_stepLog (I := fun t => row ∈ t.ledger.rows) he hrow
          fun t m ht => (exec_kept t m).1 row ht
      rcases hwritten.rows row hmem with ⟨p', rfl⟩ | ⟨w, u, n, rfl⟩
      · obtain ⟨hrole', hcall'⟩ := Share.key_injective hkey
        have hcreated : p'.callRow ∈ createdRows callId (stepLog EventMove.exec s ms) := by
          apply mem_createdRows.2
          refine ⟨hmem, ?_, p', hcall'.trans (hp.trans hcall), rfl⟩
          rw [hempty]
          exact List.not_mem_nil
        have hname := hnamed _ hcreated
        simp [callRow_callId, hrole'.trans hrole] at hname
      · exact absurd hkey (key_ne_withdrawal p w u n)
    | _ => cases hq
  · intro hnone row hrow
    obtain ⟨e, he, hcreated⟩ := List.mem_flatMap.1 hrow
    obtain ⟨t, m⟩ := e
    unfold createdIn at hcreated
    cases m with
    | settle q =>
      dsimp only [EventMove.settlement] at hcreated
      split at hcreated
      · rename_i hcall
        obtain ⟨hmem, hnew⟩ := List.mem_filter.1 hcreated
        rcases (settle_settled q t).new row hmem with hold | ⟨p, hp, rfl, hagency⟩
        · exact absurd hold (of_decide_eq_true hnew)
        · rw [callRow_callId]
          cases hrole : p.role with
          | bd => exact congrArg some (hp.trans hcall)
          | agency => exact absurd (hagency hrole) (hnone _ he q rfl hcall)
      · cases hcreated
    | _ => cases hcreated

def EventStore.start (users : List User) (creators : List Creator) : EventStore :=
  ⟨users, creators, .empty, .empty⟩

theorem written_start (users : List User) (creators : List Creator) :
    Written (.start users creators) :=
  ⟨fun _ h => (nomatch h), fun _ h => (nomatch h)⟩

/-- **The outbox covers the staff ledger** of a call, whenever its events have been enqueued after its
last settlement, exactly when no settlement of the call pays an agency. -/
theorem staff_events_cover_iff (users : List User) (creators : List Creator)
    (before after : List EventMove) (p : EnqueueParams) (now : ℤ)
    (hafter : ∀ m ∈ after, m.settles p.callId = false) :
    Covered p.callId
        (createdRows p.callId
          (stepLog EventMove.exec (.start users creators) (before ++ .enqueue p now :: after)))
        (runFrom EventMove.exec (.start users creators) (before ++ .enqueue p now :: after)) ↔
      ∀ e ∈ stepLog EventMove.exec (.start users creators) (before ++ .enqueue p now :: after),
        ∀ q ∈ e.2.settlement, q.callId = p.callId → ¬PaysAgency q e.1 := by
  have hrun : ∀ {t : EventStore}, Written t → ∀ ms, Written (runFrom EventMove.exec t ms) := by
    intro t ht ms
    exact runFrom_invariant (G := fun _ => True) ht (fun t m h _ => written_exec h m)
      fun _ _ => trivial
  have hbefore := hrun (written_start users creators) before
  have hlast := hrun (written_start users creators) (before ++ .enqueue p now :: after)
  have henqueued : Enqueued p.callId
      (runFrom EventMove.exec (.start users creators) (before ++ .enqueue p now :: after)) := by
    apply runFrom_after (G := fun e => e.2.settles p.callId = false)
      (enqueued_enqueue hbefore p now) fun t m h hm => enqueued_exec h hm
    intro e he
    exact hafter e.2 (mem_of_mem_stepLog he)
  have hcreated : ∀ row, row ∈ createdRows p.callId
      (stepLog EventMove.exec (.start users creators) (before ++ .enqueue p now :: after)) ↔
        row ∈ (runFrom EventMove.exec (.start users creators)
          (before ++ .enqueue p now :: after)).ledger.rows ∧
            ∃ share : Share, share.callId = p.callId ∧ row = share.callRow := by
    intro row
    rw [mem_createdRows]
    exact and_congr_right fun _ => and_iff_right fun h => nomatch h
  rw [covered_iff hlast henqueued hcreated]
  exact createdRows_named_iff hlast rfl

/-! A BD's agency: the call earns 1000 coins, 50 for the BD and 150 for the agency. -/

def agencyUsers : List User :=
  [⟨"h1", "creator", none, 0⟩, ⟨"b1", "bd", none, 0⟩, ⟨"a1", "agency", some "b1", 0⟩]

def agencyCall (agencyBps : ℕ) : List EventMove :=
  [.settle ⟨⟨"f1_c1_7", "c1", 1000⟩, 500, agencyBps⟩]

theorem bdCall_covered :
    Covered "f1_c1_7"
        (createdRows "f1_c1_7" (stepLog EventMove.exec (.start agencyUsers [⟨"c1", "h1", some "a1"⟩])
          (agencyCall 0 ++ .enqueue ⟨"f1_c1_7", 1000, 60⟩ 5 :: [])))
        (runFrom EventMove.exec (.start agencyUsers [⟨"c1", "h1", some "a1"⟩])
          (agencyCall 0 ++ .enqueue ⟨"f1_c1_7", 1000, 60⟩ 5 :: [])) := by
  apply (staff_events_cover_iff agencyUsers [⟨"c1", "h1", some "a1"⟩] (agencyCall 0) []
    ⟨"f1_c1_7", 1000, 60⟩ 5 (fun m hm => nomatch hm)).2
  intro e he q hq _ hpays
  have hshare : ∀ e ∈ stepLog EventMove.exec (.start agencyUsers [⟨"c1", "h1", some "a1"⟩])
      (agencyCall 0 ++ .enqueue ⟨"f1_c1_7", 1000, 60⟩ 5 :: []), ∀ q ∈ e.2.settlement,
        q.agencyBps = 0 := by
    decide +kernel
  have hcut := hpays.2
  rw [hshare e he q hq, Nat.mul_zero] at hcut
  omega

theorem agencyCall_notCovered :
    ¬∀ (users : List User) (creators : List Creator) (before after : List EventMove)
      (p : EnqueueParams) (now : ℤ), (∀ m ∈ after, m.settles p.callId = false) →
        Covered p.callId
          (createdRows p.callId
            (stepLog EventMove.exec (.start users creators) (before ++ .enqueue p now :: after)))
          (runFrom EventMove.exec (.start users creators) (before ++ .enqueue p now :: after)) := by
  intro h
  have hcovered := h agencyUsers [⟨"c1", "h1", some "a1"⟩] (agencyCall 1500) []
    ⟨"f1_c1_7", 1000, 60⟩ 5 (fun m hm => nomatch hm)
  have hmissed : ∃ row ∈ createdRows "f1_c1_7"
      (stepLog EventMove.exec (.start agencyUsers [⟨"c1", "h1", some "a1"⟩])
        (agencyCall 1500 ++ .enqueue ⟨"f1_c1_7", 1000, 60⟩ 5 :: [])),
      (runFrom EventMove.exec (.start agencyUsers [⟨"c1", "h1", some "a1"⟩])
        (agencyCall 1500 ++ .enqueue ⟨"f1_c1_7", 1000, 60⟩ 5 :: [])).outbox.rows.countP
          (DomainEvent.credits "f1_c1_7" row) = 0 := by
    decide +kernel
  obtain ⟨row, hrow, hnone⟩ := hmissed
  have hone := hcovered.credited row hrow
  simp [hnone] at hone

end VibemeetBackend.Staff
