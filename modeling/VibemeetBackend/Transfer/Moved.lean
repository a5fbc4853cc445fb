import VibemeetBackend.Transfer.Agency

/-!
# What a transfer does to the reward
-/

namespace VibemeetBackend.Transfer

open Ledger Mongo
open Referral (isAgencyRole)

/-! ### Where a reward rests -/

def isRewardRow (creatorUserId : String) (row : CoinTransaction) : Bool :=
  row.transactionId == "referral_reward_" ++ row.userId ++ "_" ++ creatorUserId ||
    row.description == movedOut creatorUserId || row.description == movedIn creatorUserId

def rewardNet (creatorUserId : String) (rows : List CoinTransaction) (userId : String) : ℤ :=
  net (rows.filter (isRewardRow creatorUserId)) userId

/-- The whole reward is with one user, and nobody else has or lacks a part of it. -/
def RestsWith (reward : ℕ) (creatorUserId holder : String) (rows : List CoinTransaction) : Prop :=
  rewardNet creatorUserId rows holder = reward ∧
    ∀ row ∈ rows, row.userId ≠ holder → rewardNet creatorUserId rows row.userId = 0

instance (reward : ℕ) (creatorUserId holder : String) (rows : List CoinTransaction) :
    Decidable (RestsWith reward creatorUserId holder rows) := by
  unfold RestsWith
  infer_instance

section rests

variable {cfg : Config} {req : Request} {reward : ℕ} {userId holder holder' old target : String}
  {rows : List CoinTransaction}

theorem rewardNet_absent {id : String} (h : ∀ row ∈ rows, row.userId ≠ id) :
    rewardNet userId rows id = 0 := by
  unfold rewardNet net
  rw [List.filter_eq_nil_iff.2]
  · rfl
  intro row hrow
  have hne := h row (List.mem_of_mem_filter hrow)
  simp [hne]

theorem restsWith_iff : RestsWith reward userId holder rows ↔
    ∀ id, rewardNet userId rows id = if id = holder then (reward : ℤ) else 0 := by
  constructor
  · rintro ⟨hholder, hothers⟩ id
    by_cases hid : id = holder
    · rw [if_pos hid, hid, hholder]
    · rw [if_neg hid]
      by_cases hrow : ∃ row ∈ rows, row.userId = id
      · obtain ⟨row, hmem, rfl⟩ := hrow
        exact hothers row hmem hid
      · apply rewardNet_absent
        intro row hmem heq
        exact hrow ⟨row, hmem, heq⟩
  · intro h
    refine ⟨?_, ?_⟩
    · rw [h holder, if_pos rfl]
    · intro row _ hne
      rw [h row.userId, if_neg hne]

theorem RestsWith.unique (hreward : 0 < reward) (h : RestsWith reward userId holder rows)
    (h' : RestsWith reward userId holder' rows) : holder = holder' := by
  by_contra hne
  have hnone := restsWith_iff.1 h' holder
  rw [if_neg hne, h.1] at hnone
  omega

theorem rewardNet_moved (id : String) :
    rewardNet userId (rows ++ [debitRow cfg req userId old target,
      creditRow cfg req userId old target]) id =
    rewardNet userId rows id - (if id = old then (cfg.getReferralRewardCoins : ℤ) else 0) +
      if id = target then (cfg.getReferralRewardCoins : ℤ) else 0 := by
  have hdebit : isRewardRow userId (debitRow cfg req userId old target) = true := by
    simp [isRewardRow, debitRow]
  have hcredit : isRewardRow userId (creditRow cfg req userId old target) = true := by
    simp [isRewardRow, creditRow]
  have hrows : (rows ++ [debitRow cfg req userId old target,
      creditRow cfg req userId old target]).filter (isRewardRow userId) =
      rows.filter (isRewardRow userId) ++ [debitRow cfg req userId old target] ++
        [creditRow cfg req userId old target] := by
    simp_all
  unfold rewardNet
  rw [hrows, net_snoc rfl, net_snoc rfl]
  have hout : (debitRow cfg req userId old target).signed = -(cfg.getReferralRewardCoins : ℤ) := rfl
  have hin : (creditRow cfg req userId old target).signed = (cfg.getReferralRewardCoins : ℤ) := rfl
  have hold : (debitRow cfg req userId old target).userId = old := rfl
  have htarget : (creditRow cfg req userId old target).userId = target := rfl
  rw [hout, hin, hold, htarget]
  by_cases h : old = id <;> by_cases h' : target = id <;> simp [h, h', eq_comm]; omega

theorem restsWith_moved (hne : old ≠ target)
    (hrests : RestsWith reward userId holder rows) :
    RestsWith reward userId target (rows ++ [debitRow cfg req userId old target,
      creditRow cfg req userId old target]) ↔
    RestsWith reward userId old rows ∧ reward = cfg.getReferralRewardCoins := by
  have hcoins := cfg.rewardCoins_pos
  have hbefore := restsWith_iff.1 hrests
  rw [restsWith_iff]
  constructor
  · intro h
    have hold := h old
    rw [rewardNet_moved, if_pos rfl, if_neg hne, if_neg hne, hbefore old] at hold
    by_cases hholder : old = holder
    · simpa [hholder] using ⟨hrests, by omega⟩
    · rw [if_neg hholder] at hold
      omega
  · rintro ⟨hold, hsame⟩ id
    simp [rewardNet_moved, restsWith_iff.1 hold id, hsame]

end rests

/-! ### What a call does -/

section writes

variable {cfg : Config} {req : Request} {k : Admitted} {s : Store} {old : String} {n m : ℕ}

theorem coins_update {users : Unique User.id} {id : String} {f : User → User} {u : User}
    (hf : ∀ u, (f u).id = u.id) (hu : users.get id = some u) :
    (fun id' => ((users.update id f).get id').map (·.coins) : Wallets) =
      Wallets.set (fun id' => (users.get id').map (·.coins)) id (f u).coins := by
  funext id'
  unfold Wallets.set
  dsimp only
  rw [Unique.get_update hf]
  by_cases h : id = id'
  · subst h
    rw [if_pos rfl, if_pos rfl, hu]
    rfl
  · rw [if_neg h, if_neg (Ne.symm h)]

variable (pushedAt : ℤ)

theorem map_relinkUsers {α : Type} {g : User → α}
    (hrefer : ∀ target u, g (User.refer target u) = g u)
    (hpull : ∀ userId u, g (User.pull userId u) = g u)
    (hpush : ∀ entry u, g (User.push entry u) = g u) (users : Unique User.id) (id : String) :
    ((relinkUsers k pushedAt users).get id).map g = (users.get id).map g := by
  unfold relinkUsers
  rw [Unique.map_get_update (User.push_id _) (hpush _),
    Unique.map_get_update (User.pull_id _) (hpull _)]
  cases k.user.referredBy with
  | none => exact Unique.map_get_update (User.refer_id _) (hrefer _) users _ id
  | some old =>
    dsimp only
    rw [Unique.map_get_update (User.pull_id _) (hpull _)]
    exact Unique.map_get_update (User.refer_id _) (hrefer _) users _ id

theorem sum_relinkUsers {g : User → ℕ} {pushedAt : ℤ}
    (hrefer : ∀ target u, g (User.refer target u) = g u)
    (hpull : ∀ userId u, g (User.pull userId u) = g u)
    (hpush : ∀ entry u, g (User.push entry u) = g u) (users : Unique User.id) :
    ((relinkUsers k pushedAt users).rows.map g).sum = (users.rows.map g).sum := by
  unfold relinkUsers
  rw [Unique.sum_update_same (User.push_id _) (hpush _),
    Unique.sum_update_same (User.pull_id _) (hpull _)]
  cases k.user.referredBy with
  | none => exact Unique.sum_update_same (User.refer_id _) (hrefer _) _
  | some old =>
    dsimp only
    rw [Unique.sum_update_same (User.pull_id _) (hpull _)]
    exact Unique.sum_update_same (User.refer_id _) (hrefer _) _

theorem referredBy_relinkUsers {pushedAt : ℤ} {users : Unique User.id} {u : User}
    (hu : users.get k.user.id = some u) :
    ((relinkUsers k pushedAt users).get k.user.id).map (·.referredBy) = some (some k.target.id) := by
  have hfirst : ((users.update k.user.id (User.refer k.target.id)).get k.user.id).map
      (·.referredBy) = some (some k.target.id) := by
    rw [Unique.get_update (User.refer_id _), if_pos rfl, hu]
    rfl
  unfold relinkUsers
  rw [Unique.map_get_update (User.push_id _) (fun _ => rfl),
    Unique.map_get_update (User.pull_id _) (fun _ => rfl)]
  cases k.user.referredBy with
  | none => exact hfirst
  | some old =>
    rw [Unique.map_get_update (User.pull_id _) (fun _ => rfl)]
    exact hfirst

theorem coins_relink : (relink k pushedAt s).coins = s.coins := by
  funext id
  exact map_relinkUsers _ (fun _ _ => rfl) (fun _ _ => rfl) (fun _ _ => rfl) s.users id

theorem agencyCoins_relink : (relink k pushedAt s).agencyCoins = s.agencyCoins :=
  sum_relinkUsers (fun _ _ => rfl) (fun _ _ => rfl) (fun _ _ => rfl) s.users

theorem isAgency_eq (s : Store) (id : String) :
    s.isAgency id = ((s.users.get id).map fun u => isAgencyRole u.role).getD false := by
  unfold Store.isAgency
  cases s.users.get id <;> rfl

theorem map_write {α : Type} {g : User → α} (hcoins : ∀ coins u, g (User.addCoins coins u) = g u)
    (moved : Option String) (id : String) :
    ((write cfg req k moved s).users.get id).map g =
      ((relinkUsers k req.pushedAt s.users).get id).map g := by
  cases moved with
  | none => rfl
  | some old =>
    unfold write moveReward
    rw [Unique.map_get_update (User.addCoins_id _) (hcoins _)]
    exact Unique.map_get_update (User.addCoins_id _) (hcoins _) _ _ id

variable (moved : Option String)

theorem isAgency_write (id : String) : (write cfg req k moved s).isAgency id = s.isAgency id := by
  rw [isAgency_eq, isAgency_eq, map_write (fun _ _ => rfl)]
  congr 1
  exact map_relinkUsers _ (fun _ _ => rfl) (fun _ _ => rfl) (fun _ _ => rfl) s.users id

theorem referredBy_write (cfg : Config) (req : Request) (moved : Option String) {u : User}
    (hu : s.users.get k.user.id = some u) :
    ((write cfg req k moved s).users.get k.user.id).map (·.referredBy) =
      some (some k.target.id) := by
  rw [map_write (fun _ _ => rfl)]
  exact referredBy_relinkUsers hu

theorem creators_write :
    (write cfg req k moved s).creators =
      s.creators.update k.creator.id (Creator.assign k.target.id) := by
  cases moved <;> rfl

theorem edges_write : (write cfg req k moved s).edges = s.edges.put k.newEdge := by
  cases moved <;> rfl

theorem rows_write :
    (write cfg req k moved s).rows = s.rows ++
      match moved with
      | some old => [debitRow cfg req k.user.id old k.target.id,
          creditRow cfg req k.user.id old k.target.id]
      | none => [] := by
  cases moved with
  | none => exact (List.append_nil _).symm
  | some old => rfl

theorem exists_get_relink {id : String} {u : User} (hu : s.users.get id = some u) :
    ∃ u', (relink k pushedAt s).users.get id = some u' ∧ u'.coins = u.coins ∧ u'.role = u.role := by
  have hview := map_relinkUsers (k := k) (g := fun u => (u.coins, u.role)) pushedAt (fun _ _ => rfl)
    (fun _ _ => rfl) (fun _ _ => rfl) s.users id
  rw [hu] at hview
  obtain ⟨u', hu', heq⟩ := Option.map_eq_some_iff.1 hview
  obtain ⟨hcoins, hrole⟩ := Prod.mk.inj heq
  exact ⟨u', hu', hcoins, hrole⟩

/-- Two agencies, one of which can pay the other the reward. -/
structure Payable (cfg : Config) (k : Admitted) (s : Store) (old : String) : Prop where
  other : old ≠ k.target.id
  payer : ∃ u, s.users.get old = some u ∧ isAgencyRole u.role = true ∧
    cfg.getReferralRewardCoins ≤ u.coins
  payee : ∃ u, s.users.get k.target.id = some u ∧ isAgencyRole u.role = true

theorem Payable.docs (h : Payable cfg k s old) (pushedAt : ℤ) :
    ∃ u v, (relink k pushedAt s).users.get old = some u ∧
      ((relink k pushedAt s).users.update old (User.addCoins (-cfg.getReferralRewardCoins))).get
        k.target.id = some v ∧
      isAgencyRole u.role = true ∧ isAgencyRole v.role = true ∧
      cfg.getReferralRewardCoins ≤ u.coins := by
  obtain ⟨u₀, hu₀, hagency₀, hcoins₀⟩ := h.payer
  obtain ⟨v₀, hv₀, hagency₁⟩ := h.payee
  obtain ⟨u, hu, hcoins, hrole⟩ := exists_get_relink (k := k) pushedAt hu₀
  obtain ⟨v, hv, -, hrole'⟩ := exists_get_relink (k := k) pushedAt hv₀
  refine ⟨u, v, hu, ?_, hrole ▸ hagency₀, hrole' ▸ hagency₁, hcoins ▸ hcoins₀⟩
  rw [Unique.get_update (User.addCoins_id _), if_neg h.other]
  exact hv

/-- **The wallets change by the rows.** -/
theorem walletsKept_write {moved : Option String} (h : ∀ old ∈ moved, Payable cfg k s old) :
    WalletsKept s.coins s.rows (write cfg req k moved s).coins (write cfg req k moved s).rows := by
  apply walletsKept_of_books
  intro id
  cases moved with
  | none =>
    unfold write
    rw [coins_relink]
    rfl
  | some old =>
    obtain ⟨u, v, hu, hv, -, -, hcovered⟩ := (h old rfl).docs req.pushedAt
    have hout : books ((relink k req.pushedAt s).coins.set old
        (User.addCoins (-cfg.getReferralRewardCoins) u).coins)
        (s.rows ++ [debitRow cfg req k.user.id old k.target.id]) 0 id =
        books (relink k req.pushedAt s).coins s.rows 0 id := by
      have hcoins : (relink k req.pushedAt s).coins old = some u.coins := by
        show ((relink k req.pushedAt s).users.get old).map (·.coins) = _
        rw [hu]
        rfl
      refine books_move hcoins ?_ rfl 0 id
      show ((u.coins + -(cfg.getReferralRewardCoins : ℤ)).toNat : ℤ) =
        u.coins + -(cfg.getReferralRewardCoins : ℤ)
      omega
    have hset := coins_update (User.addCoins_id (-cfg.getReferralRewardCoins)) hu
    have hin : books (((relink k req.pushedAt s).coins.set old
        (User.addCoins (-cfg.getReferralRewardCoins) u).coins).set k.target.id
        (User.addCoins cfg.getReferralRewardCoins v).coins)
        (s.rows ++ [debitRow cfg req k.user.id old k.target.id] ++
          [creditRow cfg req k.user.id old k.target.id]) 0 id =
        books ((relink k req.pushedAt s).coins.set old
          (User.addCoins (-cfg.getReferralRewardCoins) u).coins)
          (s.rows ++ [debitRow cfg req k.user.id old k.target.id]) 0 id := by
      have hcoins : (relink k req.pushedAt s).coins.set old
          (User.addCoins (-cfg.getReferralRewardCoins) u).coins k.target.id = some v.coins := by
        have happly := congrFun hset k.target.id
        rw [hv] at happly
        exact happly.symm
      refine books_move hcoins ?_ rfl 0 id
      show ((v.coins + (cfg.getReferralRewardCoins : ℤ)).toNat : ℤ) =
        v.coins + (cfg.getReferralRewardCoins : ℤ)
      omega
    have hwallets : (write cfg req k (some old) s).coins =
        ((relink k req.pushedAt s).coins.set old
          (User.addCoins (-cfg.getReferralRewardCoins) u).coins).set k.target.id
          (User.addCoins cfg.getReferralRewardCoins v).coins := by
      have hset' := coins_update (User.addCoins_id (cfg.getReferralRewardCoins : ℤ)) hv
      rw [hset] at hset'
      exact hset'
    rw [coins_relink] at hout hin hwallets
    rw [← hout, ← hin, hwallets, rows_write, List.append_assoc]
    rfl

/-- **The agencies keep what they have together.** -/
theorem agencyCoins_write {moved : Option String} (h : ∀ old ∈ moved, Payable cfg k s old) :
    (write cfg req k moved s).agencyCoins = s.agencyCoins := by
  cases moved with
  | none => exact agencyCoins_relink _
  | some old =>
    obtain ⟨u, v, hu, hv, hagency, hagency', hcovered⟩ := (h old rfl).docs req.pushedAt
    have hout := Unique.sum_update (User.addCoins_id (-cfg.getReferralRewardCoins)) hu fun u =>
      if isAgencyRole u.role then u.coins else 0
    have hin := Unique.sum_update (User.addCoins_id (cfg.getReferralRewardCoins : ℤ)) hv fun u =>
      if isAgencyRole u.role then u.coins else 0
    have hsame := agencyCoins_relink (k := k) (s := s) req.pushedAt
    have hrole : ∀ coins (u : User), (User.addCoins coins u).role = u.role := fun _ _ => rfl
    have hcoins : ∀ coins (u : User), (User.addCoins coins u).coins = (u.coins + coins).toNat :=
      fun _ _ => rfl
    unfold Store.agencyCoins at hsame
    unfold Store.agencyCoins write moveReward
    simp only [hrole, hcoins, hagency, hagency', if_true] at hout hin
    dsimp only
    omega

end writes

end VibemeetBackend.Transfer
