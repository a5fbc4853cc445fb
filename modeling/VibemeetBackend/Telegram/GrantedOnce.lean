import VibemeetBackend.Async.Watch
import VibemeetBackend.Telegram.Reward

/-!
# One join reward, one account

Whole runs of messages to the bot and claims, with other changes of the wallets between any two of
their commands, duplicate keys, aborted and retried transactions, and requests that stop for good
anywhere.
-/

namespace VibemeetBackend.Telegram

open Async
open CreatorReferral (ObjectId)

variable {s t : Store} {c : Cmd} {r : Reply}

/-! ### What a command does -/

def granted (c : Cmd) (r : Reply) (s : Store) : Option ClaimWrite :=
  match c with
  | .commit (some w) => if (r.delivered && !w.conflicts s) = true then some w else none
  | _ => none

/-- The coins that a command brings a user otherwise. -/
def gain (c : Cmd) (r : Reply) (userId : ObjectId) : ℤ :=
  match c with
  | .incCoins earner amount => if r.delivered = true ∧ earner = userId then amount else 0
  | _ => 0

/-- The store after a command, by the claim that it commits and the coins that it brings. -/
inductive Effect (s : Store) : Option ClaimWrite → (ObjectId → ℤ) → Store → Prop where
  | rest (g : ObjectId → ℤ) (hg : ∀ userId, (s.users.get userId).isSome = true → g userId = 0) :
    Effect s none g s
  | linked (d : User) (telegramUserId : String) (hd : s.users.get d.id = some d)
    (hfree : d.telegramUserId = none) (hnew : s.taken telegramUserId = false) :
    Effect s none (fun _ => 0)
      { s with users := s.users.put { d with telegramUserId := some telegramUserId } }
  | granted (w : ClaimWrite) (hd : s.users.get w.user.id = some w.user)
    (hrow : s.row w.user.id = none) : Effect s (some w) (fun _ => 0) (w.exec s)
  | earned (d : User) (amount : ℤ) (hd : s.users.get d.id = some d) :
    Effect s none (fun userId => if d.id = userId then amount else 0)
      { s with users := s.users.put { d with coins := d.coins + amount } }

theorem Effect.idle (s : Store) : Effect s none (fun _ => 0) s := .rest _ fun _ _ => rfl

theorem link_effect (s : Store) (userId : ObjectId) (telegramUserId : String) :
    Effect s none (fun _ => 0) (s.link userId telegramUserId) := by
  unfold Store.link
  split
  · exact .idle s
  · rename_i d hd
    split
    · exact .idle s
    · rename_i htaken
      obtain ⟨hget, hfilter⟩ := Option.filter_eq_some_iff.1 hd
      rw [Bool.and_eq_true, Option.isNone_iff_eq_none] at hfilter
      rw [← (Mongo.Unique.mem_of_get hget).2] at hget
      exact .linked d telegramUserId hget hfilter.2 (Bool.eq_false_iff.2 htaken)

theorem incCoins_effect (s : Store) (userId : ObjectId) (amount : ℤ) :
    Effect s none (fun u => if userId = u then amount else 0) (s.incCoins userId amount) := by
  unfold Store.incCoins
  split
  · rename_i hd
    apply Effect.rest
    intro u hu
    rw [if_neg]
    rintro rfl
    rw [hd] at hu
    exact Bool.noConfusion hu
  · rename_i d hd
    obtain ⟨-, rfl⟩ := Mongo.Unique.mem_of_get hd
    exact .earned d amount hd

theorem conflicts_eq_false {w : ClaimWrite} (h : w.conflicts s = false) :
    s.users.get w.user.id = some w.user ∧ s.row w.user.id = none := by
  rw [ClaimWrite.conflicts, Bool.or_eq_false_iff, bne_eq_false_iff_eq,
    Option.isSome_eq_false_iff, Option.isNone_iff_eq_none] at h
  exact h

theorem exec_effect (c : Cmd) (r : Reply) (s : Store) :
    Effect s (granted c r s) (gain c r) (c.exec r s) := by
  unfold Cmd.exec
  split
  · rename_i hr
    have hgranted : granted c r s = none := by
      unfold granted
      split
      · rw [hr, Bool.false_and, if_neg Bool.false_ne_true]
      · rfl
    have hgain : gain c r = fun _ => 0 := by
      funext userId
      unfold gain
      split <;> simp_all
    rw [hgranted, hgain]
    exact .idle s
  · rename_i hr
    rw [Bool.not_eq_false] at hr
    cases c with
    | link userId telegramUserId => exact link_effect s userId telegramUserId
    | incCoins userId amount =>
      have hgain : gain (.incCoins userId amount) r = fun u => if userId = u then amount else 0 := by
        funext u
        show (if r.delivered = true ∧ userId = u then amount else 0) = _
        rw [hr]
        simp only [true_and]
      rw [hgain]
      exact incCoins_effect s userId amount
    | commit w =>
      cases w with
      | none => exact .idle s
      | some w =>
        show Effect s (if (r.delivered && !w.conflicts s) = true then some w else none) _
          (if w.conflicts s = true then s else w.exec s)
        rw [hr, Bool.true_and]
        cases hconflicts : w.conflicts s with
        | true => exact .idle s
        | false =>
          obtain ⟨hd, hrow⟩ := conflicts_eq_false hconflicts
          exact .granted w hd hrow
    | findByTelegram | findByFirebase | findById | sendMessage | getChatMember | snapshot =>
      exact .idle s

/-! ### What an effect changes -/

def creditOf (p : Option ClaimWrite) (userId : ObjectId) : List ℕ :=
  match p with
  | none => []
  | some w => if w.user.id = userId then [w.coins] else []

theorem creditOf_self (w : ClaimWrite) : creditOf (some w) w.user.id = [w.coins] := if_pos rfl

variable {userId : ObjectId}

theorem creditOf_ne {w : ClaimWrite} (h : w.user.id ≠ userId) :
    creditOf (some w) userId = [] := if_neg h

variable {telegramUserId : String}

namespace Effect

variable {p : Option ClaimWrite} {g : ObjectId → ℤ}

theorem keepsLink (h : Effect s p g t) (hlink : s.telegramUserId userId = some telegramUserId) :
    t.telegramUserId userId = some telegramUserId := by
  obtain ⟨d, hd, htg⟩ := Option.bind_eq_some_iff.1 hlink
  have hput : ∀ d' : User, (d'.id = userId → d'.telegramUserId = some telegramUserId) →
      ((s.users.put d').get userId).bind User.telegramUserId = some telegramUserId := by
    intro d' hd'
    rw [Mongo.Unique.get_put]
    split
    · rename_i hid
      exact hd' hid
    · exact hlink
  have hsame : ∀ d' : User, s.users.get d'.id = some d' → d'.id = userId → d' = d := by
    rintro d' hd' rfl
    exact Option.mem_unique hd' hd
  cases h with
  | rest => exact hlink
  | linked d' tg hd' hfree hnew =>
    apply hput
    intro hid
    simp [hsame d' hd' hid, htg] at hfree
  | granted w hd' hrow =>
    apply hput
    intro hid
    show w.user.telegramUserId = _
    rw [hsame _ hd' hid, htg]
  | earned d' amount hd' =>
    apply hput
    intro hid
    show d'.telegramUserId = _
    rw [hsame d' hd' hid, htg]

theorem coins (h : Effect s p g t) (userId : ObjectId) :
    t.coins userId =
      (s.coins userId).map fun v => v + (g userId + ((creditOf p userId).sum : ℕ)) := by
  have hput : ∀ (d d' : User) (n : ℤ), s.users.get d.id = some d → d'.id = d.id →
      d'.coins = d.coins + n → ((s.users.put d').get userId).map User.coins =
        (s.coins userId).map fun v => v + if d.id = userId then n else 0 := by
    intro d d' n hd hid hcoins
    rw [Mongo.Unique.get_put, hid]
    by_cases hu : d.id = userId
    · subst hu
      simp [Store.coins, hd, hcoins]
    · rw [if_neg hu, if_neg hu]
      simp only [add_zero, Option.map_id']
      rfl
  cases h with
  | rest g hg =>
    cases hd : s.users.get userId with
    | none =>
      rw [Store.coins, hd]
      rfl
    | some d =>
      have hzero := hg userId (by rw [hd]; rfl)
      simp only [hzero, creditOf, List.sum_nil,
        Nat.cast_zero, add_zero, Option.map_id']
  | linked d tg hd hfree hnew =>
    have h := hput d { d with telegramUserId := some tg } 0 hd rfl (add_zero _).symm
    simp only [ite_self, add_zero, Option.map_id'] at h
    simp only [creditOf, List.sum_nil, Nat.cast_zero,
      add_zero, Option.map_id']
    exact h
  | granted w hd hrow =>
    have h := hput w.user w.claimed w.coins hd rfl rfl
    by_cases hu : w.user.id = userId
    · subst hu
      rw [if_pos rfl] at h
      rw [creditOf_self]
      simp only [List.sum_singleton, zero_add]
      exact h
    · rw [if_neg hu] at h
      rw [creditOf_ne hu]
      exact h
  | earned d amount hd =>
    have h := hput d { d with coins := d.coins + amount } amount hd rfl rfl
    simp only [creditOf, List.sum_nil, Nat.cast_zero,
      add_zero]
    exact h

theorem row (h : Effect s p g t) (userId : ObjectId) :
    (creditOf p userId = [] ∧ t.row userId = s.row userId) ∨
      ∃ w, p = some w ∧ w.user.id = userId ∧ creditOf p userId = [w.coins] ∧
        s.row userId = none ∧ t.row userId = some w.row := by
  cases h with
  | rest | linked | earned => exact .inl ⟨rfl, rfl⟩
  | granted w hd hrow =>
    have hget : ∀ u, (w.exec s).row u =
        if telegramJoinRewardTransactionId w.user.id = telegramJoinRewardTransactionId u then
          some w.row else s.row u := by
      intro u
      exact Mongo.Unique.get_insert (d := w.row) hrow _
    by_cases hu : w.user.id = userId
    · subst hu
      right
      exact ⟨w, rfl, rfl, creditOf_self w, hrow, by rw [hget, if_pos rfl]⟩
    · left
      refine ⟨creditOf_ne hu, ?_⟩
      rw [hget, if_neg]
      intro hid
      exact hu (transactionId_injective hid)

theorem claimed (h : Effect s p g t) {d : User} (hd : t.users.get userId = some d) :
    (∃ w, p = some w ∧ w.user.id = userId ∧ d.telegramRewardClaimed = true) ∨
      ((∀ w, p = some w → w.user.id ≠ userId) ∧
        ∃ d₀, s.users.get userId = some d₀ ∧
          d.telegramRewardClaimed = d₀.telegramRewardClaimed) := by
  have hput : ∀ d₁ d' : User, s.users.get d₁.id = some d₁ → d'.id = d₁.id →
      d'.telegramRewardClaimed = d₁.telegramRewardClaimed →
      (s.users.put d').get userId = some d → ∃ d₀, s.users.get userId = some d₀ ∧
          d.telegramRewardClaimed = d₀.telegramRewardClaimed := by
    intro d₁ d' hd₁ hid hflag hget
    rw [Mongo.Unique.get_put, hid] at hget
    split at hget
    · rename_i hu
      subst hu
      cases hget
      exact ⟨d₁, hd₁, hflag⟩
    · exact ⟨d, hget, rfl⟩
  have hnobody : ∀ w : ClaimWrite, (none : Option ClaimWrite) = some w → w.user.id ≠ userId := by
    rintro _ ⟨⟩
  cases h with
  | rest => exact .inr ⟨hnobody, d, hd, rfl⟩
  | linked d' tg hd' hfree hnew =>
    exact .inr ⟨hnobody, hput d' { d' with telegramUserId := some tg } hd' rfl rfl hd⟩
  | earned d' amount hd' =>
    exact .inr ⟨hnobody, hput d' { d' with coins := d'.coins + amount } hd' rfl rfl hd⟩
  | granted w hd' hrow =>
    have hd : (s.users.put w.claimed).get userId = some d := hd
    rw [Mongo.Unique.get_put] at hd
    split at hd
    · rename_i hu
      cases hd
      exact .inl ⟨w, rfl, hu, rfl⟩
    · rename_i hu
      refine .inr ⟨fun w' hw' => ?_, d, hd, rfl⟩
      cases hw'
      exact hu

end Effect

/-! ### Accounts -/

/-- No two users are linked to one account. -/
def Store.Exclusive (s : Store) : Prop :=
  ∀ u v telegramUserId, s.telegramUserId u = some telegramUserId →
    s.telegramUserId v = some telegramUserId → u = v

theorem not_linked_of_free (h : s.taken telegramUserId = false) (userId : ObjectId) :
    s.telegramUserId userId ≠ some telegramUserId := by
  intro hlink
  obtain ⟨d, hd, htg⟩ := Option.bind_eq_some_iff.1 hlink
  rw [Store.taken, Option.isSome_eq_false_iff, Option.isNone_iff_eq_none, Store.userByTelegram,
    List.find?_eq_none] at h
  exact h d (Mongo.Unique.mem_of_get hd).1 (beq_iff_eq.2 htg)

theorem Effect.exclusive {p : Option ClaimWrite} {g : ObjectId → ℤ} (h : Effect s p g t)
    (hs : s.Exclusive) : t.Exclusive := by
  have hput : ∀ d d' : User, s.users.get d.id = some d → d'.id = d.id →
      d'.telegramUserId = d.telegramUserId → ∀ u, ((s.users.put d').get u).bind User.telegramUserId =
        s.telegramUserId u := by
    grind [Mongo.Unique.get_put, Store.telegramUserId]
  have hsame : (∀ u, t.telegramUserId u = s.telegramUserId u) → t.Exclusive := by
    intro heq u v tg hu hv
    rw [heq] at hu hv
    exact hs u v tg hu hv
  cases h with
  | rest => exact hs
  | granted w hd hrow => exact hsame (hput w.user w.claimed hd rfl rfl)
  | earned d amount hd => exact hsame (hput d { d with coins := d.coins + amount } hd rfl rfl)
  | linked d tg hd hfree hnew =>
    -- the account was free, so that every other link is to another account
    have hlinks : ∀ u x, ((s.users.put { d with telegramUserId := some tg }).get u).bind
        User.telegramUserId = some x → (d.id = u ∧ x = tg) ∨ s.telegramUserId u = some x := by
      intro u x hx
      rw [Mongo.Unique.get_put] at hx
      split at hx
      · rename_i hu
        exact .inl ⟨hu, (Option.some.inj hx).symm⟩
      · exact .inr hx
    intro u v x hu hv
    rcases hlinks u x hu with ⟨rfl, rfl⟩ | hu'
    · rcases hlinks v x hv with ⟨rfl, -⟩ | hv'
      · rfl
      · exact absurd hv' (not_linked_of_free hnew v)
    · rcases hlinks v x hv with ⟨rfl, rfl⟩ | hv'
      · exact absurd hu' (not_linked_of_free hnew u)
      · exact hs u v x hu' hv'

/-! ### Rewards -/

def Store.Flagged (s : Store) : Prop :=
  ∀ userId d, s.users.get userId = some d →
    (d.telegramRewardClaimed = true ↔ (s.row userId).isSome = true)

theorem Effect.flagged {p : Option ClaimWrite} {g : ObjectId → ℤ} (h : Effect s p g t)
    (hs : s.Flagged) : t.Flagged := by
  intro userId d hd
  rcases h.claimed hd with ⟨w, hp, hu, hflag⟩ | ⟨hother, d₀, hd₀, hflag⟩
  · rcases h.row userId with ⟨hcredit, -⟩ | ⟨w', -, -, -, -, hrow⟩
    · subst hp hu
      simp [creditOf_self] at hcredit
    · rw [hrow, hflag]
      simp
  · rcases h.row userId with ⟨-, hrow⟩ | ⟨w', hp, hu, -⟩
    · rw [hrow, hflag]
      exact hs userId d₀ hd₀
    · exact absurd hu (hother w' hp)

def credits (userId : ObjectId) (l : List (Event Cmd Reply Store)) : List ℕ :=
  l.flatMap fun e => creditOf (granted e.cmd e.ans e.before) userId

def gains (userId : ObjectId) (l : List (Event Cmd Reply Store)) : ℤ :=
  (l.map fun e => gain e.cmd e.ans userId).sum

theorem credits_snoc (userId : ObjectId) (l : List (Event Cmd Reply Store))
    (e : Event Cmd Reply Store) :
    credits userId (l ++ [e]) = credits userId l ++ creditOf (granted e.cmd e.ans e.before) userId := by
  rw [credits, List.flatMap_append, List.flatMap_singleton]
  rfl

theorem gains_snoc (userId : ObjectId) (l : List (Event Cmd Reply Store))
    (e : Event Cmd Reply Store) :
    gains userId (l ++ [e]) = gains userId l + gain e.cmd e.ans userId := by
  rw [gains, List.map_append, List.sum_append, List.map_singleton, List.sum_singleton]
  rfl

def rewardRow (userId : ObjectId) (coins : ℕ) : CoinTransaction :=
  ⟨telegramJoinRewardTransactionId userId, userId, coins, "telegram_join_reward",
    "Telegram Join Reward"⟩

def Paid (start final : Option CoinTransaction) (userId : ObjectId) (credits : List ℕ) : Prop :=
  (credits = [] ∧ final = start) ∨
    ∃ coins, credits = [coins] ∧ start = none ∧ final = some (rewardRow userId coins)

structure Granting (s : Store) (l : List (Event Cmd Reply Store)) (t : Store) : Prop where
  exclusive : t.Exclusive
  flagged : t.Flagged
  paid : ∀ userId, Paid (s.row userId) (t.row userId) userId (credits userId l)
  coins : ∀ userId, t.coins userId =
    (s.coins userId).map fun v => v + (gains userId l + ((credits userId l).sum : ℕ))

theorem Granting.step {l : List (Event Cmd Reply Store)} (h : Granting s l t) (c : Cmd) (r : Reply) :
    Granting s (l ++ [⟨t, c, r, c.exec r t⟩]) (c.exec r t) := by
  have heffect := exec_effect c r t
  refine ⟨heffect.exclusive h.exclusive, heffect.flagged h.flagged, ?_, ?_⟩
  · intro userId
    rw [credits_snoc]
    rcases heffect.row userId with ⟨hcredit, hrow⟩ | ⟨w, -, rfl, hcredit, hnone, hrow⟩
    · rw [hcredit, hrow, List.append_nil]
      exact h.paid userId
    · rw [hcredit, hrow]
      rcases h.paid w.user.id with ⟨hl, hkept⟩ | ⟨coins, -, -, hpaid⟩
      · rw [hl]
        exact .inr ⟨w.coins, rfl, hkept ▸ hnone, rfl⟩
      · simp [hnone] at hpaid
  · intro userId
    rw [heffect.coins, h.coins, credits_snoc, gains_snoc, Option.map_map]
    congr 1
    funext v
    dsimp only [Function.comp_apply]
    rw [List.sum_append]
    push_cast
    omega

/-! ### Runs -/

def telegramRun (cfg : BotConfig) (s : Store) (ms : List (Move Request Reply)) :
    Pool Cmd Reply Store :=
  (Pool.start s).play Cmd.exec (program cfg) ms

theorem telegramUserId_play (cfg : BotConfig) (w : Pool Cmd Reply Store)
    (ms : List (Move Request Reply)) (h : w.store.telegramUserId userId = some telegramUserId) :
    (w.play Cmd.exec (program cfg) ms).store.telegramUserId userId = some telegramUserId := by
  induction ms using List.reverseRecOn with
  | nil => exact h
  | append_singleton ms m ih =>
    rw [Pool.play_snoc]
    rcases Pool.move_cases Cmd.exec (program cfg) (w.play Cmd.exec (program cfg) ms) m with
      ⟨hstore, -⟩ | ⟨c, r, hstore, -⟩
    · rw [hstore]
      exact ih
    · rw [hstore]
      exact (exec_effect c r _).keepsLink ih

/-- The links are exclusive, now and later; a user is paid at most one reward, with its row and its
coins; and the flag says whether there is a row. -/
structure GrantedOnce (cfg : BotConfig) (s : Store) (ms : List (Move Request Reply)) : Prop where
  bound : ∀ later u v telegramUserId,
    (telegramRun cfg s ms).store.telegramUserId u = some telegramUserId →
      (telegramRun cfg s (ms ++ later)).store.telegramUserId v = some telegramUserId → u = v
  paid : ∀ userId, Paid (s.row userId) ((telegramRun cfg s ms).store.row userId) userId
    (credits userId (telegramRun cfg s ms).log)
  coins : ∀ userId, (telegramRun cfg s ms).store.coins userId = (s.coins userId).map fun v =>
    v + (gains userId (telegramRun cfg s ms).log +
      ((credits userId (telegramRun cfg s ms).log).sum : ℕ))
  flagged : (telegramRun cfg s ms).store.Flagged

theorem granting_run (cfg : BotConfig) {s : Store} (hlinks : s.Exclusive) (hflags : s.Flagged)
    (ms : List (Move Request Reply)) :
    Granting s (telegramRun cfg s ms).log (telegramRun cfg s ms).store := by
  have hstart : Granting s [] s := by
    refine ⟨hlinks, hflags, fun _ => .inl ⟨rfl, rfl⟩, fun userId => ?_⟩
    show s.coins userId = (s.coins userId).map fun v => v + (0 + ((0 : ℕ) : ℤ))
    simp only [Nat.cast_zero, add_zero, Option.map_id']
  exact Pool.play_invariant (Granting s) (fun _ => True) hstart (fun _ _ c r h _ => h.step c r) ms
    fun _ _ => trivial

/-- **One join reward, one account.** -/
theorem grantedOnce_run (cfg : BotConfig) (s : Store) (hlinks : s.Exclusive) (hflags : s.Flagged)
    (ms : List (Move Request Reply)) : GrantedOnce cfg s ms := by
  have hrun := granting_run cfg hlinks hflags ms
  refine ⟨?_, hrun.paid, hrun.coins, hrun.flagged⟩
  intro later u v telegramUserId hu hv
  have hplay : telegramRun cfg s (ms ++ later) =
      (telegramRun cfg s ms).play Cmd.exec (program cfg) later := List.foldl_append
  have hu' : (telegramRun cfg s (ms ++ later)).store.telegramUserId u = some telegramUserId := by
    rw [hplay]
    exact telegramUserId_play cfg _ later hu
  exact (granting_run cfg hlinks hflags (ms ++ later)).exclusive u v telegramUserId hu' hv

theorem sampleUser_length : "507f1f77bcf86cd799439011".toList.length = 24 := by
  decide +kernel

def sampleUser : ObjectId := ⟨"507f1f77bcf86cd799439011", sampleUser_length⟩

def otherUser : ObjectId := ⟨"507f1f77bcf86cd799439012", by decide +kernel⟩

def sampleStore : Store where
  users := ((Mongo.Unique.empty : Mongo.Unique User.id).insert
    ⟨sampleUser, "f", "user", 5, some "77", false⟩).insert ⟨otherUser, "g", "user", 0, none, false⟩
  ledger := .empty

/-- A decoder that gives the bytes of the id of the other user, and a HMAC of zeros. -/
def sampleBot : BotConfig where
  crypto :=
    { decode := fun _ => [0x50, 0x7f, 0x1f, 0x77, 0xbc, 0xf8, 0x6c, 0xd7, 0x99, 0x43, 0x90, 0x12] ++
        [0, 0, 0, 9] ++ List.replicate 10 0
      hmac := fun _ _ => List.replicate 32 0 }
  webhookSecret := "w"
  linkTokenSecret := "l"

def sampleRewards : RewardConfig := ⟨true, "https://t.me/c", "@c", 100⟩

def done : Reply := ⟨true, true, false, .ok .member⟩

/-- The other user presents the account of the first, who claims twice at once. -/
def twoClaims : List (Move Request Reply) :=
  [Move.spawn (Request.webhook "w" ⟨some "/start abc", some 1, some 77, false⟩ 0),
    Move.spawn (Request.claim sampleRewards "f" 2),
    Move.spawn (Request.claim sampleRewards "f" 2)] ++
    List.replicate 2 (Move.step 0 done) ++
    (List.replicate 3 [Move.step 1 done, Move.step 2 done]).flatten ++
    [Move.step 1 done, Move.step 2 ⟨false, false, true, .ok .member⟩] ++
    List.replicate 2 (Move.step 2 done)

theorem sampleStore_exclusive : sampleStore.Exclusive := by
  have hlinks : ∀ u x, sampleStore.telegramUserId u = some x → u = sampleUser := by
    intro u x hx
    obtain ⟨d, hd, htg⟩ := Option.bind_eq_some_iff.1 hx
    obtain ⟨hmem, rfl⟩ := Mongo.Unique.mem_of_get hd
    have hall : ∀ d ∈ sampleStore.users.rows, d.telegramUserId ≠ none → d.id = sampleUser := by
      decide +kernel
    exact hall d hmem (by rw [htg]; nofun)
  intro u v x hu hv
  exact (hlinks u x hu).trans (hlinks v x hv).symm

theorem sampleStore_flagged : sampleStore.Flagged := by
  intro userId d hd
  have hall : ∀ d ∈ sampleStore.users.rows, d.telegramRewardClaimed = false := by decide +kernel
  rw [hall d (Mongo.Unique.mem_of_get hd).1]
  rfl

theorem grantedOnce_twoClaims : GrantedOnce sampleBot sampleStore twoClaims :=
  grantedOnce_run sampleBot sampleStore sampleStore_exclusive sampleStore_flagged twoClaims

example : ((telegramRun sampleBot sampleStore twoClaims).store.coins sampleUser,
    credits sampleUser (telegramRun sampleBot sampleStore twoClaims).log,
    (telegramRun sampleBot sampleStore twoClaims).log.length) = (some 105, [100], 12) := by
  decide +kernel

end VibemeetBackend.Telegram
