import VibemeetBackend.Async.Watch
import VibemeetBackend.CreatorTask.Claim

/-!
# One reward a week

Whole runs of claims, each with its own clock, with increments of the wallets between any two of their
commands, answers that are lost, and claims that stop for good anywhere.
-/

namespace VibemeetBackend.CreatorTask

open Async Flow

/-! ### What a claim has done -/

/-- The creator that was read, the reward that was marked, and whether its row and the wallet are
written. -/
structure Phase where
  user : Option User
  marked : Option (ProgressKey × ℕ)
  rowed : Bool
  paid : Bool

def Phase.start : Phase := ⟨none, none, false, false⟩

def Phase.after (φ : Phase) (c : Cmd) (s : Store) : Phase :=
  match c with
  | .findUser firebaseUid => { φ with user := s.users.get firebaseUid }
  | .mark p =>
    if s.claimed p.key = true then φ else { φ with marked := some (p.key, p.rewardCoins) }
  | .insertTransaction row =>
    if (s.ledger.get row.transactionId).isSome = true then φ else { φ with rowed := true }
  | .saveUser .. => { φ with paid := true }
  | _ => φ

def Phase.next (φ : Phase) (c : Cmd) (r : Reply) (s : Store) : Phase :=
  if r.delivered = false then φ else φ.after c s

theorem next_delivered {φ : Phase} {c : Cmd} {r : Reply} {s : Store} (hr : r.delivered = true) :
    φ.next c r s = φ.after c s := by
  simp [Phase.next, hr]

/-- A claim marks one reward of its creator, writes one row of it, and adds it once to the coins that it
has read. -/
def Allows (φ : Phase) : Cmd → Prop
  | .mark p => φ.marked = none ∧ φ.rowed = false ∧ φ.paid = false ∧ p.claimedAt.isSome = true ∧
      φ.user.map User.id = some p.key.creatorUserId
  | .insertTransaction row => φ.rowed = false ∧ φ.paid = false ∧
      ∃ key, φ.marked = some (key, row.coins) ∧ row.userId = key.creatorUserId
  | .saveUser firebaseUid coins => φ.rowed = true ∧ φ.paid = false ∧
      ∃ u key rewardCoins, φ.user = some u ∧ φ.marked = some (key, rewardCoins) ∧
        firebaseUid = u.firebaseUid ∧ coins = u.coins + rewardCoins
  | _ => True

section protocol

variable {φ : Phase} {α : Type} {Q : α → Phase → Prop}

abbrev TaskFollows (φ : Phase) (p : TaskFlow α) (Q : α → Phase → Prop) : Prop :=
  Follows (guarded Allows Phase.next) φ p Q fun _ _ => True

theorem follows_run {c : Cmd} {f : Reply × Store → TaskFlow α} (hc : Allows φ c)
    (h : ∀ r s, TaskFollows (φ.after c s) (f (r, s)) Q) : TaskFollows φ (run c >>= f) Q := by
  apply follows_guarded_bind hc
  · exact fun _ _ => trivial
  · intro r s hr
    rw [Reply.ok, Bool.and_eq_true] at hr
    rw [next_delivered hr.1]
    exact h r s

theorem pay_follows (q : ClaimRequest) (task : CreatorTaskDefinition) (u : User)
    (key : ProgressKey) (hkey : key.creatorUserId = u.id)
    (hφ : φ = ⟨some u, some (key, task.rewardCoins), false, false⟩) :
    TaskFollows φ (pay q task u) fun _ _ => True := by
  subst hφ
  unfold pay
  dsimp only
  apply follows_run (c := .findTransaction _) trivial
  intro _ s
  dsimp only
  split
  · trivial
  apply follows_run
  · exact ⟨rfl, rfl, key, rfl, hkey.symm⟩
  intro _ s'
  dsimp only
  split
  · trivial
  rename_i hfree
  simp [hfree, Phase.after, run, Allows]

theorem claimTaskReward_follows (q : ClaimRequest) :
    TaskFollows .start (claimTaskReward q) fun _ _ => True := by
  unfold claimTaskReward
  split
  · trivial
  rename_i task _
  apply follows_run (c := .findUser _) trivial
  intro _ s
  dsimp only
  split
  · trivial
  rename_i u hu
  split
  · trivial
  have hread : Phase.start.after (.findUser q.firebaseUid) s = ⟨some u, none, false, false⟩ := by
    rw [Phase.after, hu]
    rfl
  rw [hread]
  apply follows_run (c := .aggregatePaidCoins ..) trivial
  intro r _
  split
  · trivial
  apply follows_run
  · exact ⟨rfl, rfl, rfl, rfl, rfl⟩
  intro _ s'
  split
  · trivial
  rename_i hunclaimed
  apply pay_follows q task u ⟨u.id, q.taskKey, (getWeeklyPeriodBoundsForInstant q.now).1⟩ rfl
  exact if_neg hunclaimed

theorem program_follows (q : Request) :
    (program q).Follows (guarded Allows Phase.next) .start fun _ _ => True := by
  cases q with
  | claim q => exact Follows.run (claimTaskReward_follows q)
  | income firebaseUid amount => exact fun r s => ⟨_, guarded_of trivial, trivial⟩

end protocol

/-! ### Marks, rows and credits -/

namespace Phase

def claims (key : ProgressKey) (φ : Phase) : Bool := φ.marked.map Prod.fst == some key

def wrote (key : ProgressKey) (φ : Phase) : Bool := φ.claims key && φ.rowed

def credited (key : ProgressKey) (φ : Phase) : Bool := φ.claims key && φ.paid

def rewardCoins (φ : Phase) : ℕ := (φ.marked.map Prod.snd).getD 0

end Phase

def marks (key : ProgressKey) (e : Event Cmd Reply Store) : Bool :=
  match e.cmd with
  | .mark p => e.ans.delivered && !e.before.claimed key && p.key == key
  | _ => false

def inserted (e : Event Cmd Reply Store) : Bool :=
  match e.cmd with
  | .insertTransaction row =>
    e.ans.delivered && (e.before.ledger.get row.transactionId).isNone
  | _ => false

def saved (e : Event Cmd Reply Store) : Bool :=
  match e.cmd with
  | .saveUser .. => e.ans.delivered
  | _ => false

/-- How many ledger rows were written for a reward. -/
def rows (log : List (Phase × Event Cmd Reply Store)) (key : ProgressKey) : ℕ :=
  log.countP fun x => x.1.claims key && inserted x.2

/-- How often a reward was added to the wallet. -/
def credits (log : List (Phase × Event Cmd Reply Store)) (key : ProgressKey) : ℕ :=
  log.countP fun x => x.1.claims key && saved x.2

/-- What a command adds to the wallet of a user, a save being a credit of the reward. -/
def movement (firebaseUid : String) (x : Phase × Event Cmd Reply Store) : ℤ :=
  if x.2.ans.delivered = false then 0
  else
    match x.2.cmd with
    | .incCoins uid amount => if uid = firebaseUid then amount else 0
    | .saveUser uid _ => if uid = firebaseUid then x.1.rewardCoins else 0
    | _ => 0

def moved (firebaseUid : String) (log : List (Phase × Event Cmd Reply Store)) : ℤ :=
  (log.map (movement firebaseUid)).sum

/-- A save finds the wallet as the claim has read it. -/
def Saves (x : Phase × Event Cmd Reply Store) : Prop :=
  match x.2.cmd with
  | .saveUser firebaseUid _ => x.2.ans.delivered = true →
    ∀ u ∈ x.1.user, ∀ u' ∈ x.2.before.users.get firebaseUid, u'.coins = u.coins
  | _ => True

/-! ### Steps -/

variable {φ : Phase} {c : Cmd} {r : Reply} {s : Store}

theorem claims_next (hA : Allows φ c) (key : ProgressKey) (t : Store) :
    ((φ.next c r s).claims key).toNat = (φ.claims key).toNat + (marks key ⟨s, c, r, t⟩).toNat := by
  unfold Phase.next marks
  cases hr : r.delivered with
  | false =>
    cases c <;> rfl
  | true =>
    rw [if_neg Bool.noConfusion]
    cases c with
    | mark p =>
      have hnone : φ.claims key = false := by
        rw [Phase.claims, hA.1]
        rfl
      rw [hnone]
      dsimp only [Phase.after]
      by_cases hp : p.key = key
      · rw [hp, beq_self_eq_true]
        cases hclaimed : s.claimed key with
        | true =>
          rw [if_pos rfl, hnone]
          rfl
        | false =>
          show (some key == some key).toNat = _
          rw [beq_self_eq_true]
          rfl
      · rw [beq_eq_false_iff_ne.2 hp, Bool.and_false]
        split
        · rw [hnone]
          rfl
        · show (some p.key == some key).toNat = _
          rw [beq_eq_false_iff_ne.2 fun heq => hp (Option.some.inj heq)]
          rfl
    | insertTransaction row =>
      dsimp only [Phase.after]
      split <;> rfl
    | _ => rfl

theorem wrote_next (hA : Allows φ c) (key : ProgressKey) (t : Store) :
    ((φ.next c r s).wrote key).toNat =
      (φ.wrote key).toNat + (φ.claims key && inserted ⟨s, c, r, t⟩).toNat := by
  unfold Phase.next inserted
  cases hr : r.delivered with
  | false =>
    cases c <;> simp
  | true =>
    rw [if_neg Bool.noConfusion]
    cases c with
    | mark p =>
      dsimp only [Phase.after]
      have hnone : ∀ marked, Phase.wrote key { φ with marked } = false := by
        intro marked
        rw [Phase.wrote, hA.2.1, Bool.and_false]
      split
      · rw [Bool.and_false]
        rfl
      · rw [hnone, hnone φ.marked, Bool.and_false]
        rfl
    | insertTransaction row =>
      have hrowed : φ.wrote key = false := by
        rw [Phase.wrote, hA.1, Bool.and_false]
      dsimp only [Phase.after]
      cases hrow : s.ledger.get row.transactionId with
      | some _ =>
        simp
      | none =>
        rw [Option.isSome_none, if_neg Bool.noConfusion, hrowed, Option.isNone_none]
        simp [Phase.wrote, Phase.claims]
    | _ => simp [Phase.after, Phase.wrote, Phase.claims]

theorem credited_next (hA : Allows φ c) (key : ProgressKey) (t : Store) :
    ((φ.next c r s).credited key).toNat =
      (φ.credited key).toNat + (φ.claims key && saved ⟨s, c, r, t⟩).toNat := by
  unfold Phase.next saved
  cases hr : r.delivered with
  | false =>
    cases c <;> simp
  | true =>
    rw [if_neg Bool.noConfusion]
    cases c with
    | mark p =>
      dsimp only [Phase.after]
      have hnone : ∀ marked, Phase.credited key { φ with marked } = false := by
        intro marked
        rw [Phase.credited, hA.2.2.1, Bool.and_false]
      split
      · rw [Bool.and_false]
        rfl
      · rw [hnone, hnone φ.marked, Bool.and_false]
        rfl
    | insertTransaction row =>
      dsimp only [Phase.after]
      rw [Bool.and_false]
      split <;> rfl
    | saveUser firebaseUid coins =>
      have hpaid : φ.credited key = false := by
        rw [Phase.credited, hA.2.1, Bool.and_false]
      rw [hpaid]
      simp [Phase.after, Phase.credited, Phase.claims]
    | _ => simp [Phase.after, Phase.credited, Phase.claims]

theorem claimed_mark (s : Store) {p : CreatorTaskProgress} (hp : p.claimedAt.isSome = true)
    (key : ProgressKey) : (s.mark p).claimed key = (s.claimed key || p.key == key) := by
  unfold Store.mark
  cases hget : s.progress.get p.key with
  | none =>
    dsimp only [Store.claimed]
    rw [Mongo.Unique.get_put]
    by_cases hkey : p.key = key
    · rw [if_pos hkey, Option.any_some, hp, hkey, beq_self_eq_true, Bool.or_true]
    · rw [if_neg hkey, beq_eq_false_iff_ne.2 hkey, Bool.or_false]
  | some q =>
    have hq : q.key = p.key := (Mongo.Unique.mem_of_get hget).2
    dsimp only
    cases hclaimed : q.claimedAt.isSome with
    | true =>
      rw [if_pos rfl]
      by_cases hkey : p.key = key
      · have hs : s.claimed key = true := by
          rw [Store.claimed, ← hkey, hget]
          exact hclaimed
        rw [hs, Bool.true_or]
      · rw [beq_eq_false_iff_ne.2 hkey, Bool.or_false]
    | false =>
      rw [if_neg Bool.noConfusion]
      dsimp only [Store.claimed]
      rw [Mongo.Unique.get_put]
      rw [hq]
      by_cases hkey : p.key = key
      · simpa [hkey] using hp
      · rw [if_neg hkey, beq_eq_false_iff_ne.2 hkey, Bool.or_false]

theorem claimed_exec (hA : Allows φ c) (key : ProgressKey) (t : Store) :
    ((c.exec r s).claimed key).toNat = (s.claimed key).toNat + (marks key ⟨s, c, r, t⟩).toNat := by
  unfold Cmd.exec marks
  cases hr : r.delivered with
  | false =>
    cases c <;> rfl
  | true =>
    rw [if_neg Bool.noConfusion]
    cases c with
    | mark p =>
      obtain ⟨-, -, -, hclaimedAt, -⟩ := hA
      dsimp only
      rw [claimed_mark s hclaimedAt key]
      by_cases hp : p.key = key
      · rw [hp, beq_self_eq_true]
        cases s.claimed key <;> rfl
      · rw [beq_eq_false_iff_ne.2 hp]
        simp
    | saveUser firebaseUid coins =>
      dsimp only [Store.setCoins]
      split <;> rfl
    | incCoins firebaseUid amount =>
      dsimp only [Store.setCoins]
      split <;> rfl
    | _ => rfl

theorem get_setCoins (s : Store) (uid : String) (f : ℤ → ℤ) (firebaseUid : String) :
    (s.setCoins uid f).users.get firebaseUid =
      if uid = firebaseUid then (s.users.get uid).map fun u => u.withCoins (f u.coins)
      else s.users.get firebaseUid := by
  unfold Store.setCoins
  split
  · rename_i u hu
    have hkey : (u.withCoins (f u.coins)).firebaseUid = uid := (Mongo.Unique.mem_of_get hu).2
    rw [Mongo.Unique.get_put, hkey, hu]
    rfl
  · rename_i hu
    split
    · rename_i heq
      rw [← heq, hu]
      rfl
    · rfl

theorem coins_exec (hA : Allows φ c) (hG : Saves (φ, ⟨s, c, r, c.exec r s⟩)) {firebaseUid : String}
    {u : User} (hu : s.users.get firebaseUid = some u) :
    ∃ u', (c.exec r s).users.get firebaseUid = some u' ∧
      u'.coins = u.coins + movement firebaseUid (φ, ⟨s, c, r, c.exec r s⟩) := by
  cases hr : r.delivered with
  | false =>
    have hexec : c.exec r s = s := if_pos hr
    refine ⟨u, by rw [hexec, hu], ?_⟩
    rw [movement, if_pos hr, add_zero]
  | true =>
    have hmovement : movement firebaseUid (φ, ⟨s, c, r, c.exec r s⟩) =
        match c with
        | .incCoins uid amount => if uid = firebaseUid then amount else 0
        | .saveUser uid _ => if uid = firebaseUid then (φ.rewardCoins : ℤ) else 0
        | _ => 0 := by
      rw [movement, if_neg (by rw [hr]; exact Bool.noConfusion)]
      cases c <;> rfl
    rw [hmovement]
    unfold Cmd.exec
    rw [if_neg (by rw [hr]; exact Bool.noConfusion)]
    cases c with
    | findUser | aggregatePaidCoins | findTransaction | insertTransaction =>
      exact ⟨u, hu, (add_zero _).symm⟩
    | mark p =>
      refine ⟨u, ?_, (add_zero _).symm⟩
      dsimp only [Store.mark]
      split
      · exact hu
      · split
        · exact hu
        · exact hu
    | incCoins uid amount =>
      dsimp only
      rw [get_setCoins]
      split
      · rename_i heq
        rw [heq, hu]
        exact ⟨_, rfl, rfl⟩
      · exact ⟨u, hu, (add_zero _).symm⟩
    | saveUser uid coins =>
      obtain ⟨-, -, v, key, rewardCoins, hv, hmarked, rfl, rfl⟩ := hA
      dsimp only
      rw [get_setCoins]
      split
      · rename_i heq
        have hread : u.coins = v.coins := hG hr v hv u (by rw [heq]; exact hu)
        rw [heq, hu]
        refine ⟨_, rfl, ?_⟩
        show v.coins + rewardCoins = u.coins + φ.rewardCoins
        rw [hread, Phase.rewardCoins, hmarked]
        rfl
      · exact ⟨u, hu, (add_zero _).symm⟩

/-! ### Runs -/

abbrev claiming (s : Store) (ms : List (Move Request Reply)) : Watched Phase Cmd Reply Store :=
  (Watched.start s).play Phase.next (fun _ => Phase.start) Cmd.exec program ms

structure Kept (s₀ : Store) (φs : List Phase) (l : List (Phase × Event Cmd Reply Store)) (s : Store) :
    Prop where
  marks : ∀ key, (s.claimed key).toNat = (s₀.claimed key).toNat + φs.countP (Phase.claims key)
  rows : ∀ key, rows l key = φs.countP (Phase.wrote key)
  credits : ∀ key, credits l key = φs.countP (Phase.credited key)

variable {l : List (Phase × Event Cmd Reply Store)}

theorem Kept.step {s₀ : Store} {φs : List Phase} {i : ℕ} (h : Kept s₀ φs l s)
    (hi : φs[i]? = some φ) (hA : Allows φ c) :
    Kept s₀ (φs.set i (φ.next c r s)) (l ++ [(φ, ⟨s, c, r, c.exec r s⟩)]) (c.exec r s) := by
  constructor
  · intro key
    have hcount := Pool.countP_phases_set (ψ := φ.next c r s) hi (Phase.claims key)
    have hnext := claims_next (r := r) (s := s) hA key (c.exec r s)
    have hexec := claimed_exec (r := r) (s := s) hA key (c.exec r s)
    have hmarks := h.marks key
    omega
  · intro key
    have hcount := Pool.countP_phases_set (ψ := φ.next c r s) hi (Phase.wrote key)
    have hnext := wrote_next (r := r) (s := s) hA key (c.exec r s)
    have hsnoc := countP_snoc l (φ, ⟨s, c, r, c.exec r s⟩) fun x => x.1.claims key && inserted x.2
    have hrows := h.rows key
    unfold CreatorTask.rows at hrows ⊢
    dsimp only at hsnoc
    omega
  · intro key
    have hcount := Pool.countP_phases_set (ψ := φ.next c r s) hi (Phase.credited key)
    have hnext := credited_next (r := r) (s := s) hA key (c.exec r s)
    have hsnoc := countP_snoc l (φ, ⟨s, c, r, c.exec r s⟩) fun x => x.1.claims key && saved x.2
    have hcredits := h.credits key
    unfold CreatorTask.credits at hcredits ⊢
    dsimp only at hsnoc
    omega

theorem Kept.spawn {s₀ : Store} {φs : List Phase} (h : Kept s₀ φs l s) :
    Kept s₀ (φs ++ [.start]) l s := by
  have hsame : ∀ P : Phase → Bool, P Phase.start = false →
      (φs ++ [Phase.start]).countP P = φs.countP P := by
    intro P hP
    rw [countP_snoc, hP]
    rfl
  constructor
  · intro key
    rw [hsame (Phase.claims key) rfl]
    exact h.marks key
  · intro key
    rw [hsame (Phase.wrote key) rfl]
    exact h.rows key
  · intro key
    rw [hsame (Phase.credited key) rfl]
    exact h.credits key

/-- What holds after a run. -/
structure RewardedOnce (s : Store) (ms : List (Move Request Reply)) : Prop where
  /-- No reward is paid twice. -/
  once : ∀ key, rows (claiming s ms).log key ≤ 1 ∧ credits (claiming s ms).log key ≤ 1
  /-- A reward that nobody has half claimed was marked, written and paid, or none of the three. -/
  together : ∀ key, s.claimed key = false →
    (∀ φ ∈ (claiming s ms).phases, φ.claims key = true → φ.rowed = true ∧ φ.paid = true) →
    ((claiming s ms).pool.store.claimed key = true ↔ rows (claiming s ms).log key = 1) ∧
      ((claiming s ms).pool.store.claimed key = true ↔ credits (claiming s ms).log key = 1)
  wallet : ∀ firebaseUid u, s.users.get firebaseUid = some u →
    ∃ u', (claiming s ms).pool.store.users.get firebaseUid = some u' ∧
      u'.coins = u.coins + moved firebaseUid (claiming s ms).log

/-- **A task reward is paid once a week**, and no movement of a wallet is lost, in every run whose saves
find the wallets as they were read. -/
theorem rewardedOnce_run (s : Store) (ms : List (Move Request Reply))
    (hG : ∀ x ∈ (claiming s ms).log, Saves x) : RewardedOnce s ms := by
  let J : List Phase → List (Phase × Event Cmd Reply Store) → Store → Prop := fun φs l t =>
    Kept s φs l t ∧ ∀ firebaseUid u, s.users.get firebaseUid = some u →
      ∃ u', t.users.get firebaseUid = some u' ∧ u'.coins = u.coins + moved firebaseUid l
  have h₀ : J [] [] s := by
    refine ⟨⟨fun _ => rfl, fun _ => rfl, fun _ => rfl⟩, fun firebaseUid u hu => ?_⟩
    exact ⟨u, hu, (add_zero _).symm⟩
  have hstep : ∀ φs l t (i : ℕ) φ c r, J φs l t → φs[i]? = some φ → Allows φ c →
      Saves (φ, ⟨t, c, r, Cmd.exec c r t⟩) →
      J (φs.set i (φ.next c r t)) (l ++ [(φ, ⟨t, c, r, Cmd.exec c r t⟩)]) (Cmd.exec c r t) := by
    intro φs l t i φ c r hJ hi hA hsave
    refine ⟨hJ.1.step hi hA, ?_⟩
    intro firebaseUid u hu
    obtain ⟨u', hu', hcoins⟩ := hJ.2 firebaseUid u hu
    obtain ⟨u'', hu'', hmoved⟩ := coins_exec hA hsave hu'
    refine ⟨u'', hu'', ?_⟩
    unfold moved at hcoins ⊢
    rw [List.map_append, List.sum_append, List.map_singleton, List.sum_singleton, hmoved, hcoins,
      add_assoc]
  obtain ⟨-, -, hkept, hwallet⟩ := Watched.play_phased J Saves program_follows h₀
    (fun _ _ _ _ hJ => ⟨hJ.1.spawn, hJ.2⟩) hstep ms hG
  have hle : ∀ key, (claiming s ms).phases.countP (Phase.claims key) ≤ 1 := by
    intro key
    have hmarks := hkept.marks key
    have hbool := Bool.toNat_le ((claiming s ms).pool.store.claimed key)
    exact (Nat.le_add_left _ _).trans (hmarks ▸ hbool)
  constructor
  · intro key
    have hwrote : (claiming s ms).phases.countP (Phase.wrote key) ≤
        (claiming s ms).phases.countP (Phase.claims key) :=
      List.countP_mono_left fun φ _ h => (Bool.and_eq_true _ _ ▸ h).1
    have hcredited : (claiming s ms).phases.countP (Phase.credited key) ≤
        (claiming s ms).phases.countP (Phase.claims key) :=
      List.countP_mono_left fun φ _ h => (Bool.and_eq_true _ _ ▸ h).1
    rw [hkept.rows key, hkept.credits key]
    exact ⟨hwrote.trans (hle key), hcredited.trans (hle key)⟩
  · intro key hs hdone
    have hwrote : (claiming s ms).phases.countP (Phase.wrote key) =
        (claiming s ms).phases.countP (Phase.claims key) := by
      apply List.countP_congr
      intro φ hφ
      rw [Phase.wrote, Bool.and_eq_true]
      exact ⟨fun h => h.1, fun h => ⟨h, (hdone φ hφ h).1⟩⟩
    have hcredited : (claiming s ms).phases.countP (Phase.credited key) =
        (claiming s ms).phases.countP (Phase.claims key) := by
      apply List.countP_congr
      intro φ hφ
      rw [Phase.credited, Bool.and_eq_true]
      exact ⟨fun h => h.1, fun h => ⟨h, (hdone φ hφ h).2⟩⟩
    have hmarks := hkept.marks key
    rw [hs] at hmarks
    rw [hkept.rows key, hkept.credits key, hwrote, hcredited]
    have hiff : (claiming s ms).pool.store.claimed key = true ↔
        (claiming s ms).phases.countP (Phase.claims key) = 1 := by
      rw [← Bool.toNat_eq_one, hmarks]
      simp
    exact ⟨hiff, hiff⟩
  · exact hwallet

/-! ### Fixed runs -/

instance : DecidablePred Saves := fun x => by
  unfold Saves
  cases x.2.cmd <;> infer_instance

def newCreator : Store :=
  ⟨Mongo.Unique.empty.insert ⟨⟨"65a000000000000000000001", by decide +kernel⟩, "creator", .creator, 0⟩,
    .empty, .empty⟩

def claimAt (now : ℤ) : Request := .claim ⟨"creator", "paid_coins_15000", now, now⟩

def steps (i n : ℕ) : List (Move Request Reply) := List.replicate n (.step i ⟨true, true, 500000⟩)

theorem rewardedOnce_claim :
    RewardedOnce newCreator
      (.spawn (claimAt 0) :: steps 0 3 ++ .spawn (claimAt 1000) :: steps 1 6 ++ steps 0 3 ++
        .spawn (.income "creator" 50) :: steps 2 1) :=
  rewardedOnce_run newCreator _ (by decide +kernel)

/-- An increment between the read and the save of a claim is lost; and a reward whose claim stops after
the mark is never paid, the retry being refused. -/
theorem reward_lost :
    let overwritten := claiming newCreator
      (.spawn (claimAt 0) :: steps 0 1 ++ .spawn (.income "creator" 50) :: steps 1 1 ++ steps 0 5)
    let stopped := claiming newCreator
      (.spawn (claimAt 0) :: steps 0 3 ++ .spawn (claimAt 1000) :: steps 1 3)
    (overwritten.pool.store.users.get "creator").map User.coins = some 100 ∧
      moved "creator" overwritten.log = 150 ∧
      stopped.pool.store.progress.rows.map (·.claimedAt) = [some 0] ∧
      stopped.pool.store.ledger.rows = [] ∧
      (stopped.pool.store.users.get "creator").map User.coins = some 0 ∧
      (stopped.pool.next? 1).isNone = true := by
  decide +kernel

end VibemeetBackend.CreatorTask
