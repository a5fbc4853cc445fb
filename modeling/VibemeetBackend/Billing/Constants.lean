import VibemeetBackend.Numbers

/-!
# Billing constants and coin conversions

`billing.constants.ts`.  Amounts of money inside a call are integer micros of a coin; wallets and
`CoinTransaction` rows hold whole coins.  A settlement rounds the user's debit up and the creator's
credit down.
-/

namespace VibemeetBackend.Billing

/-- `COIN_MICROS`. -/
def coinMicros : ℤ := 1000000

/-- `BILLING_SESSION_SCHEMA_VERSION`. -/
def billingSessionSchemaVersion : ℤ := 4

/-- `MIN_BILLING_DELTA_MS`. -/
def minBillingDeltaMs : ℤ := 50

/-- `LEGACY_EARNINGS_MICRO_FACTOR`. -/
def legacyEarningsMicroFactor : ℤ := 10000

/-- `SETTLEMENT_TXN_MAX_ATTEMPTS`. -/
def settlementTxnMaxAttempts : ℕ := 3

def microsToUserDebitWholeCoins (micros : ℤ) : ℕ :=
  if micros ≤ 0 then 0 else ((micros + (coinMicros - 1)) / coinMicros).toNat

def microsToCreatorCreditWholeCoins (micros : ℤ) : ℕ :=
  if micros ≤ 0 then 0 else (micros / coinMicros).toNat

def coinsWholeToMicros (coins : ℤ) : ℤ := coins * coinMicros

theorem userDebit_mono {a b : ℤ} (h : a ≤ b) :
    microsToUserDebitWholeCoins a ≤ microsToUserDebitWholeCoins b := by
  unfold microsToUserDebitWholeCoins coinMicros
  split <;> split <;> omega

theorem creatorCredit_mono {a b : ℤ} (h : a ≤ b) :
    microsToCreatorCreditWholeCoins a ≤ microsToCreatorCreditWholeCoins b := by
  unfold microsToCreatorCreditWholeCoins coinMicros
  split <;> split <;> omega

theorem userDebit_pos {a : ℤ} (h : 0 < a) : 0 < microsToUserDebitWholeCoins a := by
  unfold microsToUserDebitWholeCoins coinMicros
  rw [if_neg (by omega)]
  omega

end VibemeetBackend.Billing
