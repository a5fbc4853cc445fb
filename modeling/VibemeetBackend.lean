import VibemeetBackend.Payment.CreditOnce
import VibemeetBackend.Payment.BothRows
import VibemeetBackend.Payment.SweepReach
import VibemeetBackend.Payment.WebhookRetry
import VibemeetBackend.Billing.SettleRetry
import VibemeetBackend.Billing.RuntimeOwnership
import VibemeetBackend.Billing.SettleWallets
import VibemeetBackend.Settlement.Absorbing
import VibemeetBackend.Settlement.Fencing
import VibemeetBackend.Creator.DebitedOnce
import VibemeetBackend.Balance.Repair
import VibemeetBackend.Rewards.CreditedOnce
import VibemeetBackend.Rewards.AllOrNothing
import VibemeetBackend.EndedCall.Resurrection
import VibemeetBackend.Async.Lease
import VibemeetBackend.Locks
import VibemeetBackend.ActiveCall.OneLive
import VibemeetBackend.Video.LiveSlots
import VibemeetBackend.Video.SettledFlag
import VibemeetBackend.Video.WebhookOrder
import VibemeetBackend.Billing.Rebill
import VibemeetBackend.ActiveCall.Residue
import VibemeetBackend.Billing.DurationLimit
import VibemeetBackend.Membership.Entitlement
import VibemeetBackend.Membership.FinalizedOnce
import VibemeetBackend.Membership.Soundness
import VibemeetBackend.Presence.Connected
import VibemeetBackend.Presence.Versions
import VibemeetBackend.CreatorReferral.PaidOnce
import VibemeetBackend.Staff.EventsCovered
import VibemeetBackend.Staff.WalletBalance
import VibemeetBackend.Checkin.OncePerDay
import VibemeetBackend.Onboarding.ForwardOnly
import VibemeetBackend.Vip.Fifo
import VibemeetBackend.CreatorTask.RewardedOnce
import VibemeetBackend.Outbox.Projected
import VibemeetBackend.BillingQueue.ChainKept
import VibemeetBackend.Chat.PaidFor
import VibemeetBackend.Telegram.GrantedOnce
import VibemeetBackend.StaffWallets.TwoLedgers
import VibemeetBackend.Billing.MergedTotals
import VibemeetBackend.Moments.PopularFeed
import VibemeetBackend.Moments.FollowingFeed
import VibemeetBackend.Moments.Comments
import VibemeetBackend.Moments.Counters
import VibemeetBackend.Referral.Apply
import VibemeetBackend.Refund.RefundedOnce
import VibemeetBackend.Billing.WallTime
import VibemeetBackend.Billing.CreatorShare
import VibemeetBackend.Billing.Flush
import VibemeetBackend.MomentPurchase.LedgerExact
import VibemeetBackend.UploadReward.PaidOnce
import VibemeetBackend.FreePreview.Cache
import VibemeetBackend.FreePreview.LimitKept
import VibemeetBackend.Availability.CountedOnce
import VibemeetBackend.Transfer.RewardFollows
import VibemeetBackend.Promotion.Agreement
import VibemeetBackend.Moments.LockShown
import VibemeetBackend.Gallery.Reorder
import VibemeetBackend.FeedRank.Agreement
import VibemeetBackend.Breaker.Protection
import VibemeetBackend.Breaker.RedisFallback
import VibemeetBackend.RateLimit.LockOut
import VibemeetBackend.Telegram.LinkToken
import VibemeetBackend.Payment.CheckoutSuccess
import VibemeetBackend.Images.CommitOrCleanup
import VibemeetBackend.Payment.ReturnOnSite
import VibemeetBackend.Creator.OneActive
import VibemeetBackend.Calendar.DateKeys
import VibemeetBackend.Calendar.OnlineSeconds
import VibemeetBackend.Collected.Scan
import VibemeetBackend.Collected.BackfillComplete
import VibemeetBackend.Scheduling.StaysCancelled
import VibemeetBackend.VideoUpload.UsedOnce
import VibemeetBackend.MomentUpload.LeavesNothing
