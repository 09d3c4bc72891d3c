import FarmBackend.AccountDeletion
import FarmBackend.AccountTakeover
import FarmBackend.Accounts
import FarmBackend.ActionMovements
import FarmBackend.ActionRequests
import FarmBackend.AgentCalls
import FarmBackend.AgentPayments
import FarmBackend.AgentRequests
import FarmBackend.AgentSteps
import FarmBackend.ApiKeys
import FarmBackend.ApiPayouts
import FarmBackend.Awaiting
import FarmBackend.Base64Url
import FarmBackend.Bcrypt
import FarmBackend.BusinessDrafts
import FarmBackend.BusinessEscrowFunding
import FarmBackend.BusinessReview
import FarmBackend.BusinessTeams
import FarmBackend.CacheCalls
import FarmBackend.CacheRuns
import FarmBackend.CapRuns
import FarmBackend.ChainCoverage
import FarmBackend.ChainCredits
import FarmBackend.ChainDeposits
import FarmBackend.ChainHoldings
import FarmBackend.ChainLegs
import FarmBackend.ChainOutbox
import FarmBackend.ChainProvisioning
import FarmBackend.ChainReconciliation
import FarmBackend.CheckoutOutcomes
import FarmBackend.Commerce
import FarmBackend.CommerceCalls
import FarmBackend.CommerceRuns
import FarmBackend.CommerceSteps
import FarmBackend.Conservation
import FarmBackend.CreditPending
import FarmBackend.CurrencyRates
import FarmBackend.DailySpending
import FarmBackend.DecidedPayouts
import FarmBackend.Decimal
import FarmBackend.DeliveryAttempts
import FarmBackend.DepositAgreement
import FarmBackend.DepositCalls
import FarmBackend.DepositCredits
import FarmBackend.DepositCursors
import FarmBackend.DepositOutcomes
import FarmBackend.DepositPolls
import FarmBackend.DepositReference
import FarmBackend.DepositRuns
import FarmBackend.DepositSettlement
import FarmBackend.DepositWorth
import FarmBackend.Deposits
import FarmBackend.DiditSignatures
import FarmBackend.DraftReview
import FarmBackend.Drafts
import FarmBackend.Escrow
import FarmBackend.EscrowConservation
import FarmBackend.EscrowLocks
import FarmBackend.EscrowRuns
import FarmBackend.EscrowSplits
import FarmBackend.ExchangeRates
import FarmBackend.FeeSplitting
import FarmBackend.Fees
import FarmBackend.FinalizeWithdrawal
import FarmBackend.FraudRisk
import FarmBackend.InsertionMap
import FarmBackend.IntentPayments
import FarmBackend.Interleaving
import FarmBackend.IpAddresses
import FarmBackend.IvorypayConfirmation
import FarmBackend.IvorypayCredits
import FarmBackend.IvorypayDeposits
import FarmBackend.IvorypayFinalisers
import FarmBackend.IvorypayJustification
import FarmBackend.IvorypayPayloads
import FarmBackend.IvorypaySignatures
import FarmBackend.IvorypayVerification
import FarmBackend.IvorypayWebhooks
import FarmBackend.JsonEquality
import FarmBackend.JsonObjects
import FarmBackend.JsonRoundtrip
import FarmBackend.JsonText
import FarmBackend.KenyanBanks
import FarmBackend.KeyRotations
import FarmBackend.KeyedTable
import FarmBackend.KycApprovals
import FarmBackend.KycStatuses
import FarmBackend.Leases
import FarmBackend.LegBookings
import FarmBackend.LegWorth
import FarmBackend.MandateCaps
import FarmBackend.MerchantPay
import FarmBackend.MerchantPayouts
import FarmBackend.MilestoneFees
import FarmBackend.Milestones
import FarmBackend.MoneyRequests
import FarmBackend.NfcPayments
import FarmBackend.NfcTokens
import FarmBackend.NfcTransfers
import FarmBackend.NowpaymentsDeposits
import FarmBackend.NowpaymentsInitialisation
import FarmBackend.OtpCodes
import FarmBackend.OutboxMirror
import FarmBackend.OutboxRuns
import FarmBackend.OutboxTransfers
import FarmBackend.OverlappingDebits
import FarmBackend.Paging
import FarmBackend.PaymentSlots
import FarmBackend.PayoutBacking
import FarmBackend.PayoutBudget
import FarmBackend.PayoutCalls
import FarmBackend.PayoutDecisions
import FarmBackend.PayoutKeys
import FarmBackend.PayoutLookup
import FarmBackend.PayoutOnce
import FarmBackend.Payouts
import FarmBackend.PaystackCalls
import FarmBackend.PaystackReports
import FarmBackend.PinAttempts
import FarmBackend.PlatformFees
import FarmBackend.ProcessWithdrawal
import FarmBackend.ProjectCalls
import FarmBackend.ProjectCancellations
import FarmBackend.ProjectExits
import FarmBackend.ProjectLifecycle
import FarmBackend.ProjectMilestones
import FarmBackend.ProjectPayouts
import FarmBackend.ProjectRefunds
import FarmBackend.ProjectReserve
import FarmBackend.ProjectRounds
import FarmBackend.ProjectSteps
import FarmBackend.Projects
import FarmBackend.QrCodes
import FarmBackend.QrPayments
import FarmBackend.QrSales
import FarmBackend.QrScans
import FarmBackend.Quota
import FarmBackend.ReconcileFailures
import FarmBackend.RedisLocks
import FarmBackend.RefreshTokens
import FarmBackend.RefundLocks
import FarmBackend.RefundShares
import FarmBackend.RefundTotals
import FarmBackend.Refunds
import FarmBackend.RequestClaims
import FarmBackend.ReservedFunds
import FarmBackend.ReservedLimits
import FarmBackend.ReservedLocks
import FarmBackend.Rows
import FarmBackend.SendFunds
import FarmBackend.Serial
import FarmBackend.SessionRevocation
import FarmBackend.Sessions
import FarmBackend.SpendCaps
import FarmBackend.StrandedMoney
import FarmBackend.TeamAdmins
import FarmBackend.TeamRoles
import FarmBackend.Ticket
import FarmBackend.TokenReplay
import FarmBackend.Tokenization
import FarmBackend.TravelBookings
import FarmBackend.TravelCancellations
import FarmBackend.TravelHolds
import FarmBackend.TravelRefunds
import FarmBackend.UrlGuards
import FarmBackend.Wallets
import FarmBackend.WebhookDeliveries
import FarmBackend.Windows
import FarmBackend.WithdrawCalls
import FarmBackend.Withdrawals
import FarmBackend.X402
import FarmBackend.X402Calls
import FarmBackend.X402Replays
import FarmBackend.X402Settlement
import FarmBackend.X402Units
import FarmBackend.X402Verify
