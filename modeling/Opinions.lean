import Opinions.Compliance.Commit
import Opinions.Compliance.DepositLimit
import Opinions.Compliance.Identity
import Opinions.Compliance.Phone
import Opinions.Config.Control
import Opinions.Config.Reconcile
import Opinions.Config.Revert
import Opinions.Content.Publisher
import Opinions.Deposit.Reevaluate
import Opinions.Domain.Fairness
import Opinions.Domain.LedgerHistory
import Opinions.Domain.Quotes
import Opinions.Domain.Reputation
import Opinions.Domain.RoundTrip
import Opinions.Fence.Linear
import Opinions.Integrity.Truth
import Opinions.Money.Aml
import Opinions.Money.NonLanding
import Opinions.Money.Signing
import Opinions.Money.WithinCaps
import Opinions.Notify.Lossless
import Opinions.Notify.Mentions
import Opinions.Ops.Alerts
import Opinions.Ops.Caps
import Opinions.Ops.Debts
import Opinions.Ops.Jobs
import Opinions.Rail.Retry
import Opinions.Resolve.Stranded
import Opinions.Trade.Liquidity
import Opinions.Trade.Position
import Opinions.Unwind.Exact
import Opinions.Vote.Admission
