import WalletConversion.Foundation.Claims
import WalletConversion.Guarantees.Accounts
import WalletConversion.Guarantees.Admission
import WalletConversion.Guarantees.Agreement
import WalletConversion.Guarantees.AmountTexts
import WalletConversion.Guarantees.Amounts
import WalletConversion.Guarantees.Atomicity
import WalletConversion.Guarantees.Conservation
import WalletConversion.Guarantees.Constraints
import WalletConversion.Guarantees.Counters
import WalletConversion.Guarantees.DeadLetters
import WalletConversion.Guarantees.Deadlocks
import WalletConversion.Guarantees.Deliveries
import WalletConversion.Guarantees.EndToEnd
import WalletConversion.Guarantees.ForeignEvents
import WalletConversion.Guarantees.FreeKeys
import WalletConversion.Guarantees.Idempotency
import WalletConversion.Guarantees.Lifecycle
import WalletConversion.Guarantees.Orders
import WalletConversion.Guarantees.Prices
import WalletConversion.Guarantees.Progress
import WalletConversion.Guarantees.Publishing
import WalletConversion.Guarantees.QuoteAnswers
import WalletConversion.Guarantees.Recovery
import WalletConversion.Guarantees.Refusals
import WalletConversion.Guarantees.Responses
import WalletConversion.Guarantees.Retention
import WalletConversion.Guarantees.RoundTrips
import WalletConversion.Guarantees.Seeding
import WalletConversion.Guarantees.Shutdown
import WalletConversion.Guarantees.Subscriptions
import WalletConversion.Guarantees.Value
import WalletConversion.Guarantees.Wallets
