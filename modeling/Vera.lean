import Vera.Tier.Backing
import Vera.Tier.CreditReset
import Vera.Tier.AutoLock
import Vera.Orbis.ReportFounded
import Vera.Tier.DeveloperRemoval
import Vera.Tier.CreditPromise
import Vera.App.ActingDID
import Vera.Core.Genesis
import Vera.Tier.StoreKeys
import Vera.Tier.GenesisRoundTrip
import Vera.Feegrant.Genesis
import Vera.Acp.Expiry
import Vera.Acp.PolicyScope
import Vera.Bulletin.Genesis
import Vera.Orbis.GenesisRoundTrip
import Vera.Acp.DecisionOrder
import Vera.Tier.CreditTiers
import Vera.Tier.LockAuto
import Vera.Tier.SubscriptionPeriod
import Vera.Feegrant.Periods
import Vera.Orbis.SignedBytes
import Vera.App.PriorityLane
import Vera.Tier.InsuranceCover
import Vera.App.Faucet
import Vera.Epochs.Abci
import Vera.Bulletin.Glob
