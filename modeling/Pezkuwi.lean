import Pezkuwi.Storage.Map
import Pezkuwi.Storage.Vec
import Pezkuwi.Machine.Reach
import Pezkuwi.Machine.Log
import Pezkuwi.Arith.Bounded
import Pezkuwi.Frame.Assets
import Pezkuwi.Frame.Balances
import Pezkuwi.PezRewards.Model
import Pezkuwi.PezRewards.Epochs
import Pezkuwi.PezRewards.Claims
import Pezkuwi.PezRewards.Solvency
import Pezkuwi.Runtime.StakingImbalance
import Pezkuwi.Perwerde.Model
import Pezkuwi.Perwerde.Score
import Pezkuwi.Welati.Elections
import Pezkuwi.Welati.Tally
import Pezkuwi.Welati.Finalization
import Pezkuwi.Welati.Appointments
import Pezkuwi.Welati.Proposals
import Pezkuwi.PezTreasury.Model
import Pezkuwi.PezTreasury.Ledger
import Pezkuwi.Trust.Aggregate
import Pezkuwi.Trust.Batch
import Pezkuwi.StakingScore.Model
import Pezkuwi.TokenWrapper.Backing
import Pezkuwi.Tiki.Model
import Pezkuwi.Tiki.Registry
import Pezkuwi.Tiki.Ensure
import Pezkuwi.Tiki.Score
import Pezkuwi.Runtime.Citizenship
import Pezkuwi.Runtime.KycAgreement
import Pezkuwi.Runtime.TrustSources
import Pezkuwi.IdentityKyc.Deposits
import Pezkuwi.Referral.Model
import Pezkuwi.Runtime.Referrals
import Pezkuwi.ValidatorPool.Model
import Pezkuwi.ValidatorPool.Calls
import Pezkuwi.ValidatorPool.Selection
import Pezkuwi.ValidatorPool.Rotation
import Pezkuwi.ValidatorPool.Metrics
import Pezkuwi.ValidatorPool.Bookkeeping
import Pezkuwi.Runtime.ValidatorAdmission
import Pezkuwi.Storage.Index
import Pezkuwi.Session.Model
import Pezkuwi.Session.Keys
import Pezkuwi.Session.Pipeline
import Pezkuwi.Welati.Finality
import Pezkuwi.Welati.Officials
import Pezkuwi.Frame.Existence
import Pezkuwi.TokenWrapper.RoundTrip
import Pezkuwi.Runtime.CitizenMint
