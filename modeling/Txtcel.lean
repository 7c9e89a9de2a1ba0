import Txtcel.Lib.Exec
import Txtcel.Lib.Borsh
import Txtcel.Lib.Runs
import Txtcel.Lib.Interleave
import Txtcel.Lib.Counting
import Txtcel.Lib.Lookup
import Txtcel.Solana
import Txtcel.Effects
import Txtcel.State.Constants
import Txtcel.State.Accounts
import Txtcel.State.Pda
import Txtcel.State.AccountUtils
import Txtcel.State.Fees
import Txtcel.State.Loaders
import Txtcel.Processor.Platform
import Txtcel.Processor.Threads
import Txtcel.Processor.Access
import Txtcel.Processor.Content
import Txtcel.Processor.Follows
import Txtcel.Spec.Cells
import Txtcel.Spec.Platform
import Txtcel.Spec.Flows
import Txtcel.Spec.Threads
import Txtcel.Spec.Access
import Txtcel.Spec.Content
import Txtcel.Spec.Likes
import Txtcel.Spec.Follows
import Txtcel.Program
import Txtcel.System.Acts
import Txtcel.System.Changes
import Txtcel.System.Footprint
import Txtcel.System.Unnamed
import Txtcel.System.Machine
import Txtcel.System.Invariants
import Txtcel.System.Charge
import Txtcel.System.Addresses
import Txtcel.System.Deployment
import Txtcel.Properties.Store
import Txtcel.Properties.Authority
import Txtcel.Properties.Funds
import Txtcel.System.AccessMap
import Txtcel.Properties.AccessList
import Txtcel.Spec.Denied
import Txtcel.Properties.Gating
import Txtcel.Properties.Chain
import Txtcel.Properties.Messages
import Txtcel.Properties.Revenue
import Txtcel.Properties.PostCharge
import Txtcel.Properties.Rates
import Txtcel.Properties.Encoding
import Txtcel.Properties.Derivations
import Txtcel.Properties.Prefunding
import Txtcel.Properties.Isolation
import Txtcel.Properties.FirstFree
import Txtcel.Properties.Chunks
import Txtcel.Properties.Sweeps
import Txtcel.Properties.RentExempt
import Txtcel.Lib.Since
import Txtcel.Properties.Likes
import Txtcel.System.FollowMap
import Txtcel.System.TwoRuns
import Txtcel.System.Apart
import Txtcel.Spec.Success
import Txtcel.Spec.Wallet
import Txtcel.Spec.Candidates
import Txtcel.Properties.Followers
import Txtcel.System.Rewritten
import Txtcel.System.Delta
import Txtcel.Properties.PostDelta
import Txtcel.Properties.PageDelta
import Txtcel.Properties.AnyOrder
import Txtcel.Lib.BorshEnum
import Txtcel.Entrypoint
import Txtcel.Forum.Origins
import Txtcel.Properties.Bodies
import Txtcel.Lib.Wp
import Txtcel.Spec.Progress
import Txtcel.Forum.Granted
