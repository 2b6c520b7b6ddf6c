import Lodestar.Routing.PrefillCost
import Lodestar.Gateway.Phases
import Lodestar.Gateway.Inflight
import Lodestar.Gateway.Release
import Lodestar.Gateway.Counting
import Lodestar.Cache.RequestCounts
import Lodestar.Routing.Drain
import Lodestar.Routing.Window
import Lodestar.Indexer.BlockChains
import Lodestar.Routing.Flush
import Lodestar.Agent.Reload
import Lodestar.Agent.NewBatch
import Lodestar.Agent.Normalizer
import Lodestar.Agent.TrainingRoutine
import Lodestar.Agent.RWLock
import Lodestar.Utils.Registry
import Lodestar.Cache.Informers
import Lodestar.Gateway.Limits
import Lodestar.Gateway.Charges
import Lodestar.Gateway.SplitBodies
import Lodestar.Cache.TraceExact
import Lodestar.Utils.Mooncake
import Lodestar.Utils.LMetric
import Lodestar.Controller.Rolling
import Lodestar.Controller.Recreate
import Lodestar.Controller.Expectations
import Lodestar.ModelAdapter.Lifecycle
import Lodestar.Gateway.PrefixChoice
import Lodestar.Agent.PrefixGroups
import Lodestar.Agent.Rounds
import Lodestar.Autoscaler.Apa
import Lodestar.Utils.PodArray
import Lodestar.Indexer.LastAccess
import Lodestar.Batch.Storage
import Lodestar.GpuOptimizer.Signature
