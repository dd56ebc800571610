import Grandine.Duration
import Grandine.Phase
import Grandine.TimingMetrics
import Grandine.TimingMetrics.Statistics
import Grandine.BlockProcessor
import Grandine.BlockProcessor.Cache
import Grandine.BlockProcessor.Metrics
import Grandine.BlockProcessor.Validate
import Grandine.Eth1Api
import Grandine.Eth1Api.Concurrent
import Grandine.Eth1Api.Deposits
import Grandine.Eth1Api.Engine
import Grandine.Eth1Api.Trace
