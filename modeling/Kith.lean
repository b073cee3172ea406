import Kith.Coord.Cluster
import Kith.Fabric.Notify
import Kith.Coord.Epochs
import Kith.Sim.Errors
import Kith.Sim.Physics
import Kith.Reactor.Registry
import Kith.Reactor.Polls
import Kith.Reactor.TaskQueue
import Kith.Reactor.Timers
import Kith.Control.Delivery
import Kith.Control.HttpMessage
import Kith.Aoi.Queries
import Kith.Net.Fifo
import Kith.Net.Rejections
import Kith.Server.Agreement
import Kith.Gateway.Broadcast
import Kith.Gateway.Staging
import Kith.Gateway.References
import Kith.Gateway.Identity
import Kith.Gateway.Scratch
import Kith.Gateway.Executor
import Kith.Gateway.BatchFrames
import Kith.Gateway.Scoring
import Kith.Gateway.Rotation
import Kith.Server.CoordDrain
import Kith.Metrics.Identity
import Kith.Metrics.Otlp
import Kith.Control.Handlers
import Kith.Util.Rng
import Kith.Agent.Spread
import Kith.Net.Output
