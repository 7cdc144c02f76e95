import ProviderOwned.Client.Placement
import ProviderOwned.Client.PrepareChat
import ProviderOwned.Client.RingTarget
import ProviderOwned.Coordinator.Completion
import ProviderOwned.Coordinator.Equivalence
import ProviderOwned.Coordinator.QueueFair
import ProviderOwned.Gateway.Deltas
import ProviderOwned.Gateway.Local
import ProviderOwned.Gateway.Resume
import ProviderOwned.Owner.Cancel
import ProviderOwned.Owner.Inbox
import ProviderOwned.Owner.Accounted
import ProviderOwned.Owner.Upgrade
import ProviderOwned.Planner.Cached
import ProviderOwned.Planner.Header
import ProviderOwned.Planner.IndexFile
import ProviderOwned.Planner.Memory
import ProviderOwned.Planner.Optimum
import ProviderOwned.Planner.Pool
import ProviderOwned.Planner.Recovered
import ProviderOwned.Planner.Selection
import ProviderOwned.Sidecar.Gather
import ProviderOwned.Stage.Deferral
import ProviderOwned.Stage.LoopServed
import ProviderOwned.Stage.Table
import ProviderOwned.Wire.Framing
import ProviderOwned.Worker.Greeting
import ProviderOwned.Worker.Reservation
import ProviderOwned.Worker.Serving
import ProviderOwned.Worker.Speeds
