import Fog05.Conc.Prog
import Fog05.Conc.View
import Fog05.Conc.Post
import Fog05.Conc.Solo
import Fog05.Conc.Discipline
import Fog05.Conc.Pool
import Fog05.Conc.Sole
import Fog05.Conc.Ledger
import Fog05.Conc.Mutex
import Fog05.Conc.RwLock
import Fog05.Conc.Serial
import Fog05.Conc.Simulation
import Fog05.Conc.Talk
import Fog05.Conc.Poll
import Fog05.Conc.Duty
import Fog05.Conc.Table
import Fog05.Conc.Roster
import Fog05.Conc.Frame
import Fog05.Conc.Template
import Fog05.Conc.Codec
import Fog05.Model.Im
import Fog05.Model.Store
import Fog05.Model.Command
import Fog05.Model.Hypervisor
import Fog05.Model.NetworkServer
import Fog05.Model.Node
import Fog05.Model.Agent
import Fog05.Model.System
import Fog05.Model.Registry
import Fog05.Model.Client
import Fog05.Model.Zenoh
import Fog05.Model.Connector
import Fog05.Model.Serializers
import Fog05.Model.Types
import Fog05.Model.Network
import Fog05.Model.Host
import Fog05.Model.Call
import Fog05.Model.Subscription
import Fog05.Model.Main
import Fog05.Model.Deployment
import Fog05.Model.Processes
import Fog05.Proofs.Follows
import Fog05.Proofs.Footprint
import Fog05.Proofs.Steps
import Fog05.Proofs.Plugin
import Fog05.Proofs.Lifecycle
import Fog05.Proofs.Boot
import Fog05.Proofs.Locking
import Fog05.Proofs.Guards
import Fog05.Proofs.Custody
import Fog05.Proofs.Requests
import Fog05.Proofs.Standing
import Fog05.Proofs.Turns
import Fog05.Proofs.Crossing
import Fog05.Proofs.Tenure
import Fog05.Proofs.Refinement
import Fog05.Proofs.Remote
import Fog05.Proofs.Entity
import Fog05.Proofs.Scheduling
import Fog05.Proofs.Unscheduling
import Fog05.Proofs.Independence
import Fog05.Proofs.Location
import Fog05.Proofs.Offloading
import Fog05.Proofs.Failure
import Fog05.Proofs.Holding
import Fog05.Proofs.Resurrection
import Fog05.Proofs.Catalog
import Fog05.Proofs.Registry
import Fog05.Proofs.Trail
import Fog05.Proofs.Deletion
import Fog05.Proofs.Instantiation
import Fog05.Proofs.KeySpace
import Fog05.Proofs.Serving
import Fog05.Proofs.Shelf
import Fog05.Proofs.Stocks
import Fog05.Proofs.RecordStore
import Fog05.Proofs.Provenance
import Fog05.Proofs.Identity
import Fog05.Proofs.OnZenoh
import Fog05.Proofs.Handling
import Fog05.Proofs.Polling
import Fog05.Proofs.Compatibility
import Fog05.Proofs.Placement
import Fog05.Proofs.Subscription
import Fog05.Proofs.Onboarding
import Fog05.Proofs.Status
import Fog05.Proofs.Shutdown
import Fog05.Proofs.Course
import Fog05.Proofs.Forward
import Fog05.Proofs.Dismantling
import Fog05.Proofs.Retry
import Fog05.Proofs.Network
import Fog05.Proofs.Host
import Fog05.Proofs.Bookkeeping
import Fog05.Proofs.Pairing
import Fog05.Proofs.Leaks
