import Coordination.Access
import Coordination.Credential.Session
import Coordination.Main
import Coordination.World
import Coordination.Proofs.Access.AddressPlan
import Coordination.Proofs.Authority.Dispatch
import Coordination.Proofs.Authority.Connection
import Coordination.Proofs.Host.Lifecycle
import Coordination.Proofs.Host.Stop
import Coordination.Proofs.Host.Listening
import Coordination.Proofs.World.Roster
import Coordination.Proofs.World.Batches
import Coordination.Proofs.Registry.Assignments
import Coordination.Proofs.Registry.Reconcile
import Coordination.Proofs.Registry.Registration
import Coordination.Proofs.Records.Canonical
import Coordination.Proofs.Host.Exchange
import Coordination.Proofs.Topic.Routing
import Coordination.Proofs.Credential.Sealing
import Coordination.Proofs.Bus.Queues
import Coordination.Proofs.Credential.Delivery
import Coordination.Proofs.Host.Impersonation
import Coordination.Proofs.Topic.Subjects
import Coordination.Proofs.Bus.Delivery
import Coordination.Proofs.Credential.Asking
import Coordination.Proofs.Access.Monotone
import Coordination.Proofs.Host.Removal
import Coordination.Proofs.Bus.Lifetime
import Coordination.Proofs.Records.UniqueNames
import Coordination.Proofs.Registry.Additions
import Coordination.Proofs.Registry.Instances
import Coordination.Proofs.Host.Attempts
import Coordination.Proofs.Discovery.Search
import Coordination.Proofs.Authority.Overlap
import Coordination.Proofs.Topic.Addresses
import Coordination.Proofs.Credential.ExchangeForm
import Coordination.Proofs.Clock.Calls
import Coordination.Proofs.Event.Embedding
import Coordination.Proofs.Backoff.Doubling
import Coordination.Proofs.Topic.Escapes
