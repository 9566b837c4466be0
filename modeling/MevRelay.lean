import MevRelay.Relay.Authenticity
import MevRelay.Relay.Delivery
import MevRelay.Relay.Races
import MevRelay.Relay.Registrations
import MevRelay.Relay.Auction
import MevRelay.Relay.Redemption
import MevRelay.Relay.Confidentiality
import MevRelay.Relay.Answers
import MevRelay.Relay.Admission
import MevRelay.Relay.Payment
import MevRelay.Relay.Unblinding
import MevRelay.Relay.Headers
import MevRelay.Relay.Proposers
import MevRelay.Relay.Refreshes
import MevRelay.Relay.Coverage
import MevRelay.Relay.Rejections
import MevRelay.Relay.Filtering
import MevRelay.Relay.Copies
import MevRelay.Relay.Keys
import MevRelay.Relay.Startup
import MevRelay.Relay.Polling
import MevRelay.Relay.Timestamps
import MevRelay.Relay.MinedBlocks
import MevRelay.Relay.Queries
import MevRelay.Relay.BlockNumbers
import MevRelay.Grpc.Lengths
import MevRelay.Primitives.Encoding
import MevRelay.Primitives.Signatures
import MevRelay.Relay.Progress
import MevRelay.Relay.Commitments
import MevRelay.Primitives.Blocks
import MevRelay.Relay.Interchange
import MevRelay.Relay.Isolation
import MevRelay.Relay.Launch
import MevRelay.Relay.Wire
import MevRelay.Relay.Publications
