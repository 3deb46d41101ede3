import DatagramTunnel.Decimal.Shortest
import DatagramTunnel.Flight.RoundTrip
import DatagramTunnel.Flight.SendQueue
import DatagramTunnel.Network.Exchange
import DatagramTunnel.Packet.Fragmentation
import DatagramTunnel.Packet.Inlet
import DatagramTunnel.Session.Keepalive
import DatagramTunnel.Session.Operation
import DatagramTunnel.Session.Pipes
import DatagramTunnel.Tunnel.Simulation
import DatagramTunnel.Wire.Parser
import DatagramTunnel.Proofs.Packet.Pieces
import DatagramTunnel.Proofs.Packet.Reassembly
import DatagramTunnel.Proofs.Wire.Reading
import DatagramTunnel.Proofs.Flight.Outstanding
import DatagramTunnel.Proofs.Packet.Ordering
import DatagramTunnel.Proofs.Session.Conduct
import DatagramTunnel.Proofs.Session.Outcome
import DatagramTunnel.Proofs.Session.Sending
import DatagramTunnel.Proofs.Session.Receiving
import DatagramTunnel.Proofs.Network.Path
import DatagramTunnel.Proofs.Network.Retention
import DatagramTunnel.Proofs.Session.Delivering
import DatagramTunnel.Proofs.Network.Delivery
import DatagramTunnel.Proofs.Network.Progress
import DatagramTunnel.Proofs.Flight.Pipeline
import DatagramTunnel.Proofs.Packet.Consignment
import DatagramTunnel.Proofs.Session.Streaming
import DatagramTunnel.Proofs.Network.Lockstep
import DatagramTunnel.Proofs.Session.Opening
import DatagramTunnel.Proofs.Network.Joining
import DatagramTunnel.Proofs.Network.Completion
import DatagramTunnel.Proofs.Packet.Arrival
import DatagramTunnel.Proofs.Session.Acts
import DatagramTunnel.Proofs.Session.Lifecycle
import DatagramTunnel.Proofs.Packet.Sizes
import DatagramTunnel.Proofs.Session.PathLimit
import DatagramTunnel.Proofs.Session.Liveness
import DatagramTunnel.Proofs.Wire.Canonical
import DatagramTunnel.Proofs.Flight.Occupancy
import DatagramTunnel.Proofs.Session.Congestion
import DatagramTunnel.Proofs.Packet.Releases
import DatagramTunnel.Proofs.Session.History
import DatagramTunnel.Proofs.Session.Acknowledging
import DatagramTunnel.Proofs.Packet.Limits
import DatagramTunnel.Proofs.Session.PacketLimit
import DatagramTunnel.Proofs.Flight.Workload
import DatagramTunnel.Proofs.Session.Effort
import DatagramTunnel.Proofs.Network.Quiescence
import DatagramTunnel.Proofs.Session.Greeting
import DatagramTunnel.Proofs.Session.Pacing
import DatagramTunnel.Proofs.Network.Agreement
import DatagramTunnel.Proofs.Network.Rescue
import DatagramTunnel.Proofs.Packet.Places
import DatagramTunnel.Proofs.Session.Comparison
import DatagramTunnel.Proofs.Session.Timing
import DatagramTunnel.Proofs.Session.Ledger
import DatagramTunnel.Proofs.Session.Likeness
import DatagramTunnel.Proofs.Session.Isolation
import DatagramTunnel.Proofs.Packet.Grammar
import DatagramTunnel.Proofs.Packet.Recovery
import DatagramTunnel.Proofs.Packet.Accounting
import DatagramTunnel.Proofs.Tunnel.Fidelity
import DatagramTunnel.Proofs.Packet.Stepwise
import DatagramTunnel.Proofs.Flight.Manifest
import DatagramTunnel.Proofs.Wire.Faults
import DatagramTunnel.Proofs.Packet.Custody
import DatagramTunnel.Proofs.Session.Threshold
import DatagramTunnel.Proofs.Session.Repeats
import DatagramTunnel.Proofs.Session.Indifference
import DatagramTunnel.Proofs.Session.Refusal
import DatagramTunnel.Proofs.Session.Vigil
import DatagramTunnel.Proofs.Tunnel.Inbound
import DatagramTunnel.Proofs.Flight.Averages
import DatagramTunnel.Proofs.Flight.Bookkeeping
