import EdgeWait.Switchboard
import EdgeWait.SharedBench
import EdgeWait.Sim.Run
import EdgeWait.Config.Load
import EdgeWait.Json.Codec
import EdgeWait.Proofs.Pool
import EdgeWait.Proofs.Roster
import EdgeWait.Proofs.Batches
import EdgeWait.Proofs.Registering
import EdgeWait.Proofs.Ending
import EdgeWait.Proofs.Operations
import EdgeWait.Proofs.Reach
import EdgeWait.Proofs.Ownership
import EdgeWait.Proofs.FailFast
import EdgeWait.Proofs.Lifecycle
import EdgeWait.Proofs.Subscribers
import EdgeWait.Proofs.Issuing
import EdgeWait.Proofs.Reporting
import EdgeWait.Proofs.Unbatched
import EdgeWait.Proofs.Mirroring
import EdgeWait.Proofs.Transparency
import EdgeWait.Proofs.Custody
import EdgeWait.Proofs.Conservation
import EdgeWait.Proofs.Statistics
import EdgeWait.Proofs.Causality
import EdgeWait.Proofs.Hosting
import EdgeWait.Proofs.Ledger
import EdgeWait.Proofs.Traces
import EdgeWait.Proofs.Coherence
import EdgeWait.Proofs.Sharing
import EdgeWait.Proofs.Grounding
import EdgeWait.Proofs.Coexistence
import EdgeWait.Proofs.Wakeups
import EdgeWait.Proofs.Likeness
import EdgeWait.Proofs.Accord
import EdgeWait.Proofs.Lockstep
import EdgeWait.Proofs.Driving
import EdgeWait.Proofs.Requests
import EdgeWait.Proofs.Indifference
import EdgeWait.Proofs.Stopping
import EdgeWait.Proofs.Flushing
import EdgeWait.Proofs.Replay
import EdgeWait.Proofs.Firing
import EdgeWait.Proofs.Sparing
import EdgeWait.Proofs.Cancelling
import EdgeWait.Proofs.Allotment
import EdgeWait.Proofs.Draining
import EdgeWait.Proofs.Halting
import EdgeWait.Proofs.Recycling
import EdgeWait.Proofs.Splitting
import EdgeWait.Proofs.Frugality
import EdgeWait.Proofs.Immediacy
import EdgeWait.Proofs.Clocking
import EdgeWait.Proofs.Attending
import EdgeWait.Proofs.Ticking
import EdgeWait.Proofs.Clockwork
import EdgeWait.Proofs.Overflow
import EdgeWait.Proofs.Acceptance
import EdgeWait.Proofs.Storage
import EdgeWait.Proofs.HighWater
