import LinkStateFabric.Lib.Sorting
import LinkStateFabric.Lib.Index
import LinkStateFabric.Lib.Codec
import LinkStateFabric.Lib.Delimited
import LinkStateFabric.Lib.Sha256
import LinkStateFabric.Lib.Run
import LinkStateFabric.Lib.Registry
import LinkStateFabric.Lib.Ring
import LinkStateFabric.Lib.Maps
import LinkStateFabric.Lib.Calls
import LinkStateFabric.Lib.Overlay
import LinkStateFabric.Lib.Recent
import LinkStateFabric.Lib.Replace
import LinkStateFabric.Text
import LinkStateFabric.Ids
import LinkStateFabric.State
import LinkStateFabric.Digest
import LinkStateFabric.Evidence
import LinkStateFabric.Record
import LinkStateFabric.Config
import LinkStateFabric.Resolution
import LinkStateFabric.Engine.Store
import LinkStateFabric.Engine.Support
import LinkStateFabric.Engine.Topology
import LinkStateFabric.Engine.Publishers
import LinkStateFabric.Engine.Publish
import LinkStateFabric.Engine.Queries
import LinkStateFabric.Engine.Explain
import LinkStateFabric.Journal.Encode
import LinkStateFabric.Preimages
import LinkStateFabric.Journal.Decode
import LinkStateFabric.Engine.Persistence
import LinkStateFabric.Engine.Run
import LinkStateFabric.ResolutionLemmas
import LinkStateFabric.Engine.EditLemmas
import LinkStateFabric.Engine.Counters
import LinkStateFabric.Engine.Steps
import LinkStateFabric.Engine.Frames
import LinkStateFabric.Engine.Conclusions
import LinkStateFabric.Engine.Turns
import LinkStateFabric.Engine.Moves
import LinkStateFabric.Engine.Indexed
import LinkStateFabric.Journal.Decoded
import LinkStateFabric.Journal.Refusals
import LinkStateFabric.Engine.Recovery
import LinkStateFabric.Engine.Fencing
import LinkStateFabric.Engine.Dispositions
import LinkStateFabric.Results.Indexes
import LinkStateFabric.Results.Topology
import LinkStateFabric.Results.SourceGenerations
import LinkStateFabric.Results.Authority
import LinkStateFabric.Results.FencedBoots
import LinkStateFabric.Results.Coherence
import LinkStateFabric.Engine.Restored
import LinkStateFabric.Engine.Board
import LinkStateFabric.Engine.Outcomes
import LinkStateFabric.Engine.Shelf
import LinkStateFabric.Engine.Details
import LinkStateFabric.Engine.Publications
import LinkStateFabric.Journal.RoundTrip
import LinkStateFabric.Journal.Sizes
import LinkStateFabric.Protocol.Message
import LinkStateFabric.Protocol.RoundTrip
import LinkStateFabric.Protocol.Frame
import LinkStateFabric.Protocol.Serve
import LinkStateFabric.Protocol.Server
import LinkStateFabric.Protocol.Exchanges
import LinkStateFabric.Protocol.Registrations
import LinkStateFabric.Protocol.Departures
import LinkStateFabric.Protocol.Shutdown
import LinkStateFabric.Protocol.Client
import LinkStateFabric.Protocol.Transact
import LinkStateFabric.Protocol.Network
import LinkStateFabric.Host
import LinkStateFabric.Results.Generations
import LinkStateFabric.Engine.Sessions
import LinkStateFabric.Results.Retirement
import LinkStateFabric.Results.Queries
import LinkStateFabric.Results.Reboots
import LinkStateFabric.Results.Recoveries
import LinkStateFabric.Results.Registries
import LinkStateFabric.Results.Unknown
import LinkStateFabric.Results.Intent
import LinkStateFabric.Results.Journals
import LinkStateFabric.Results.Messages
import LinkStateFabric.Results.Frames
import LinkStateFabric.Results.Requests
import LinkStateFabric.Results.Replies
import LinkStateFabric.Results.Snapshots
import LinkStateFabric.Results.Replay
import LinkStateFabric.Results.Withdrawals
import LinkStateFabric.Results.Orders
import LinkStateFabric.Results.Atomicity
import LinkStateFabric.Results.DurableChanges
import LinkStateFabric.Results.Incarnations
import LinkStateFabric.Results.Ownership
import LinkStateFabric.Results.Disconnects
import LinkStateFabric.Results.Checkpoints
import LinkStateFabric.Results.Tiers
import LinkStateFabric.Results.Calls
import LinkStateFabric.Results.Causes
import LinkStateFabric.Results.Histories
import LinkStateFabric.Results.Bounds
import LinkStateFabric.Results.Restarts
import LinkStateFabric.Results.Retention
import LinkStateFabric.Results.Explanations
import LinkStateFabric.Results.BlastRadius
import LinkStateFabric.Results.Board
import LinkStateFabric.Results.Scopes
import LinkStateFabric.Results.Bookkeeping
import LinkStateFabric.Results.Transparency
import LinkStateFabric.Results.Shutdowns
import LinkStateFabric.Results.LostUpdates
import LinkStateFabric.Results.Reloads
import LinkStateFabric.Results.Replacements
import LinkStateFabric.Results.Faithfulness
import LinkStateFabric.Results.Reasons
import LinkStateFabric.Results.Bindings
import LinkStateFabric.Results.Statistics
import LinkStateFabric.Results.RoundTrips
import LinkStateFabric.Results.EpochAdvances
import LinkStateFabric.Results.Texts
import LinkStateFabric.Results.Streaming
import LinkStateFabric.Results.Digests
import LinkStateFabric.Results.FrameLimits
import LinkStateFabric.Results.HostEvidence
import LinkStateFabric.Results.HostOrder
import LinkStateFabric.Results.Handshakes
import LinkStateFabric.Results.Reads
