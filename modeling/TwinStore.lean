import TwinStore.Cache.OnDemand
import TwinStore.Cache.Stores
import TwinStore.Cache.Tier
import TwinStore.Converge.Entries
import TwinStore.Converge.Items
import TwinStore.Converge.Members
import TwinStore.Converge.Run
import TwinStore.Failover.Engine
import TwinStore.Failover.Health
import TwinStore.Failover.Queues
import TwinStore.Failover.Stores
import TwinStore.Memory.EntryMap
import TwinStore.Memory.MemberMap
import TwinStore.Notify
import TwinStore.Program.Action
import TwinStore.Program.Backend
import TwinStore.Program.Contract
import TwinStore.Program.Request
import TwinStore.Proofs.Agreement
import TwinStore.Proofs.Answers
import TwinStore.Proofs.Apart
import TwinStore.Proofs.BaseCrossings
import TwinStore.Proofs.CacheDeadlines
import TwinStore.Proofs.CacheHits
import TwinStore.Proofs.CachedMaps
import TwinStore.Proofs.CachedSets
import TwinStore.Proofs.Conservation
import TwinStore.Proofs.Convergence
import TwinStore.Proofs.Counting
import TwinStore.Proofs.Crossings
import TwinStore.Proofs.Delivery
import TwinStore.Proofs.Durability
import TwinStore.Proofs.Exchanges
import TwinStore.Proofs.FailedInsertions
import TwinStore.Proofs.Fetching
import TwinStore.Proofs.Following
import TwinStore.Proofs.Handles
import TwinStore.Proofs.Interleaving
import TwinStore.Proofs.LazyEviction
import TwinStore.Proofs.Marked
import TwinStore.Proofs.Moments
import TwinStore.Proofs.OnDemandSets
import TwinStore.Proofs.OutageWrites
import TwinStore.Proofs.Outages
import TwinStore.Proofs.Overwrites
import TwinStore.Proofs.PairedMaps
import TwinStore.Proofs.PairedQueues
import TwinStore.Proofs.PairedSetMaps
import TwinStore.Proofs.PairedSets
import TwinStore.Proofs.PartialSeeds
import TwinStore.Proofs.Permits
import TwinStore.Proofs.PromptStores
import TwinStore.Proofs.QueueTransfers
import TwinStore.Proofs.ReadingBack
import TwinStore.Proofs.Refreshing
import TwinStore.Proofs.Regime
import TwinStore.Proofs.Reliable
import TwinStore.Proofs.Replay
import TwinStore.Proofs.Reporting
import TwinStore.Proofs.Responses
import TwinStore.Proofs.Scene
import TwinStore.Proofs.Scheduling
import TwinStore.Proofs.ScopeRaces
import TwinStore.Proofs.ScopeRecords
import TwinStore.Proofs.ScopeRetries
import TwinStore.Proofs.ScopeUses
import TwinStore.Proofs.Scopes
import TwinStore.Proofs.SetUses
import TwinStore.Proofs.SlidingDeadlines
import TwinStore.Proofs.StaleHeads
import TwinStore.Proofs.Stands
import TwinStore.Proofs.Stops
import TwinStore.Proofs.Tiers
import TwinStore.Proofs.Turns
import TwinStore.Proofs.View
import TwinStore.Scope
import TwinStore.Script.Object
import TwinStore.Script.Plan
import TwinStore.Script.Registry
import TwinStore.Script.Session
import TwinStore.Script.Step
import TwinStore.Script.Trace
import TwinStore.Script.Verb
import TwinStore.Settings
import TwinStore.Store.Error
import TwinStore.Store.Key
import TwinStore.Store.Measure
import TwinStore.Text.Codec
import TwinStore.Text.Decimal
import TwinStore.Text.Json
import TwinStore.Text.Quoted
import TwinStore.Text.SettingsText
import TwinStore.World.Answer
import TwinStore.World.Fault
import TwinStore.World.Schedule
import TwinStore.World.State
