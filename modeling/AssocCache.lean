import AssocCache.Block
import AssocCache.Action
import AssocCache.CacheSet
import AssocCache.CommandLine
import AssocCache.CommandLine.Directory
import AssocCache.CommandLine.Options
import AssocCache.Config
import AssocCache.Config.Reader
import AssocCache.Config.Validation
import AssocCache.Fault
import AssocCache.Geometry
import AssocCache.Hierarchy
import AssocCache.Json
import AssocCache.Json.Reader
import AssocCache.Json.Token
import AssocCache.Logged
import AssocCache.Main
import AssocCache.Numeral
import AssocCache.Trace
import AssocCache.Policy
import AssocCache.Policy.Any
import AssocCache.Policy.Stacking
import AssocCache.Policy.Counters
import AssocCache.Policy.Rereference
import AssocCache.Policy.Ranking
import AssocCache.Policy.Scripted
import AssocCache.Random
import AssocCache.Report
import AssocCache.Store
import AssocCache.Store.Build
import AssocCache.Text
import AssocCache.Text.Quoted
import AssocCache.Proofs.Policy.Tame
import AssocCache.Proofs.Config.Consistent
import AssocCache.Proofs.Geometry
import AssocCache.Proofs.CacheSet.WellFormed
import AssocCache.Proofs.CacheSet.Residence
import AssocCache.Proofs.Store.Cases
import AssocCache.Proofs.Store.WellFormed
import AssocCache.Proofs.Store.Run
import AssocCache.Proofs.Policy.Ranking
import AssocCache.Proofs.Policy.Predicting
import AssocCache.Proofs.Policy.Stacking
import AssocCache.Proofs.Policy.Any
import AssocCache.Proofs.Store.Service
import AssocCache.Proofs.Store.History
import AssocCache.Proofs.Hierarchy.Cases
import AssocCache.Proofs.Store.Dirty
import AssocCache.Proofs.Hierarchy.Run
import AssocCache.Proofs.Hierarchy.DirtyData
import AssocCache.Proofs.Action
import AssocCache.Proofs.Store.Accesses
import AssocCache.Proofs.Hierarchy.Visits
import AssocCache.Proofs.Hierarchy.Ledger
import AssocCache.Proofs.Hierarchy.Conservation
import AssocCache.Proofs.Hierarchy.Demands
import AssocCache.Proofs.Hierarchy.Upper
import AssocCache.Proofs.Coupled
import AssocCache.Proofs.Store.Paired
import AssocCache.Proofs.Policy.Stamps
import AssocCache.Proofs.Store.FullyAssociative
import AssocCache.Proofs.Store.Opened
import AssocCache.Proofs.CacheSet.Entries
import AssocCache.Proofs.RecencyLists.Trusting
import AssocCache.Proofs.Store.Listed
import AssocCache.Proofs.Store.Tracked
import AssocCache.Proofs.Store.LeastRecentlyUsed
import AssocCache.Proofs.Trace.Written
import AssocCache.Proofs.Hierarchy.WrittenTraces
import AssocCache.Proofs.RecencyLists
import AssocCache.Proofs.Store.Inclusion
import AssocCache.Proofs.Store.StackDistance
import AssocCache.Proofs.Policy.Agreeing
import AssocCache.Proofs.Policy.Local
import AssocCache.Proofs.Policy.Clocks
import AssocCache.Proofs.Store.Isolated
import AssocCache.Proofs.Store.Isolation
import AssocCache.Proofs.Store.Statistics
import AssocCache.Proofs.Store.StackPolicies
import AssocCache.Proofs.Policy.FrontMoving
import AssocCache.Proofs.Policy.Blind
import AssocCache.Proofs.Store.Placement
import AssocCache.Proofs.Hierarchy.TracesInPieces
import AssocCache.Proofs.Trace
import AssocCache.Proofs.Hierarchy.TouchedLines
import AssocCache.Proofs.Store.Refusals
import AssocCache.Proofs.Store.Turns
import AssocCache.Proofs.Policy.DramDistrust
import AssocCache.Proofs.Store.Predictions
import AssocCache.Proofs.Policy.Scanning
import AssocCache.Proofs.Store.HybridMemory
import AssocCache.Proofs.Store.ScanResistance
import AssocCache.Proofs.Store.UseCounts
import AssocCache.Proofs.Store.LongRuns
import AssocCache.Proofs.Store.Duel
import AssocCache.Proofs.Store.EvenDuel
import AssocCache.Proofs.Store.Distrusting
import AssocCache.Proofs.Numeral
import AssocCache.Proofs.Text
import AssocCache.Proofs.Trace.Parts
import AssocCache.Proofs.Trace.Grammar
import AssocCache.Proofs.Trace.PairTable
import AssocCache.Proofs.Store.Buildable
import AssocCache.Proofs.Policy.FillCounting
import AssocCache.Proofs.Store.FillCounts
import AssocCache.Proofs.CacheSet.StackMoves
import AssocCache.Proofs.Store.InsertionPositions
import AssocCache.Proofs.Store.RandomVictims
import AssocCache.Proofs.Store.IntervalCadence
