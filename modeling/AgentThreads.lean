import AgentThreads.Grouping.Log
import AgentThreads.Main
import AgentThreads.Proofs.Grouping.Coverage
import AgentThreads.Proofs.Grouping.StreamOrder
import AgentThreads.Proofs.Grouping.Extension
import AgentThreads.Proofs.Grouping.FirstFit
import AgentThreads.Proofs.Grouping.Thresholds
import AgentThreads.Proofs.Grouping.Pairing
import AgentThreads.Proofs.Grouping.Interleaving
import AgentThreads.Proofs.Grouping.Skeleton
import AgentThreads.Proofs.Grouping.Renaming
import AgentThreads.Proofs.Grouping.Contents
import AgentThreads.Proofs.Grouping.Insertion
import AgentThreads.Proofs.Grouping.Appending
import AgentThreads.Proofs.Grouping.Depth
import AgentThreads.Proofs.Grouping.Spawns
import AgentThreads.Proofs.Grouping.NextFit
import AgentThreads.Proofs.Grouping.Log
import AgentThreads.Proofs.Json.RoundTrip
import AgentThreads.Proofs.Time.Timestamps
import AgentThreads.Proofs.Event.RoundTrip
import AgentThreads.Proofs.Session.RoundTrip
import AgentThreads.Proofs.Report.RoundTrip
import AgentThreads.Proofs.Report.Exposure
import AgentThreads.Proofs.Report.Repeats
import AgentThreads.Proofs.Report.Polls
import AgentThreads.Proofs.Command.Outcome
import AgentThreads.Proofs.Event.MetadataView
import AgentThreads.Proofs.Session.Lines
import AgentThreads.Proofs.Files.Path
import AgentThreads.Proofs.Files.Tree
import AgentThreads.Proofs.Files.Discovery
import AgentThreads.Proofs.Files.Loading
import AgentThreads.Proofs.Grouping.ResultIndex
import AgentThreads.Proofs.Grouping.Summary
import AgentThreads.Proofs.Settings
