import RegionNet.Aggregation
import RegionNet.Attribute
import RegionNet.CommandLine
import RegionNet.Configuration
import RegionNet.Configuration.Document
import RegionNet.Configuration.Draft
import RegionNet.Configuration.Duration
import RegionNet.Configuration.Load
import RegionNet.Configuration.Text
import RegionNet.Decimal.Nearest
import RegionNet.Decimal.Numeral
import RegionNet.Decimal.Shortest
import RegionNet.FilePath
import RegionNet.Files
import RegionNet.Files.Tree
import RegionNet.Fleet
import RegionNet.Graph
import RegionNet.Graph.RegionViews
import RegionNet.Heartbeat
import RegionNet.Json
import RegionNet.Json.Decoding
import RegionNet.Json.Printer
import RegionNet.Json.Reader
import RegionNet.Main
import RegionNet.Name
import RegionNet.Network
import RegionNet.Network.Address
import RegionNet.Network.Bench
import RegionNet.Network.Exchange
import RegionNet.Network.Fabric
import RegionNet.Network.Message
import RegionNet.Network.Registry
import RegionNet.Network.StandIn
import RegionNet.Node.Basic
import RegionNet.Node.Call
import RegionNet.Node.Stepper
import RegionNet.Node.Thread
import RegionNet.Proofs.SortedMap.Addition
import RegionNet.Proofs.SortedMap.Lookup
import RegionNet.Report.Basic
import RegionNet.Report.Document
import RegionNet.Report.Summary
import RegionNet.Resource.Manager
import RegionNet.Resource.Section
import RegionNet.Scenario
import RegionNet.Scenario.Play
import RegionNet.Simulation
import RegionNet.SortedMap
import RegionNet.SortedMap.Sum
import RegionNet.Text.Blank
import RegionNet.Text.DecimalDigit
import RegionNet.Text.Numeral
import RegionNet.Text.Pieces
import RegionNet.Topology
import RegionNet.Topology.Bandwidth
import RegionNet.Topology.Directory
import RegionNet.Topology.Error
import RegionNet.Topology.Statement
import RegionNet.Vertex
import RegionNet.Vertex.Document
import RegionNet.Yaml
import RegionNet.Yaml.Cursor
import RegionNet.Yaml.Directive
import RegionNet.Yaml.Event
import RegionNet.Yaml.Scalar
import RegionNet.Yaml.Tag
import RegionNet.Yaml.Token
import RegionNet.Yaml.Token.Basic
import RegionNet.Yaml.Token.State
import RegionNet.Proofs.Report.Merging
import RegionNet.Proofs.Aggregation.Reduction
import RegionNet.Proofs.Aggregation.Grouping
import RegionNet.Proofs.Aggregation.Splits
import RegionNet.Proofs.Text.Words
import RegionNet.Proofs.Topology.Reading
import RegionNet.Proofs.Topology.Wiring
import RegionNet.Proofs.Topology.Description
import RegionNet.Proofs.Graph.Summaries
import RegionNet.Proofs.Scenario.Schedule
import RegionNet.Proofs.Node.Calls
import RegionNet.Proofs.Node.HookRuns
import RegionNet.Proofs.Resource.Containers
import RegionNet.Proofs.Node.Caching
import RegionNet.Proofs.Node.ReportRegion
import RegionNet.Proofs.Graph.RegionViews
import RegionNet.Proofs.Scenario.Views
import RegionNet.Proofs.Network.Codec
import RegionNet.Proofs.Network.Operations
import RegionNet.Proofs.Network.Visibility
import RegionNet.Proofs.Node.Sharing
import RegionNet.Proofs.Network.Genuine
import RegionNet.Proofs.Fleet.Deeds
import RegionNet.Proofs.Fleet.Sharing
import RegionNet.Proofs.Node.Failures
import RegionNet.Proofs.Scenario.Parts
import RegionNet.Proofs.Fleet.Histories
import RegionNet.Proofs.Scenario.Outcome
import RegionNet.Proofs.Report.Paths
import RegionNet.Proofs.SortedMap.Rekeying
import RegionNet.Proofs.Resource.Report
import RegionNet.Proofs.Topology.Bandwidth
import RegionNet.Proofs.Topology.Editing
import RegionNet.Proofs.Network.Resolution
import RegionNet.Proofs.Network.Registration
import RegionNet.Proofs.Network.Homes
import RegionNet.Proofs.Configuration.Paths
import RegionNet.Proofs.Node.Chronicle
import RegionNet.Proofs.Node.Trace
import RegionNet.Proofs.Scenario.Startup
import RegionNet.Proofs.Documents
import RegionNet.Proofs.Topology.SetPattern
import RegionNet.Proofs.Topology.BandwidthPattern
