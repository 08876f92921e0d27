import VirtualInfra.Address
import VirtualInfra.Arguments
import VirtualInfra.Assignment
import VirtualInfra.Catalogue
import VirtualInfra.Catalogue.Document
import VirtualInfra.Catalogue.Error
import VirtualInfra.Catalogue.Record
import VirtualInfra.Command
import VirtualInfra.Command.Listing
import VirtualInfra.Command.Report
import VirtualInfra.Command.Run
import VirtualInfra.Compilation
import VirtualInfra.Defaults
import VirtualInfra.Discovery
import VirtualInfra.Disk
import VirtualInfra.Disk.Change
import VirtualInfra.Disk.Location
import VirtualInfra.Disk.Way
import VirtualInfra.Fault
import VirtualInfra.Host
import VirtualInfra.Json
import VirtualInfra.Json.Parser
import VirtualInfra.Json.Printer
import VirtualInfra.Json.Record
import VirtualInfra.Kdl
import VirtualInfra.Kdl.Parser
import VirtualInfra.Kdl.Scalar
import VirtualInfra.Kdl.Space
import VirtualInfra.Mac
import VirtualInfra.Machine.Assembly
import VirtualInfra.Machine.Live
import VirtualInfra.Machine.Spec
import VirtualInfra.Main
import VirtualInfra.Metadata
import VirtualInfra.Platform
import VirtualInfra.Platform.Memory
import VirtualInfra.Platform.OneNode
import VirtualInfra.Projection
import VirtualInfra.Rehearsal
import VirtualInfra.Request
import VirtualInfra.Request.Document
import VirtualInfra.Request.HintText
import VirtualInfra.Request.Options
import VirtualInfra.Resolution
import VirtualInfra.Resource
import VirtualInfra.RunStrategy
import VirtualInfra.Service
import VirtualInfra.Size
import VirtualInfra.Store
import VirtualInfra.Store.Problem
import VirtualInfra.Store.State
import VirtualInfra.Table
import VirtualInfra.Text.Blank
import VirtualInfra.Text.Numeral
import VirtualInfra.Text.Utf8
import VirtualInfra.Timestamp
import VirtualInfra.Undo.Log
import VirtualInfra.Undo.Report
import VirtualInfra.Uuid
import VirtualInfra.Yaml.Cursor
import VirtualInfra.Yaml.Node
import VirtualInfra.Yaml.Plain
import VirtualInfra.Yaml.Scalar
import VirtualInfra.Yaml.Token
import VirtualInfra.Yaml.Tree
import VirtualInfra.Proofs.Except
import VirtualInfra.Proofs.Act
import VirtualInfra.Proofs.Host
import VirtualInfra.Proofs.Fault
import VirtualInfra.Proofs.Table
import VirtualInfra.Proofs.Timestamp
import VirtualInfra.Proofs.Text.Numeral
import VirtualInfra.Proofs.Json.Strings
import VirtualInfra.Proofs.Json.Text
import VirtualInfra.Proofs.Json.Record
import VirtualInfra.Proofs.Machine.Assembly
import VirtualInfra.Proofs.Machine.Record
import VirtualInfra.Proofs.Catalogue
import VirtualInfra.Proofs.Resolution
import VirtualInfra.Proofs.Resolution.Decision
import VirtualInfra.Proofs.Compilation
import VirtualInfra.Proofs.Projection
import VirtualInfra.Proofs.Allocation
import VirtualInfra.Proofs.Arguments
import VirtualInfra.Proofs.Arguments.Reading
import VirtualInfra.Proofs.Disk
import VirtualInfra.Proofs.Store.Record
import VirtualInfra.Proofs.Store.Files
import VirtualInfra.Proofs.Store.Update
import VirtualInfra.Proofs.Platform.OneNode
import VirtualInfra.Proofs.Platform.Exclusion
import VirtualInfra.Proofs.Platform.View
import VirtualInfra.Proofs.Service
import VirtualInfra.Proofs.Tenancy
import VirtualInfra.Proofs.Disk.Effect
import VirtualInfra.Proofs.Store.Paths
import VirtualInfra.Proofs.Store.Lock
import VirtualInfra.Proofs.Store.Custody
import VirtualInfra.Proofs.Store.Save
import VirtualInfra.Proofs.Disk.Tree
import VirtualInfra.Proofs.Store.Crash
import VirtualInfra.Proofs.Store.Failure
import VirtualInfra.Proofs.Platform.Failure
import VirtualInfra.Proofs.Rollback
import VirtualInfra.Proofs.Resolution.Address
import VirtualInfra.Proofs.Store.RoundTrip
import VirtualInfra.Proofs.Platform.History
import VirtualInfra.Proofs.Catalogue.Acceptance
import VirtualInfra.Proofs.Platform.Agreement
import VirtualInfra.Proofs.Listing
import VirtualInfra.Proofs.Interference
import VirtualInfra.Proofs.Catalogue.Growth
import VirtualInfra.Proofs.Catalogue.Order
import VirtualInfra.Proofs.Cancellation
import VirtualInfra.Proofs.Store.Backup
import VirtualInfra.Proofs.Platform.Backup
import VirtualInfra.Proofs.Json.Beginning
import VirtualInfra.Proofs.Store.Abandonment
import VirtualInfra.Proofs.Text.Blank
import VirtualInfra.Proofs.Resolution.OwnId
import VirtualInfra.Proofs.Resolution.Indifference
import VirtualInfra.Proofs.Projection.Reconstruction
import VirtualInfra.Proofs.Text.Split
import VirtualInfra.Proofs.Volume.Pattern
import VirtualInfra.Proofs.Volume.Name
import VirtualInfra.Proofs.Machine.ObjectName
import VirtualInfra.Proofs.Kdl.Numeral
import VirtualInfra.Proofs.Size
import VirtualInfra.Proofs.Mac
import VirtualInfra.Proofs.Mac.Storage
import VirtualInfra.Proofs.Address
import VirtualInfra.Proofs.Exchange
import VirtualInfra.Proofs.Catalogue.Entries
import VirtualInfra.Proofs.Undo
import VirtualInfra.Proofs.Request.Order
import VirtualInfra.Proofs.Request.HintText
import VirtualInfra.Proofs.Request.Respacing
