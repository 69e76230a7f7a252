import Polyadic.Main
import Polyadic.Session.Trace
import Polyadic.Text.Braces
import Polyadic.Text.LineDiff
import Polyadic.Text.Utf8
import Polyadic.Proofs.Session.Outcome
import Polyadic.Proofs.Session.Writing
import Polyadic.Proofs.Session.Run
import Polyadic.Proofs.Session.Regions
import Polyadic.Proofs.Session.Consistency
import Polyadic.Proofs.Session.Stranding
import Polyadic.Proofs.Session.Printing
import Polyadic.Proofs.Template.Pieces
import Polyadic.Proofs.Template.DepthFirst
import Polyadic.Proofs.Template.Reachability
import Polyadic.Proofs.Template.Resolved
import Polyadic.Proofs.Template.Calls
import Polyadic.Proofs.Except
import Polyadic.Proofs.Manifest.Accepted
import Polyadic.Proofs.Catalogue.Identifiers
import Polyadic.Proofs.Session.Layout
import Polyadic.Proofs.Template.Supported
import Polyadic.Proofs.Session.Tidy
import Polyadic.Proofs.Catalogue.Tidy
import Polyadic.Proofs.Generator.Preview
import Polyadic.Proofs.Path.Segments
import Polyadic.Proofs.Disk.Files
import Polyadic.Proofs.Manifest.Paths
import Polyadic.Proofs.Text.LineFeeds
import Polyadic.Proofs.Session.Lines
import Polyadic.Proofs.Generator.Passes
import Polyadic.Proofs.Generator.Generate
import Polyadic.Proofs.Disk.Fresh
import Polyadic.Proofs.Generator.Fresh
import Polyadic.Proofs.Catalogue.Distinct
import Polyadic.Proofs.Session.Apart
import Polyadic.Proofs.Session.Scoping
import Polyadic.Proofs.Session.Reuse
import Polyadic.Proofs.Session.Capacity
import Polyadic.Proofs.Session.Stopping
import Polyadic.Proofs.Session.Balance
import Polyadic.Proofs.Catalogue.Emission
import Polyadic.Proofs.Disk.Removal
import Polyadic.Proofs.Generator.Failure
import Polyadic.Proofs.Manifest.Demands
import Polyadic.Proofs.Text.Lines
import Polyadic.Proofs.Manifest.Search
import Polyadic.Proofs.Toml.Reading
import Polyadic.Proofs.Toml.Tables
import Polyadic.Proofs.Toml.Statements
import Polyadic.Proofs.Toml.Documents
import Polyadic.Proofs.Manifest.Decoding
import Polyadic.Proofs.Manifest.Places
import Polyadic.Proofs.Manifest.Shown
import Polyadic.Proofs.Disk.Passing
import Polyadic.Proofs.Template.Extension
import Polyadic.Proofs.Template.Merging
import Polyadic.Proofs.CommandLine.Requests
import Polyadic.Proofs.CommandLine.DryRun
import Polyadic.Proofs.Disk.Detours
import Polyadic.Proofs.CommandLine.Keeping
import Polyadic.Proofs.Catalogue.Bindings
import Polyadic.Proofs.Generator.Ranges
import Polyadic.Proofs.Text.Differences
import Polyadic.Proofs.Manifest.Spans
import Polyadic.Proofs.Naming.Recasing
