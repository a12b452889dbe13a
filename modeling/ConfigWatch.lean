import ConfigWatch.CommandLine.Launch
import ConfigWatch.CommandLine.Report
import ConfigWatch.Feed.Sight
import ConfigWatch.Main
import ConfigWatch.Manager.Exchange
import ConfigWatch.Manager.Response
import ConfigWatch.Session.Script
import ConfigWatch.Store.Typed
import ConfigWatch.Proofs.Numeral
import ConfigWatch.Proofs.Rule
import ConfigWatch.Proofs.Rule.Decision
import ConfigWatch.Proofs.Rule.Items
import ConfigWatch.Proofs.Rule.RoundTrip
import ConfigWatch.Proofs.Rule.Extension
import ConfigWatch.Proofs.Document
import ConfigWatch.Proofs.Document.Grammar
import ConfigWatch.Proofs.Document.Seam
import ConfigWatch.Proofs.Store
import ConfigWatch.Proofs.Replica.Run
import ConfigWatch.Proofs.Replica.Transparency
import ConfigWatch.Proofs.Replica.Replay
import ConfigWatch.Proofs.Replica.Isolation
import ConfigWatch.Proofs.Replica.Staleness
import ConfigWatch.Proofs.Replica.Merge
import ConfigWatch.Proofs.Session.Course
import ConfigWatch.Proofs.Session.Delivery
import ConfigWatch.Proofs.Session.Tally
import ConfigWatch.Proofs.Backoff
import ConfigWatch.Proofs.Session.Reconnect
import ConfigWatch.Proofs.Client
import ConfigWatch.Proofs.Session.Essence
import ConfigWatch.Proofs.Session.Rounds
import ConfigWatch.Proofs.Session.Metrics
import ConfigWatch.Proofs.Feed.File
import ConfigWatch.Proofs.CommandLine.Report
import ConfigWatch.Proofs.Url.Encode
import ConfigWatch.Proofs.Url.Reference
import ConfigWatch.Proofs.Url.Path
import ConfigWatch.Proofs.Url.Host
import ConfigWatch.Proofs.Manager.Lookup
import ConfigWatch.Proofs.Manager.Scheme
import ConfigWatch.Proofs.Backoff.Growth
import ConfigWatch.Proofs.Settings
import ConfigWatch.Proofs.Replica.Naming
import ConfigWatch.Proofs.Rule.Polynomial
import ConfigWatch.Proofs.Replica.Integer
