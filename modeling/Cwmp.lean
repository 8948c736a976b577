import Cwmp.Alias
import Cwmp.Command.Basic
import Cwmp.Command.Context
import Cwmp.Command.Documents
import Cwmp.Command.Error
import Cwmp.Command.Line
import Cwmp.Command.Run
import Cwmp.Command.Schema
import Cwmp.Command.SettingsFile
import Cwmp.Doc.Basic
import Cwmp.Doc.Faults
import Cwmp.Doc.Identity
import Cwmp.Doc.Plain
import Cwmp.Doc.Structure
import Cwmp.Entity.Basic
import Cwmp.Entity.Codec
import Cwmp.Entity.Write
import Cwmp.Fault
import Cwmp.Files.Directory
import Cwmp.Files.FileTree
import Cwmp.Files.Path
import Cwmp.Files.Surroundings
import Cwmp.InstanceNumber
import Cwmp.Json.Read
import Cwmp.Json.Token
import Cwmp.Json.Write
import Cwmp.Listing.Grid
import Cwmp.Listing.Report
import Cwmp.Main
import Cwmp.Match.Criterion
import Cwmp.ModelError
import Cwmp.Net.Ipv4
import Cwmp.Net.Mac
import Cwmp.Net.Octets
import Cwmp.Notification
import Cwmp.ObjectKind
import Cwmp.Objects.AudioOutput
import Cwmp.Objects.ConditionalPool
import Cwmp.Objects.Dhcp
import Cwmp.Objects.Firewall
import Cwmp.Objects.IpInterface
import Cwmp.Objects.Mqtt
import Cwmp.Objects.PortMapping
import Cwmp.Objects.Status
import Cwmp.Options
import Cwmp.Schema.Field
import Cwmp.Schema.Kind
import Cwmp.Schema.Shape
import Cwmp.Schema.Value
import Cwmp.Schema.Vocabulary
import Cwmp.Settings.Basic
import Cwmp.Settings.Environment
import Cwmp.Shared
import Cwmp.Watch
import Cwmp.Table.AliasIndex
import Cwmp.Table.Basic
import Cwmp.Table.Change
import Cwmp.Table.Codec
import Cwmp.Table.Collection
import Cwmp.Table.Ranking
import Cwmp.Table.Rows
import Cwmp.Table.Unique
import Cwmp.Text.Blank
import Cwmp.Text.CodePoints
import Cwmp.Text.Columns
import Cwmp.Text.CommaList
import Cwmp.Text.Decimal
import Cwmp.Text.Hex
import Cwmp.Text.Quoted
import Cwmp.Text.Real
import Cwmp.Time.Calendar
import Cwmp.Time.Instant
import Cwmp.Time.Rfc3339
import Cwmp.Toml.Basic
import Cwmp.Toml.Read
import Cwmp.Toml.Scalar
import Cwmp.Yaml.Read
import Cwmp.Yaml.Scalar
import Cwmp.Yaml.Write
import Cwmp.Proofs.Answers
import Cwmp.Proofs.Entity.Stored
import Cwmp.Proofs.Table.Rows
import Cwmp.Proofs.Entity.Request
import Cwmp.Proofs.Table.Operations
import Cwmp.Proofs.Table.Reranked
import Cwmp.Proofs.Table.Aliases
import Cwmp.Proofs.Table.Violations
import Cwmp.Proofs.Table.ListMoves
import Cwmp.Proofs.Table.RankMoves
import Cwmp.Proofs.Text.Decimal
import Cwmp.Proofs.Text.CommaList
import Cwmp.Proofs.Net.Addresses
import Cwmp.Proofs.Time.Calendar
import Cwmp.Proofs.Time.Rfc3339
import Cwmp.Proofs.Schema.RoundTrip
import Cwmp.Proofs.Entity.Loads
import Cwmp.Proofs.Entity.Nested
import Cwmp.Proofs.Entity.Regular
import Cwmp.Proofs.Entity.Same
import Cwmp.Proofs.Table.Nested
import Cwmp.Proofs.Objects.Regular
import Cwmp.Proofs.Entity.ParameterMap
import Cwmp.Proofs.Table.InstanceNumbers
import Cwmp.Proofs.Table.Controller
import Cwmp.Proofs.Table.Alike
import Cwmp.Proofs.Table.RankAlike
import Cwmp.Proofs.Table.Reload
import Cwmp.Proofs.Entity.FieldFaults
import Cwmp.Proofs.Table.FieldFaults
import Cwmp.Proofs.Table.DeviceAliases
import Cwmp.Proofs.Shared.History
import Cwmp.Proofs.Files.Directory
import Cwmp.Proofs.Json.Tokens
import Cwmp.Proofs.Json.RoundTrip
import Cwmp.Proofs.Entity.Tidy
import Cwmp.Proofs.Table.Tidy
import Cwmp.Proofs.Table.Collections
import Cwmp.Proofs.Command.Actions
import Cwmp.Proofs.Command.Documents
import Cwmp.Proofs.Entity.Secrets
import Cwmp.Proofs.Table.Related
import Cwmp.Proofs.Table.Secrets
import Cwmp.Proofs.Objects.Members
import Cwmp.Proofs.Entity.Encodings
import Cwmp.Proofs.Command.Untouched
import Cwmp.Proofs.Table.Numbering
import Cwmp.Proofs.Command.Numbers
import Cwmp.Proofs.Entity.Batch
import Cwmp.Proofs.Table.FirstMatch
import Cwmp.Proofs.Match.Exclusion
import Cwmp.Proofs.Table.DeviceWrites
import Cwmp.Proofs.Entity.FaultOrder
import Cwmp.Proofs.Time.Years
import Cwmp.Proofs.Schema.WrittenBack
import Cwmp.Proofs.Entity.Resent
import Cwmp.Proofs.Table.Removals
import Cwmp.Proofs.Table.Purging
import Cwmp.Proofs.Table.Reports
import Cwmp.Proofs.Command.Findings
import Cwmp.Proofs.Match.Pools
import Cwmp.Proofs.Table.Endless
import Cwmp.Proofs.Table.Commuting
import Cwmp.Proofs.Notification
import Cwmp.Proofs.Entity.ListTexts
import Cwmp.Proofs.Entity.Storable
import Cwmp.Proofs.Table.AliasSearch
import Cwmp.Proofs.Table.Paths
import Cwmp.Proofs.Command.Addressing
import Cwmp.Proofs.Net.Octets
import Cwmp.Proofs.Net.MacGrammar
import Cwmp.Proofs.Entity.MacTexts
