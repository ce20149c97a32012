import AvbEntity.Cache
import AvbEntity.Config.Basic
import AvbEntity.Config.Carrier
import AvbEntity.Config.Environment
import AvbEntity.Config.File
import AvbEntity.Config.Validation
import AvbEntity.Config.Value
import AvbEntity.Descriptor.Category
import AvbEntity.Descriptor.Models
import AvbEntity.Descriptor.StringReference
import AvbEntity.Descriptor.Type
import AvbEntity.Descriptor.Values
import AvbEntity.Entity.Basic
import AvbEntity.Entity.Learn
import AvbEntity.Entity.Mapping
import AvbEntity.Entity.Operation
import AvbEntity.Entity.Read
import AvbEntity.Entity.Update
import AvbEntity.Eui64
import AvbEntity.Flags
import AvbEntity.Graph.Basic
import AvbEntity.Graph.Redundancy
import AvbEntity.Graph.Visit
import AvbEntity.Identity
import AvbEntity.Json.Basic
import AvbEntity.Json.Form
import AvbEntity.Json.Lexer
import AvbEntity.Json.Parser
import AvbEntity.Json.Printer
import AvbEntity.Lock.Basic
import AvbEntity.Lock.Threads
import AvbEntity.Model.Basic
import AvbEntity.Model.Document
import AvbEntity.Model.Error
import AvbEntity.Ordered.Key
import AvbEntity.Ordered.Map
import AvbEntity.Ordered.Set
import AvbEntity.Proofs.Adoption.Acceptance
import AvbEntity.Proofs.Adoption.Carryover
import AvbEntity.Proofs.Adoption.Reuse
import AvbEntity.Proofs.Cache.Availability
import AvbEntity.Proofs.Cache.History
import AvbEntity.Proofs.Config.Carrier
import AvbEntity.Proofs.Config.Environment
import AvbEntity.Proofs.Config.Layering
import AvbEntity.Proofs.Config.Overlay
import AvbEntity.Proofs.Config.Saved
import AvbEntity.Proofs.Config.Setting
import AvbEntity.Proofs.Config.Variables
import AvbEntity.Proofs.Config.Written
import AvbEntity.Proofs.Descriptor.Flags
import AvbEntity.Proofs.Entity.Access
import AvbEntity.Proofs.Entity.Fatal
import AvbEntity.Proofs.Graph.CrossReference
import AvbEntity.Proofs.Graph.Grounding
import AvbEntity.Proofs.Graph.Rebuild
import AvbEntity.Proofs.Graph.Walk
import AvbEntity.Proofs.Json.Escape
import AvbEntity.Proofs.Json.RoundTrip
import AvbEntity.Proofs.Json.Text
import AvbEntity.Proofs.Lock.Nesting
import AvbEntity.Proofs.Mapping.Cluster
import AvbEntity.Proofs.Mapping.DynamicMap
import AvbEntity.Proofs.Mapping.Input
import AvbEntity.Proofs.Mapping.Output
import AvbEntity.Proofs.Mapping.Removal
import AvbEntity.Proofs.Model.ActiveConfiguration
import AvbEntity.Proofs.Model.Document
import AvbEntity.Proofs.Model.Each
import AvbEntity.Proofs.Model.Edit
import AvbEntity.Proofs.Model.Learned
import AvbEntity.Proofs.Model.Place
import AvbEntity.Proofs.Model.ResponseOrder
import AvbEntity.Proofs.Model.StreamFormat
import AvbEntity.Proofs.Model.Upsert
import AvbEntity.Proofs.Query.Backoff
import AvbEntity.Proofs.Query.Outstanding
import AvbEntity.Proofs.Query.Packing
import AvbEntity.Proofs.Query.Schedule
import AvbEntity.Proofs.Redundancy.Association
import AvbEntity.Proofs.Redundancy.Conflict
import AvbEntity.Proofs.Redundancy.Grouping
import AvbEntity.Proofs.Redundancy.Issues
import AvbEntity.Proofs.Redundancy.Reciprocal
import AvbEntity.Proofs.Shared.Access
import AvbEntity.Proofs.Statistics.ResponseTime
import AvbEntity.Proofs.Strings.Readings
import AvbEntity.Proofs.Strings.Selection
import AvbEntity.Proofs.Strings.Table
import AvbEntity.Proofs.Time.Timestamp
import AvbEntity.Proofs.Toml.Names
import AvbEntity.Proofs.Toml.RoundTrip
import AvbEntity.Proofs.Toml.Sections
import AvbEntity.Query.Key
import AvbEntity.Query.Kind
import AvbEntity.Query.Pending
import AvbEntity.Query.Retry
import AvbEntity.Query.Table
import AvbEntity.Settings
import AvbEntity.Shared
import AvbEntity.Statistics
import AvbEntity.Text.Blank
import AvbEntity.Text.Digits
import AvbEntity.Text.Items
import AvbEntity.Text.Quoted
import AvbEntity.Time.Date
import AvbEntity.Time.Duration
import AvbEntity.Time.Timestamp
import AvbEntity.Toml.DateTime
import AvbEntity.Toml.Document
import AvbEntity.Toml.Scalar
import AvbEntity.Toml.Tree
import AvbEntity.Toml.Writer
