import Crosswalk.Command.Arguments
import Crosswalk.Command.Basic
import Crosswalk.Command.Folder
import Crosswalk.Command.Run
import Crosswalk.Decimal.Notation
import Crosswalk.Decimal.Reading
import Crosswalk.Decimal.Shortest
import Crosswalk.Document.Content
import Crosswalk.Document.FileName
import Crosswalk.Document.Format
import Crosswalk.Document.Reading
import Crosswalk.Document.Scalar
import Crosswalk.Fields
import Crosswalk.Json.Data
import Crosswalk.Json.Fault
import Crosswalk.Json.Forms
import Crosswalk.Json.Reader
import Crosswalk.Json.Scan
import Crosswalk.Json.Skip
import Crosswalk.Json.Text
import Crosswalk.Json.Value
import Crosswalk.Main
import Crosswalk.Mapping.Basic
import Crosswalk.Mapping.Form
import Crosswalk.Mapping.Rule
import Crosswalk.Markup.CharacterData
import Crosswalk.Markup.Document
import Crosswalk.Markup.Escape
import Crosswalk.Markup.Fault
import Crosswalk.Markup.Name
import Crosswalk.Markup.Node
import Crosswalk.Markup.Part
import Crosswalk.Markup.Tag
import Crosswalk.Path.FieldPath
import Crosswalk.Path.Filter
import Crosswalk.Path.Segment
import Crosswalk.Path.Splice
import Crosswalk.Path.Split
import Crosswalk.Preview.Basic
import Crosswalk.Preview.Finding
import Crosswalk.Preview.Writing
import Crosswalk.Proofs.Mapping.Store
import Crosswalk.Proofs.Path.Grammar
import Crosswalk.Proofs.Path.Spelling
import Crosswalk.Proofs.Path.Splicing
import Crosswalk.Proofs.Path.Splitting
import Crosswalk.Proofs.Schema.Finding
import Crosswalk.Proofs.Session.References
import Crosswalk.Proofs.Session.Runs
import Crosswalk.Proofs.Stylesheet.HeldRules
import Crosswalk.Proofs.Stylesheet.Places
import Crosswalk.Proofs.Stylesheet.SentRules
import Crosswalk.Proofs.Text.Reading
import Crosswalk.Proofs.Text.Trimming
import Crosswalk.Schema.Form
import Crosswalk.Schema.Infer
import Crosswalk.Schema.Listing
import Crosswalk.Schema.Lookup
import Crosswalk.Schema.Node
import Crosswalk.Script.Basic
import Crosswalk.Script.Prelude
import Crosswalk.Session.Click
import Crosswalk.Session.Config
import Crosswalk.Session.Fault
import Crosswalk.Session.State
import Crosswalk.Stylesheet.Basic
import Crosswalk.Stylesheet.Hyphens
import Crosswalk.Stylesheet.Overrides
import Crosswalk.Stylesheet.Rebuilding
import Crosswalk.Stylesheet.Text
import Crosswalk.Stylesheet.Tree
import Crosswalk.Stylesheet.XPath
import Crosswalk.Text.Alphanumeric
import Crosswalk.Text.Blank
import Crosswalk.Text.Digit
import Crosswalk.Text.Quoted
import Crosswalk.Text.Ranges
import Crosswalk.Text.Rest
import Crosswalk.Text.Unprintable
import Crosswalk.Proofs.Json.Strings
import Crosswalk.Proofs.Json.Containers
import Crosswalk.Proofs.Mapping.Saving
import Crosswalk.Proofs.Markup.WellFormed
import Crosswalk.Proofs.Stylesheet.Legal
import Crosswalk.Proofs.Stylesheet.SoundParts
import Crosswalk.Proofs.Stylesheet.WellFormed
import Crosswalk.Proofs.Session.Protocol
import Crosswalk.Proofs.Path.Positions
import Crosswalk.Proofs.Preview.Slots
import Crosswalk.Proofs.Preview.Outputs
import Crosswalk.Proofs.Schema.Origins
import Crosswalk.Proofs.Preview.JsonPaths
import Crosswalk.Proofs.Text.Ensures
import Crosswalk.Proofs.Markup.Regular
import Crosswalk.Proofs.Document.Grouping
import Crosswalk.Proofs.Preview.OpenWays
import Crosswalk.Proofs.Preview.MarkupPaths
import Crosswalk.Proofs.Path.Readable
import Crosswalk.Proofs.Session.Pending
import Crosswalk.Proofs.Stylesheet.Groups
import Crosswalk.Proofs.Stylesheet.Patterns
import Crosswalk.Proofs.Markup.Decoding
import Crosswalk.Proofs.Stylesheet.Constants
import Crosswalk.Proofs.Path.Filtering
import Crosswalk.Proofs.Schema.Ancestry
import Crosswalk.Proofs.Preview.Suggestions
import Crosswalk.Proofs.Mapping.Changes
import Crosswalk.Proofs.Script.Assignments
import Crosswalk.Proofs.Stylesheet.Partition
import Crosswalk.Proofs.Markup.Tokens
import Crosswalk.Proofs.Stylesheet.Exchanged
import Crosswalk.Proofs.Stylesheet.SameMarkup
import Crosswalk.Proofs.Schema.Paths
import Crosswalk.Proofs.Command.Delivery
import Crosswalk.Proofs.Session.Forgetting
import Crosswalk.Proofs.Stylesheet.Restated
import Crosswalk.Proofs.Preview.Refusals
import Crosswalk.Proofs.Document.ElementFields
import Crosswalk.Proofs.Path.Targets
import Crosswalk.Proofs.Stylesheet.Losses
import Crosswalk.Proofs.Path.Printing
import Crosswalk.Proofs.Schema.Lookups
import Crosswalk.Proofs.Preview.MixedText
import Crosswalk.Proofs.Script.Notes
import Crosswalk.Proofs.Schema.FirstItems
import Crosswalk.Proofs.Json.Refusals
import Crosswalk.Proofs.Schema.Saving
import Crosswalk.Proofs.Stylesheet.WrittenOnce
import Crosswalk.Proofs.Mapping.Loading
import Crosswalk.Proofs.Path.OuterDots
import Crosswalk.Proofs.Preview.IdleSteps
import Crosswalk.Proofs.Document.Scalars
import Crosswalk.Proofs.Stylesheet.PartedHyphens
import Crosswalk.Proofs.Schema.Visiting
import Crosswalk.Proofs.Stylesheet.SoundTrees
import Crosswalk.Proofs.Stylesheet.LocationPaths
import Crosswalk.Proofs.Mapping.FreshIds
