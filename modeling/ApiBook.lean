import ApiBook.Assembly
import ApiBook.Cache
import ApiBook.Command.Arguments
import ApiBook.Command.Report
import ApiBook.Command.Run
import ApiBook.Error
import ApiBook.Except
import ApiBook.File.Access
import ApiBook.File.Error
import ApiBook.File.Path
import ApiBook.File.Pattern
import ApiBook.File.Search
import ApiBook.File.Tree
import ApiBook.File.View
import ApiBook.Json.Value
import ApiBook.Main
import ApiBook.Model.Library
import ApiBook.Model.Member
import ApiBook.Model.Record
import ApiBook.Model.TypeDoc
import ApiBook.Page.Anchor
import ApiBook.Page.Format
import ApiBook.Page.Json
import ApiBook.Page.Markdown
import ApiBook.Page.Signature
import ApiBook.Page.Wiki
import ApiBook.Proofs.Library.Extends
import ApiBook.Proofs.Library.Growth
import ApiBook.Proofs.Library.Lookup
import ApiBook.Proofs.Library.Records
import ApiBook.Proofs.Library.Remerge
import ApiBook.Proofs.Library.WellFormed
import ApiBook.Proofs.Model.Absorb
import ApiBook.Proofs.Model.Extends
import ApiBook.Proofs.Model.Join
import ApiBook.Proofs.Script.Block
import ApiBook.Proofs.Script.Names
import ApiBook.Proofs.Script.Note
import ApiBook.Proofs.Script.Printer
import ApiBook.Proofs.Script.Result
import ApiBook.Proofs.Script.RoundTrip
import ApiBook.Proofs.Script.Tag
import ApiBook.Proofs.Text.Classes
import ApiBook.Proofs.Text.Spans
import ApiBook.Proofs.Text.Substitute
import ApiBook.Proofs.Xml.Document
import ApiBook.Proofs.Xml.Element
import ApiBook.Proofs.Xml.Entity
import ApiBook.Proofs.Xml.Printer
import ApiBook.Proofs.Xml.RoundTrip
import ApiBook.Reference
import ApiBook.Script.Block
import ApiBook.Script.Collector
import ApiBook.Script.Document
import ApiBook.Script.Line
import ApiBook.Script.Note
import ApiBook.Script.Tag
import ApiBook.Settings
import ApiBook.Text.Alphanumeric
import ApiBook.Text.Basic
import ApiBook.Text.Blank
import ApiBook.Text.Lowercase
import ApiBook.Text.Number
import ApiBook.Text.Ranges
import ApiBook.Text.Word
import ApiBook.Toml.Document
import ApiBook.Toml.Moment
import ApiBook.Toml.String
import ApiBook.Xml.Document
import ApiBook.Xml.Element
import ApiBook.Xml.Entity
import ApiBook.Xml.PlainText
import ApiBook.Xml.Token
import ApiBook.Proofs.Settings.Names
import ApiBook.Proofs.Cache.Lookup
import ApiBook.Proofs.Library.Assembly
import ApiBook.Proofs.Cache.Slots
import ApiBook.Proofs.Reference.Fresh
import ApiBook.Proofs.Script.Attached
import ApiBook.Proofs.Script.Prose
import ApiBook.Proofs.Script.Segment
import ApiBook.Proofs.Script.Attribution
import ApiBook.Proofs.Json.Reader
import ApiBook.Proofs.Json.RoundTrip
import ApiBook.Proofs.Page.Json
import ApiBook.Proofs.Page.Index
import ApiBook.Proofs.Text.Bytes
import ApiBook.Proofs.File.Kind
import ApiBook.Proofs.File.Path
import ApiBook.Proofs.File.Place
import ApiBook.Proofs.File.Change
import ApiBook.Proofs.File.Output
import ApiBook.Proofs.Reference.Listed
import ApiBook.Proofs.Command.Session
import ApiBook.Proofs.Command.Pages
import ApiBook.Proofs.Model.Saturation
import ApiBook.Proofs.Library.Saturation
import ApiBook.Proofs.Script.Closing
import ApiBook.Proofs.Script.Transparent
import ApiBook.Proofs.Script.Description
import ApiBook.Proofs.Script.Remainder
import ApiBook.Proofs.Xml.Reference
import ApiBook.Proofs.Xml.Forest
import ApiBook.Proofs.Xml.Attribute
import ApiBook.Proofs.Xml.Nesting
import ApiBook.Proofs.Text.LineEnd
import ApiBook.Proofs.Xml.Source
import ApiBook.Proofs.Xml.Spelling
import ApiBook.Proofs.Xml.Gap
import ApiBook.Proofs.Xml.LineEnd
import ApiBook.Proofs.Xml.Marked
import ApiBook.Proofs.Script.Collector
import ApiBook.Proofs.Model.Outcome
import ApiBook.Proofs.Library.Outcome
import ApiBook.Proofs.Xml.MemberText
import ApiBook.Proofs.Library.Order
import ApiBook.Proofs.Page.Anchor
import ApiBook.Proofs.Model.Id
import ApiBook.Proofs.Xml.Normal
import ApiBook.Proofs.Page.Wiki
import ApiBook.Proofs.Text.Sorting
import ApiBook.Proofs.File.Order
import ApiBook.Proofs.Command.Scripts
import ApiBook.Text.Offset
import ApiBook.Xml.EndSearch
import ApiBook.Proofs.Page.Signature
import ApiBook.Proofs.Text.Offset
import ApiBook.Proofs.Xml.Balance
import ApiBook.Proofs.Xml.EndSearch
