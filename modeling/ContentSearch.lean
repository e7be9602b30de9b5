import ContentSearch.Main
import ContentSearch.Proofs.Filter.Faithful
import ContentSearch.Proofs.Filter.Exclusion
import ContentSearch.Proofs.Portal.Verdict
import ContentSearch.Proofs.Portal.RetryLaw
import ContentSearch.Proofs.Json.Numeral
import ContentSearch.Proofs.Json.Scanning
import ContentSearch.Proofs.Text.Base64
import ContentSearch.Proofs.Text.Blank
import ContentSearch.Proofs.Text.Utf8
import ContentSearch.Proofs.Json.Printed
import ContentSearch.Proofs.Cursor.Token
import ContentSearch.Proofs.Keyed
import ContentSearch.Proofs.Text.Form
import ContentSearch.Proofs.Query.Parameters
import ContentSearch.Proofs.Cursor.Held
import ContentSearch.Proofs.Binary64.Shortest
import ContentSearch.Proofs.Binary64.Whole
import ContentSearch.Proofs.Json.Grammar
import ContentSearch.Proofs.Json.Double
import ContentSearch.Proofs.Json.Parsed
import ContentSearch.Proofs.Json.Pretty
import ContentSearch.Proofs.Json.Settled
import ContentSearch.Proofs.Query.Encodings
import ContentSearch.Proofs.Portal.Pages
import ContentSearch.Proofs.Program.NextPage
import ContentSearch.Proofs.Portal.Arrival
import ContentSearch.Proofs.Query.Token
import ContentSearch.Proofs.Files
import ContentSearch.Proofs.Program.Failure
import ContentSearch.Proofs.Program.TokenSecrecy
import ContentSearch.Proofs.Program.TrailingSlashes
import ContentSearch.Proofs.Toml.Quoted
import ContentSearch.Proofs.Toml.Lines
import ContentSearch.Proofs.Toml.Table
import ContentSearch.Proofs.Toml.Range
import ContentSearch.Proofs.Settings.Document
import ContentSearch.Proofs.Settings.File
import ContentSearch.Proofs.Program.SettingHistory
import ContentSearch.Proofs.Program.Codes
import ContentSearch.Proofs.Json.Record
import ContentSearch.Proofs.Cursor.Payload
import ContentSearch.Proofs.Cursor.Layout
import ContentSearch.Proofs.Json.Members
import ContentSearch.Proofs.Filter.Order
import ContentSearch.Proofs.CommandLine.Spoken
import ContentSearch.Proofs.CommandLine.Unsaid
import ContentSearch.Proofs.Program.Precedence
import ContentSearch.Proofs.Portal.PageBody
import ContentSearch.Proofs.Portal.Reread
import ContentSearch.Proofs.Portal.Unknown
import ContentSearch.Proofs.Portal.Backoff
import ContentSearch.Proofs.Filter.Clause
import ContentSearch.Proofs.Cursor.Tiling
import ContentSearch.Proofs.Program.PageWalk
import ContentSearch.Proofs.Filter.Bound
import ContentSearch.Proofs.Filter.Range
import ContentSearch.Proofs.Portal.Patience
import ContentSearch.Proofs.Program.ShownToken
