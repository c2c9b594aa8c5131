import RecordQuery.Text.Case
import RecordQuery.Text.Title
import RecordQuery.Text.Quoted
import RecordQuery.Text.Blank
import RecordQuery.Text.Width
import RecordQuery.Error
import RecordQuery.Token.Lexer
import RecordQuery.Json.Reader
import RecordQuery.Json.Writer
import RecordQuery.Number.Shortest
import RecordQuery.Schema.Path
import RecordQuery.PropertyId
import RecordQuery.Criteria
import RecordQuery.Numbering
import RecordQuery.Schema.Declarations
import RecordQuery.Query.Select
import RecordQuery.Query.Window
import RecordQuery.Query.Keys
import RecordQuery.Query.Restriction
import RecordQuery.Query
import RecordQuery.Query.Format
import RecordQuery.Sql.Render
import RecordQuery.Document.Write
import RecordQuery.Document.Read
import RecordQuery.Document.Encode
import RecordQuery.Document.Decode
import RecordQuery.Command
import RecordQuery.Main
import RecordQuery.Proofs.Grammar.Tokens
import RecordQuery.Proofs.Grammar.Move
import RecordQuery.Proofs.Grammar.Restriction
import RecordQuery.Proofs.Grammar.Select
import RecordQuery.Proofs.Grammar.Window
import RecordQuery.Proofs.Grammar.Query
import RecordQuery.Proofs.Compile.Binding
import RecordQuery.Proofs.Schema.Identity
import RecordQuery.Proofs.Compile.Assembly
import RecordQuery.Proofs.Compile.Accepted
import RecordQuery.Proofs.Lexing.Run
import RecordQuery.Proofs.Document.RoundTrip
import RecordQuery.Proofs.Lexing.Literal
import RecordQuery.Proofs.Print.Lexemes
import RecordQuery.Proofs.Print.Spelling
import RecordQuery.Proofs.Print.Placement
import RecordQuery.Proofs.Print.Surface
import RecordQuery.Proofs.Text.Ascii
import RecordQuery.Proofs.Print.Clauses
import RecordQuery.Proofs.Print.Keys
import RecordQuery.Proofs.Print.Select
import RecordQuery.Proofs.Print.Query
import RecordQuery.Proofs.Print.Names
import RecordQuery.Proofs.Print.RoundTrip
import RecordQuery.Proofs.Print.Refused
import RecordQuery.Proofs.Print.RefusedQuery
import RecordQuery.Proofs.Lexing.Words
import RecordQuery.Proofs.Print.Compiled
import RecordQuery.Proofs.Print.Reprint
import RecordQuery.Proofs.Compile.Lawful
import RecordQuery.Proofs.Schema.Naming
import RecordQuery.Proofs.Document.Lawful
import RecordQuery.Proofs.Text.Utf8
import RecordQuery.Proofs.Json.Strings
import RecordQuery.Proofs.Json.Lexemes
import RecordQuery.Proofs.Json.RoundTrip
import RecordQuery.Proofs.Json.Numbers
import RecordQuery.Proofs.Document.Legible
import RecordQuery.Proofs.Document.Reread
import RecordQuery.Proofs.Lexing.Utf8
import RecordQuery.Proofs.Lexing.Tiling
import RecordQuery.Proofs.Compile.Sources
import RecordQuery.Proofs.Schema.Ids
import RecordQuery.Proofs.Document.Transfer
import RecordQuery.Proofs.Aliases.Reservation
import RecordQuery.Proofs.Aliases.Distinct
import RecordQuery.Proofs.Aliases.Prefixes
import RecordQuery.Proofs.Sql.Columns
import RecordQuery.Proofs.Document.Subqueries
import RecordQuery.Proofs.Sql.Scoped
import RecordQuery.Proofs.Sql.Database
import RecordQuery.Proofs.Sql.Navigation
import RecordQuery.Proofs.Sql.Scanning
import RecordQuery.Proofs.Sql.Brackets
import RecordQuery.Proofs.Sql.Literals
import RecordQuery.Proofs.Sql.Values
import RecordQuery.Proofs.Sql.Grouping
import RecordQuery.Proofs.Document.Abridged
import RecordQuery.Proofs.Schema.Renaming
import RecordQuery.Proofs.Document.Renamed
import RecordQuery.Proofs.Schema.Declared
import RecordQuery.Proofs.Sql.Rendered
import RecordQuery.Proofs.Aliases.Canonical
import RecordQuery.Proofs.Depth.Guard
import RecordQuery.Proofs.Print.Plain
import RecordQuery.Proofs.Depth.Thresholds
import RecordQuery.Proofs.Schema.Correspondence
import RecordQuery.Proofs.Grammar.ClauseOrder
import RecordQuery.Proofs.Document.Canonical
import RecordQuery.Proofs.Number.Decimal
import RecordQuery.Proofs.Sql.Spelled
import RecordQuery.Proofs.Grammar.Lists
import RecordQuery.Proofs.Lexing.Places
import RecordQuery.Proofs.Lexing.Tokenized
import RecordQuery.Proofs.Compile.Moved
import RecordQuery.Proofs.Compile.Layout
import RecordQuery.Proofs.Print.Bare
import RecordQuery.Proofs.Number.Numeral
import RecordQuery.Proofs.Sql.Numbers
import RecordQuery.Proofs.Sql.Stored
import RecordQuery.Proofs.Schema.Order
import RecordQuery.Proofs.Grammar.Enclosed
import RecordQuery.Proofs.Compile.Raised
import RecordQuery.Proofs.Compile.Safeguards
import RecordQuery.Proofs.Compile.Quoted
import RecordQuery.Proofs.Aliases.Registering
import RecordQuery.Proofs.Sql.Unaliased
