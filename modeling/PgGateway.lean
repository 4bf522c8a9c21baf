import PgGateway.Main
import PgGateway.Proofs.Text.Utf8
import PgGateway.Proofs.Wire.Bytes
import PgGateway.Proofs.Wire.Measured
import PgGateway.Proofs.Wire.RoundTrip
import PgGateway.Proofs.Wire.ClientStream
import PgGateway.Proofs.Wire.ServerStream
import PgGateway.Proofs.Connection.Conversation
import PgGateway.Proofs.Connection.Drain
import PgGateway.Proofs.Connection.Chunks
import PgGateway.Proofs.Connection.Transcript
import PgGateway.Proofs.Connection.Discipline
import PgGateway.Proofs.Session.Verdict
import PgGateway.Proofs.Session.QueryCycle
import PgGateway.Proofs.Session.Completions
import PgGateway.Proofs.Session.Failure
import PgGateway.Proofs.Sql.Normal
import PgGateway.Proofs.Sql.Spelling
import PgGateway.Proofs.Sql.Balanced
import PgGateway.Proofs.Sql.Parentheses
import PgGateway.Proofs.Sql.Runs
import PgGateway.Proofs.Sql.QuotedText
import PgGateway.Proofs.Sql.Clauses
import PgGateway.Proofs.Sql.Columns
import PgGateway.Proofs.Sql.Tables
import PgGateway.Proofs.Sql.Recognition
import PgGateway.Proofs.Sql.Translation
import PgGateway.Proofs.Sql.OneStatement
import PgGateway.Proofs.Sessions.Service
import PgGateway.Proofs.Sessions.Isolation
import PgGateway.Proofs.Tables.Change
import PgGateway.Proofs.Tables.Live
import PgGateway.Proofs.Tables.Crossing
import PgGateway.Proofs.Projection.Declared
import PgGateway.Proofs.Projection.Legal
import PgGateway.Proofs.Sql.CaseFolding
import PgGateway.Proofs.Sql.Matching
import PgGateway.Proofs.Sql.Alike
import PgGateway.Proofs.Sql.Recasing
import PgGateway.Proofs.Wire.Reports
import PgGateway.Proofs.Sql.Refusals
import PgGateway.Proofs.Connection.Reports
import PgGateway.Proofs.Wire.Accepted
import PgGateway.Proofs.Wire.AllOrNothing
import PgGateway.Proofs.Sql.Layout
import PgGateway.Proofs.Sql.Quotations
import PgGateway.Proofs.Sql.OpenQuotes
import PgGateway.Proofs.Sql.Bytewise
import PgGateway.Proofs.Sql.Spans
import PgGateway.Proofs.Sql.ColumnSyntax
import PgGateway.Proofs.Sql.Keys
import PgGateway.Proofs.Sql.KeyOrder
import PgGateway.Proofs.Sql.Identity
import PgGateway.Proofs.Sql.Numbering
import PgGateway.Proofs.Sql.Names
import PgGateway.Proofs.Sql.TableShape
import PgGateway.Proofs.Sql.InsertSyntax
import PgGateway.Proofs.Sql.EmptyText
import PgGateway.Proofs.Session.EmptyQuery
import PgGateway.Proofs.Engine.Phrases
import PgGateway.Proofs.Engine.Constraints
import PgGateway.Proofs.Tables.Sharing
import PgGateway.Proofs.Tables.Restart
import PgGateway.Proofs.Projection.OwnData
import PgGateway.Proofs.Binary64.Rounding
import PgGateway.Proofs.Binary64.Shortest
import PgGateway.Proofs.Binary64.Numerals
import PgGateway.Proofs.Binary64.ReadBack
import PgGateway.Proofs.Config.Addresses
import PgGateway.Proofs.Projection.ReadBack
import PgGateway.Proofs.Wire.Cursor
import PgGateway.Proofs.Wire.Overrun
import PgGateway.Proofs.InPlace.Recogniser
import PgGateway.Proofs.InPlace.Tokens
import PgGateway.Proofs.InPlace.Runs
import PgGateway.Proofs.InPlace.Columns
import PgGateway.Proofs.InPlace.Tables
import PgGateway.Proofs.InPlace.Insertions
import PgGateway.Proofs.InPlace.Statements
import PgGateway.Proofs.Sql.WithinBlock
