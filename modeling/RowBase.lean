import RowBase.Binary64.Basic
import RowBase.Binary64.Decimal
import RowBase.Config
import RowBase.Connection
import RowBase.Encoding.Basic
import RowBase.Encoding.Fault
import RowBase.Encoding.Row
import RowBase.Encoding.Schema
import RowBase.Error
import RowBase.Execution
import RowBase.Proofs.Binary64.ReadBack
import RowBase.Proofs.Binary64.Rounding
import RowBase.Proofs.Encoding.Canonical
import RowBase.Proofs.Encoding.Prefixes
import RowBase.Proofs.Encoding.RoundTrip
import RowBase.Proofs.Encoding.Schema
import RowBase.Proofs.Execution.AbstractDatabase
import RowBase.Proofs.Execution.AllColumns
import RowBase.Proofs.Execution.Calls
import RowBase.Proofs.Execution.Coercion
import RowBase.Proofs.Execution.Dispatch
import RowBase.Proofs.Execution.Failures
import RowBase.Proofs.Execution.FloatKeys
import RowBase.Proofs.Execution.IdentifierKeys
import RowBase.Proofs.Execution.InsertFaults
import RowBase.Proofs.Execution.InsertOrder
import RowBase.Proofs.Execution.InsertedRows
import RowBase.Proofs.Execution.Insertion
import RowBase.Proofs.Execution.QuotedText
import RowBase.Proofs.Execution.RefusedNames
import RowBase.Proofs.Execution.RepeatedColumns
import RowBase.Proofs.Execution.Scan
import RowBase.Proofs.Execution.SchemaKept
import RowBase.Proofs.Execution.StoredRows
import RowBase.Proofs.Execution.TornUnits
import RowBase.Proofs.Execution.UnwrittenTables
import RowBase.Proofs.Execution.ValidTables
import RowBase.Proofs.Execution.WrittenRows
import RowBase.Proofs.Opening
import RowBase.Proofs.Reading
import RowBase.Proofs.Registration
import RowBase.Proofs.Schema.TableValidity
import RowBase.Proofs.Sql.Classification
import RowBase.Proofs.Sql.Continuation
import RowBase.Proofs.Sql.Grammar
import RowBase.Proofs.Sql.LeadingWord
import RowBase.Proofs.Sql.Parsing
import RowBase.Proofs.Sql.Progress
import RowBase.Proofs.Sql.QuotedLiterals
import RowBase.Proofs.Sql.ReaderRequests
import RowBase.Proofs.Sql.Relexing
import RowBase.Proofs.Sql.Scanning
import RowBase.Proofs.Sql.WaitingTokens
import RowBase.Proofs.Storage.Containment
import RowBase.Proofs.Storage.Directories
import RowBase.Proofs.Storage.DiskUnits
import RowBase.Proofs.Storage.Files
import RowBase.Proofs.Storage.FreshDisk
import RowBase.Proofs.Storage.LastWrite
import RowBase.Proofs.Storage.NameChecks
import RowBase.Proofs.Storage.Paths
import RowBase.Proofs.Storage.SchemaFile
import RowBase.Proofs.Storage.UnitCalls
import RowBase.Proofs.Storage.Units
import RowBase.Proofs.Text.Letters
import RowBase.Proofs.Text.Numbers
import RowBase.Proofs.Text.Order
import RowBase.Proofs.Timestamp.ReadBack
import RowBase.Proofs.Timestamp.Rfc3339
import RowBase.Proofs.Value.CanonicalText
import RowBase.Proofs.Value.IdentifierLayout
import RowBase.Proofs.Value.WholeNumbers
import RowBase.Registry
import RowBase.RowStore
import RowBase.Schema.Database
import RowBase.Schema.Table
import RowBase.SortedMap
import RowBase.Sql.Keyword
import RowBase.Sql.Parser
import RowBase.Sql.Reader
import RowBase.Sql.Statement
import RowBase.Sql.Token
import RowBase.Storage.Basic
import RowBase.Storage.Disk
import RowBase.Storage.Fault
import RowBase.Storage.FilePath
import RowBase.Storage.FileTree
import RowBase.Storage.Impaired
import RowBase.Storage.Memory
import RowBase.Storage.Place
import RowBase.Text.Blank
import RowBase.Text.Case
import RowBase.Text.Hex
import RowBase.Text.Number
import RowBase.Text.Quoted
import RowBase.Text.Unprintable
import RowBase.Text.Utf8
import RowBase.Timestamp.Basic
import RowBase.Timestamp.Reader
import RowBase.Value.Basic
import RowBase.Value.DataType
import RowBase.Value.Identifier
import RowBase.Value.Literal
import RowBase.Value.Row
