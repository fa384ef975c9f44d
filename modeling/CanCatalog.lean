import CanCatalog.Binary64.Basic
import CanCatalog.Binary64.Rounding
import CanCatalog.Binary64.Shortest
import CanCatalog.Catalog.Basic
import CanCatalog.Catalog.Query
import CanCatalog.Decimal
import CanCatalog.Event
import CanCatalog.Fault
import CanCatalog.Number
import CanCatalog.Number.Numeral
import CanCatalog.Options
import CanCatalog.Proofs.Binary64.Decimals
import CanCatalog.Proofs.Binary64.Nearest
import CanCatalog.Proofs.Binary64.Order
import CanCatalog.Proofs.Binary64.Quotients
import CanCatalog.Proofs.Binary64.Shortest
import CanCatalog.Proofs.Catalog.Equality
import CanCatalog.Proofs.Catalog.Json
import CanCatalog.Proofs.Catalog.Query
import CanCatalog.Proofs.Catalog.Recording
import CanCatalog.Proofs.Catalog.Reflexivity
import CanCatalog.Proofs.Catalog.Serialization
import CanCatalog.Proofs.Catalog.Serializer
import CanCatalog.Proofs.Number.Grammar
import CanCatalog.Proofs.Number.Integers
import CanCatalog.Proofs.Number.Limits
import CanCatalog.Proofs.Number.Literal
import CanCatalog.Proofs.Number.Natural
import CanCatalog.Proofs.Number.Order
import CanCatalog.Proofs.Number.Positional
import CanCatalog.Proofs.Number.ReadBack
import CanCatalog.Proofs.Number.Value
import CanCatalog.Proofs.Number.Whole
import CanCatalog.Proofs.Outcome
import CanCatalog.Proofs.Reading.Account
import CanCatalog.Proofs.Reading.Block
import CanCatalog.Proofs.Reading.Continuation
import CanCatalog.Proofs.Reading.Finiteness
import CanCatalog.Proofs.Reading.Interruption
import CanCatalog.Proofs.Reading.Invariant
import CanCatalog.Proofs.Reading.Layout
import CanCatalog.Proofs.Reading.Lines
import CanCatalog.Proofs.Reading.LowestBit
import CanCatalog.Proofs.Reading.Mark
import CanCatalog.Proofs.Reading.Meaning
import CanCatalog.Proofs.Reading.OneLine
import CanCatalog.Proofs.Reading.Origin
import CanCatalog.Proofs.Reading.Prefix
import CanCatalog.Proofs.Reading.Ranges
import CanCatalog.Proofs.Reading.Records
import CanCatalog.Proofs.Reading.Repetition
import CanCatalog.Proofs.Reading.Revision
import CanCatalog.Proofs.Reading.Selection
import CanCatalog.Proofs.Reading.Sources
import CanCatalog.Proofs.Reading.Step
import CanCatalog.Proofs.Reading.Strictness
import CanCatalog.Proofs.Reading.Written
import CanCatalog.Proofs.Statement.Fields
import CanCatalog.Proofs.Statement.Grammar
import CanCatalog.Proofs.Statement.Kind
import CanCatalog.Proofs.Statement.Pairs
import CanCatalog.Proofs.Statement.Parts
import CanCatalog.Proofs.Statement.Places
import CanCatalog.Proofs.Statement.Positions
import CanCatalog.Proofs.Statement.Words
import CanCatalog.Proofs.Statement.Written
import CanCatalog.Proofs.Text.Cut
import CanCatalog.Proofs.Text.Decode
import CanCatalog.Proofs.Text.OneLine
import CanCatalog.Proofs.Text.Revision
import CanCatalog.Proofs.Text.Word
import CanCatalog.Reading.Progress
import CanCatalog.Reading.Run
import CanCatalog.Reading.Source
import CanCatalog.Statement
import CanCatalog.Statement.Field
import CanCatalog.Text.Blank
import CanCatalog.Text.Lines
import CanCatalog.Text.Quoted
import CanCatalog.Text.Utf8
