import FormulaTable.Calendar.Day
import FormulaTable.Calendar.Instant
import FormulaTable.Calendar.Pattern
import FormulaTable.Calendar.Reading
import FormulaTable.Calendar.Shift
import FormulaTable.Calendar.Text
import FormulaTable.Calendar.TimeUnit
import FormulaTable.Column
import FormulaTable.CommandLine.Arguments
import FormulaTable.CommandLine.Report
import FormulaTable.Computation.Outcome
import FormulaTable.Computation.Setting
import FormulaTable.Formula.Engine
import FormulaTable.Formula.Evaluation
import FormulaTable.Formula.Expr
import FormulaTable.Formula.FormulaError
import FormulaTable.Formula.Lexer
import FormulaTable.Formula.Library
import FormulaTable.Formula.Library.Basic
import FormulaTable.Formula.Library.Date
import FormulaTable.Formula.Library.Logic
import FormulaTable.Formula.Library.Math
import FormulaTable.Formula.Library.Text
import FormulaTable.Formula.Parser
import FormulaTable.Formula.SyntaxError
import FormulaTable.Formula.Token
import FormulaTable.Json.Basic
import FormulaTable.Json.Decoding
import FormulaTable.Json.Numeral
import FormulaTable.Json.Quoted
import FormulaTable.Json.Reading
import FormulaTable.Json.Text
import FormulaTable.Json.Token
import FormulaTable.Main
import FormulaTable.Number.Decimal
import FormulaTable.Number.Exact
import FormulaTable.Number.Rounding
import FormulaTable.Number.Shortest
import FormulaTable.Number.Text
import FormulaTable.Relation.Basic
import FormulaTable.Relation.Tables
import FormulaTable.Rollup.Aggregation
import FormulaTable.Rollup.Entries
import FormulaTable.Rollup.Key
import FormulaTable.Rollup.Result
import FormulaTable.Row
import FormulaTable.Stored.Column
import FormulaTable.Stored.Engine
import FormulaTable.Stored.Rollup
import FormulaTable.Stored.Row
import FormulaTable.Stored.Value
import FormulaTable.Text.Case
import FormulaTable.Text.CaseTable
import FormulaTable.Text.Letter
import FormulaTable.Text.LetterTable
import FormulaTable.Text.Padding
import FormulaTable.Text.Search
import FormulaTable.Text.Space
import FormulaTable.Text.Template
import FormulaTable.Value.Arithmetic
import FormulaTable.Value.Basic
import FormulaTable.Value.Coercion
import FormulaTable.Value.Comparison
import FormulaTable.Proofs.Formula.Grammar
import FormulaTable.Proofs.Formula.Reading
import FormulaTable.Proofs.Formula.Recognition
import FormulaTable.Proofs.Formula.Height
import FormulaTable.Proofs.Computation.Recomputation
import FormulaTable.Proofs.Formula.Failure
import FormulaTable.Proofs.Formula.Introspection
import FormulaTable.Proofs.Computation.Convergence
import FormulaTable.Proofs.Number.Double
import FormulaTable.Proofs.Number.Digits
import FormulaTable.Proofs.Number.Shortest
import FormulaTable.Proofs.Number.Text
import FormulaTable.Proofs.Calendar.Day
import FormulaTable.Proofs.Calendar.Text
import FormulaTable.Proofs.Calendar.Reading
import FormulaTable.Proofs.Calendar.Month
import FormulaTable.Proofs.Calendar.TimeLine
import FormulaTable.Proofs.Json.Quoted
import FormulaTable.Proofs.Json.Token
import FormulaTable.Proofs.Json.Reading
import FormulaTable.Proofs.Json.Numeral
import FormulaTable.Proofs.Json.Decoding
import FormulaTable.Proofs.Stored.Value
import FormulaTable.Proofs.Rollup.Key
import FormulaTable.Proofs.Rollup.Showing
import FormulaTable.Proofs.Formula.DepthLimit
import FormulaTable.Proofs.Computation.ParseCount
import FormulaTable.Proofs.Computation.Results
import FormulaTable.Proofs.Computation.TwoPasses
import FormulaTable.Proofs.Computation.Batch
import FormulaTable.Proofs.Text.Case
import FormulaTable.Proofs.Formula.AddedFunctions
import FormulaTable.Proofs.Number.Nearest
import FormulaTable.Proofs.Number.Operations
import FormulaTable.Proofs.Number.Whole
import FormulaTable.Proofs.Number.Integer
import FormulaTable.Proofs.Number.Opposite
import FormulaTable.Proofs.Number.DecimalPlaces
import FormulaTable.Proofs.Calendar.Number
import FormulaTable.Proofs.Calendar.CalendarUnit
import FormulaTable.Proofs.Calendar.FixedUnit
import FormulaTable.Proofs.Calendar.UnitBounds
import FormulaTable.Proofs.Formula.FiniteLibrary
import FormulaTable.Proofs.Formula.Numerals
import FormulaTable.Proofs.Formula.FiniteNumbers
import FormulaTable.Proofs.Stored.RoundTrip
import FormulaTable.Proofs.Formula.ColumnOrder
import FormulaTable.Proofs.Formula.Rewriting
import FormulaTable.Proofs.Formula.Conditionals
import FormulaTable.Proofs.Formula.DateParts
import FormulaTable.Proofs.Formula.Places
import FormulaTable.Proofs.Formula.TokenEnds
import FormulaTable.Proofs.Formula.Spacing
import FormulaTable.Proofs.Number.Order
import FormulaTable.Proofs.Value.Comparison
import FormulaTable.Proofs.Calendar.Layouts
import FormulaTable.Proofs.Calendar.Pattern
import FormulaTable.Proofs.Value.DateCoercion
import FormulaTable.Proofs.Calendar.UnitRange
import FormulaTable.Proofs.Text.AsciiCase
import FormulaTable.Proofs.Formula.LetterCase
import FormulaTable.Proofs.Formula.StringLiterals
import FormulaTable.Proofs.Formula.TokenTexts
import FormulaTable.Proofs.Formula.Templates
import FormulaTable.Proofs.Formula.Splitting
import FormulaTable.Proofs.Number.Line
import FormulaTable.Proofs.Number.WholePart
import FormulaTable.Proofs.Formula.Slices
import FormulaTable.Proofs.Formula.Search
import FormulaTable.Proofs.Rollup.RowOrder
import FormulaTable.Proofs.Json.NumeralRange
import FormulaTable.Proofs.Rollup.Overflow
import FormulaTable.Proofs.Formula.Padding
import FormulaTable.Proofs.Formula.Lexemes
import FormulaTable.Proofs.Formula.ErrorPlaces
import FormulaTable.Proofs.Number.Nearness
import FormulaTable.Proofs.Number.Grid
import FormulaTable.Proofs.Number.RoundedTwice
import FormulaTable.Proofs.Formula.CheckedParser
import FormulaTable.Proofs.Formula.Counters
import FormulaTable.Proofs.Text.Longest
import FormulaTable.Proofs.Formula.LongestNumerals
import FormulaTable.Proofs.Calendar.Pieces
