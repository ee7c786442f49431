import ElmStyle.Command.Arguments
import ElmStyle.Command.Invocation
import ElmStyle.Command.Outcome
import ElmStyle.Command.Run
import ElmStyle.Css.Declaration
import ElmStyle.Css.Selector
import ElmStyle.Decimal.Binary64
import ElmStyle.Decimal.Layout
import ElmStyle.Decimal.Numeral
import ElmStyle.Decimal.Shortest
import ElmStyle.Diagnostic
import ElmStyle.Document
import ElmStyle.Elm.Argument
import ElmStyle.Elm.Identifier
import ElmStyle.Elm.Module
import ElmStyle.Elm.Name
import ElmStyle.Elm.Style
import ElmStyle.Exemption
import ElmStyle.Files.Path
import ElmStyle.Files.Tree
import ElmStyle.Json.Members
import ElmStyle.Json.Read
import ElmStyle.Json.Value
import ElmStyle.Lint
import ElmStyle.Main
import ElmStyle.Note
import ElmStyle.Options
import ElmStyle.Proofs.Command.Arguments
import ElmStyle.Proofs.Command.Generation
import ElmStyle.Proofs.Command.Loading
import ElmStyle.Proofs.Command.Prediction
import ElmStyle.Proofs.Command.Printing
import ElmStyle.Proofs.Command.Reporting
import ElmStyle.Proofs.Css.Compounds
import ElmStyle.Proofs.Css.Escaping
import ElmStyle.Proofs.Css.States
import ElmStyle.Proofs.Decimal.Accuracy
import ElmStyle.Proofs.Decimal.Denotation
import ElmStyle.Proofs.Decimal.FifteenDigits
import ElmStyle.Proofs.Decimal.Figures
import ElmStyle.Proofs.Decimal.Layout
import ElmStyle.Proofs.Decimal.NumberLiteral
import ElmStyle.Proofs.Decimal.ReadingBack
import ElmStyle.Proofs.Decimal.Rounding
import ElmStyle.Proofs.Document.Loading
import ElmStyle.Proofs.Elm.Characters
import ElmStyle.Proofs.Elm.Emitted
import ElmStyle.Proofs.Elm.Exposing
import ElmStyle.Proofs.Elm.Fallible
import ElmStyle.Proofs.Elm.Hyphenated
import ElmStyle.Proofs.Elm.InnerBlanks
import ElmStyle.Proofs.Elm.Lengths
import ElmStyle.Proofs.Elm.Literal
import ElmStyle.Proofs.Elm.LiteralText
import ElmStyle.Proofs.Elm.NameStyles
import ElmStyle.Proofs.Elm.Reading
import ElmStyle.Proofs.Elm.Sanitizing
import ElmStyle.Proofs.Elm.TokenParts
import ElmStyle.Proofs.Elm.TypedForm
import ElmStyle.Proofs.Elm.Unambiguous
import ElmStyle.Proofs.Elm.WholeTokens
import ElmStyle.Proofs.Exemption.Merging
import ElmStyle.Proofs.Exemption.Written
import ElmStyle.Proofs.Files.Writing
import ElmStyle.Proofs.Json.Members
import ElmStyle.Proofs.Lint.Agreement
import ElmStyle.Proofs.Lint.Fixes
import ElmStyle.Proofs.Lint.Rejection
import ElmStyle.Proofs.Success
import ElmStyle.Proofs.Text.Casing
import ElmStyle.Proofs.Text.Cutting
import ElmStyle.Proofs.Text.Encoding
import ElmStyle.Proofs.Text.Words
import ElmStyle.Text.Blank
import ElmStyle.Text.CodePoint
import ElmStyle.Text.DecimalDigit
import ElmStyle.Text.Lower
import ElmStyle.Text.Newline
import ElmStyle.Text.Order
import ElmStyle.Text.Pieces
import ElmStyle.Text.Plain
import ElmStyle.Text.Printable
import ElmStyle.Text.Quoted
import ElmStyle.Text.Upper
import ElmStyle.Text.Utf8
import ElmStyle.Vocabulary
