import ConsoleCpp.Main
import ConsoleCpp.Source.Outline
import ConsoleCpp.Proofs.Generate.Cases
import ConsoleCpp.Proofs.Control.Reading
import ConsoleCpp.Proofs.Generate.Renames
import ConsoleCpp.Proofs.Control.Translation
import ConsoleCpp.Proofs.Control.Refusal
import ConsoleCpp.Proofs.Parser.Views
import ConsoleCpp.Proofs.Parser.Precedence
import ConsoleCpp.Proofs.Names.Occurrences
import ConsoleCpp.Proofs.Names.Bindings
import ConsoleCpp.Proofs.Names.Nonlocal
import ConsoleCpp.Proofs.Machine.Effects
import ConsoleCpp.Proofs.Generate.Depth
import ConsoleCpp.Proofs.Stores.Spots
import ConsoleCpp.Proofs.Stores.Cells
import ConsoleCpp.Proofs.Stores.Position
import ConsoleCpp.Proofs.Token.Spans
import ConsoleCpp.Proofs.Token.Tiling
import ConsoleCpp.Proofs.Outcome
import ConsoleCpp.Proofs.Token.Classes
import ConsoleCpp.Proofs.Parser.Sourced
import ConsoleCpp.Proofs.Parser.SourcedStmt
import ConsoleCpp.Proofs.Token.Respelling
import ConsoleCpp.Proofs.Token.Longest
import ConsoleCpp.Proofs.Token.Respacing
import ConsoleCpp.Proofs.Parser.Rendering
import ConsoleCpp.Proofs.Parser.RoundTrip
import ConsoleCpp.Proofs.Generate.Refusals
import ConsoleCpp.Proofs.Target.Blocks
import ConsoleCpp.Proofs.Generate.Blocks
import ConsoleCpp.Proofs.Parser.Limit
import ConsoleCpp.Proofs.Parser.Nesting
import ConsoleCpp.Proofs.Parser.NestingStmt
import ConsoleCpp.Proofs.Generate.Emitted
import ConsoleCpp.Proofs.Names.Hygiene
import ConsoleCpp.Proofs.Machine.Unread
import ConsoleCpp.Proofs.Target.Brackets
import ConsoleCpp.Proofs.Target.Firm
import ConsoleCpp.Proofs.Generate.Firm
import ConsoleCpp.Proofs.Generate.Brackets
import ConsoleCpp.Proofs.Parser.StatementViews
import ConsoleCpp.Proofs.Parser.Locality
import ConsoleCpp.Proofs.Parser.Append
import ConsoleCpp.Proofs.Source.Declared
import ConsoleCpp.Proofs.Parser.Declared
import ConsoleCpp.Proofs.Parser.Assigned
import ConsoleCpp.Proofs.Names.Distinct
import ConsoleCpp.Proofs.Stores.Stepped
import ConsoleCpp.Proofs.Stores.Divided
import ConsoleCpp.Proofs.Names.Analysis
import ConsoleCpp.Proofs.Names.Fresh
import ConsoleCpp.Proofs.Number.Reading
import ConsoleCpp.Proofs.CommandLine.Agreement
import ConsoleCpp.Proofs.Target.Literals
import ConsoleCpp.Proofs.Names.Paired
import ConsoleCpp.Proofs.Names.Uses
import ConsoleCpp.Proofs.Names.Parameters
import ConsoleCpp.Proofs.Source.Qualified
import ConsoleCpp.Proofs.Parser.Qualified
import ConsoleCpp.Proofs.Generate.Settled
import ConsoleCpp.Proofs.Machine.Kept
import ConsoleCpp.Proofs.Machine.Implemented
import ConsoleCpp.Proofs.Machine.Printed
import ConsoleCpp.Proofs.Generate.Scopes
import ConsoleCpp.Proofs.Parser.Nearest
import ConsoleCpp.Proofs.Source.Preorder
import ConsoleCpp.Proofs.Generate.Integers
import ConsoleCpp.Proofs.Parser.Progress
