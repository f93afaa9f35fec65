import Stencil.Bindings
import Stencil.Render.Template
import Stencil.Cache
import Stencil.Code.Generate
import Stencil.Settings.Toml
import Stencil.Proofs.Bindings.Hygiene
import Stencil.Proofs.Bindings.Visible
import Stencil.Proofs.Node.Source
import Stencil.Proofs.Run.Indented
import Stencil.Proofs.Run.Limits
import Stencil.Proofs.Token.Gaps
import Stencil.Proofs.Token.Lines
import Stencil.Proofs.Node.Blocks
import Stencil.Proofs.Node.Offence
import Stencil.Proofs.Node.Thinning
import Stencil.Proofs.Node.Narrowing
import Stencil.Proofs.Token.Cutting
import Stencil.Proofs.Node.Viable
import Stencil.Proofs.Token.Stretch
import Stencil.Proofs.Run.Literal
import Stencil.Proofs.Cache.History
import Stencil.Proofs.Expr.Printing
import Stencil.Proofs.Node.Arguments
import Stencil.Proofs.Expr.Height
import Stencil.Proofs.Run.Counted
import Stencil.Proofs.Node.Depth
import Stencil.Proofs.Nesting.Ranges
import Stencil.Proofs.Code.Headers
import Stencil.Proofs.Code.Statements
import Stencil.Proofs.Node.Indentation
import Stencil.Proofs.Bindings.Slots
import Stencil.Proofs.Run.Appending
import Stencil.Proofs.Code.Innermost
import Stencil.Proofs.Run.Control
import Stencil.Proofs.Expr.Arithmetic
import Stencil.Proofs.Expr.Lexemes
import Stencil.Proofs.Expr.Literals
import Stencil.Proofs.Code.Ambient
import Stencil.Proofs.Settings.Reading
