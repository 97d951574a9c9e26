import Stylesmith.Build.LogLevel
import Stylesmith.Command.Size
import Stylesmith.Main
import Stylesmith.Proofs.Build.Calls
import Stylesmith.Proofs.Command.Written
import Stylesmith.Proofs.Config.Notations
import Stylesmith.Proofs.Cursor.Bounds
import Stylesmith.Proofs.Minify.Budget
import Stylesmith.Proofs.Minify.Canonical
import Stylesmith.Proofs.Minify.Combinators
import Stylesmith.Proofs.Minify.Fusion
import Stylesmith.Proofs.Minify.Stability
import Stylesmith.Proofs.Minify.Verbatim
import Stylesmith.Proofs.SourceMap.Composition
import Stylesmith.Proofs.SourceMap.LineTable
import Stylesmith.Proofs.SourceMap.Resolution
import Stylesmith.Proofs.Stylesheet.Accepted
import Stylesmith.Proofs.Stylesheet.Anchoring
import Stylesmith.Proofs.Stylesheet.Blocks
import Stylesmith.Proofs.Stylesheet.Folding
import Stylesmith.Proofs.Stylesheet.Positions
import Stylesmith.Proofs.Stylesheet.Remarks
import Stylesmith.Proofs.Transform.Stages
