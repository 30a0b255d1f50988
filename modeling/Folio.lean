import Folio.Main
import Folio.Proofs.FrontMatter.Grammar
import Folio.Proofs.Handles
import Folio.Proofs.Layout.PassThrough
import Folio.Proofs.Runs.AbortPoint
import Folio.Proofs.Runs.Conservation
import Folio.Proofs.Runs.Independence
import Folio.Proofs.Runs.PlainText
import Folio.Proofs.Stack.Guards
import Folio.Proofs.Stack.Nesting
import Folio.Proofs.Template.Silence
import Folio.Proofs.Paths.Folding
import Folio.Proofs.Paths.Routes
import Folio.Proofs.Template.Names
import Folio.Proofs.Tree.Walking
import Folio.Proofs.Tree.Writing
import Folio.Proofs.Outputs.Delivery
import Folio.Proofs.Outputs.Placement
import Folio.Proofs.Outputs.Keeping
import Folio.Proofs.Outputs.Copies
import Folio.Proofs.Expansion.Standalone
import Folio.Proofs.Expansion.OwnOutput
import Folio.Proofs.Expansion.Prose
import Folio.Proofs.Registry.History
import Folio.Proofs.Registry.Building
import Folio.Proofs.Registry.Dispatch
import Folio.Proofs.Runs.Escaping
import Folio.Proofs.Outputs.Prefix
import Folio.Proofs.Paths.Detours
import Folio.Proofs.Runs.Reports
import Folio.Proofs.Stack.Refusal
import Folio.Proofs.Template.Alias
import Folio.Proofs.Stack.Spelling
import Folio.Proofs.Template.Lookup
import Folio.Proofs.Calendar.Masking
import Folio.Proofs.Calendar.Rereading
import Folio.Proofs.Calendar.Directives
import Folio.Proofs.Context.Merge
import Folio.Proofs.Context.Times
import Folio.Proofs.Paths.Extensions
import Folio.Proofs.FrontMatter.Locality
import Folio.Proofs.FrontMatter.Lines
import Folio.Proofs.Configuration.Commuting
import Folio.Proofs.Configuration.Precedence
import Folio.Proofs.FrontMatter.Declared
import Folio.Proofs.Template.Descents
import Folio.Proofs.Stack.Keys
