import Railroad.Declaration.Reading
import Railroad.Deriving.Evaluation
import Railroad.Deriving.Spelling
import Railroad.Diagram.Inspection
import Railroad.Diagram.Listing
import Railroad.Diagram.Workbench
import Railroad.Grammar.SelfDrawing
import Railroad.Options.History
import Railroad.Proofs.Deriving.Acceptance
import Railroad.Proofs.Deriving.Drawing
import Railroad.Proofs.Deriving.Roles
import Railroad.Proofs.Diagram.Descent
import Railroad.Proofs.Diagram.Outlines
import Railroad.Proofs.Diagram.Productions
import Railroad.Proofs.Diagram.Pruning
import Railroad.Proofs.Diagram.Sizes
import Railroad.Proofs.Diagram.Traces
import Railroad.Proofs.Grammar.OptionsRead
import Railroad.Proofs.Grammar.Wrappers
import Railroad.Proofs.Options.Histories
import Railroad.Proofs.Options.Representation
import Railroad.Proofs.Registry.AuditTrail
import Railroad.Proofs.Registry.Dispatch
import Railroad.Proofs.Registry.Inspection
import Railroad.Proofs.Text.Layouts

/-!
# Railroad diagrams for grammar objects

Diagrams and the visitors over them, grammar objects that draw themselves with options, registries
that draw values of hidden type, and the derivation of drawings from declarations; and what holds of
all of these.
-/
