import VisitorGen.Main
import VisitorGen.Proofs.Command.Listing
import VisitorGen.Proofs.Command.Reload
import VisitorGen.Proofs.Document.Dependence
import VisitorGen.Proofs.Document.Fields
import VisitorGen.Proofs.Document.Growth
import VisitorGen.Proofs.Document.Names
import VisitorGen.Proofs.Hierarchy.Climb
import VisitorGen.Proofs.Hierarchy.Extensional
import VisitorGen.Proofs.Integrity.Reports
import VisitorGen.Proofs.Json.Heeding
import VisitorGen.Proofs.Json.Thorough
import VisitorGen.Proofs.Name.NormalForm
import VisitorGen.Proofs.Schema.Edits
import VisitorGen.Proofs.Schema.Texts
import VisitorGen.Proofs.Schema.Untagged
