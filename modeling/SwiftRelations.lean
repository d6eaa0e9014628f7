import SwiftRelations.Main
import SwiftRelations.Proofs.Extraction.Consistency
import SwiftRelations.Proofs.Extraction.Determination
import SwiftRelations.Proofs.Extraction.Reachability
import SwiftRelations.Proofs.Extraction.Uniqueness
import SwiftRelations.Proofs.Lowering.Forward
import SwiftRelations.Proofs.Lowering.Scoping
import SwiftRelations.Proofs.Lowering.Structure
import SwiftRelations.Proofs.Types.Reading
import SwiftRelations.Proofs.Types.Normal
import SwiftRelations.Proofs.Types.Canonical
import SwiftRelations.Proofs.Types.Consistency
import SwiftRelations.Proofs.Types.Unfolding
import SwiftRelations.Proofs.Types.Identity
import SwiftRelations.Proofs.Types.History
import SwiftRelations.Proofs.Extraction.Reports
import SwiftRelations.Proofs.Extraction.Locations
import SwiftRelations.Proofs.Extraction.Conformity
import SwiftRelations.Proofs.Extraction.Nesting
import SwiftRelations.Proofs.Extraction.Shortcut
import SwiftRelations.Proofs.Facts.Requests
import SwiftRelations.Proofs.Source.Likeness
import SwiftRelations.Proofs.Lowering.Alike
import SwiftRelations.Proofs.Lowering.AlikeItems
import SwiftRelations.Proofs.Lowering.Comments
import SwiftRelations.Proofs.Lowering.TaskRules
import SwiftRelations.Proofs.Lowering.TaskRulesItems
import SwiftRelations.Proofs.Lowering.Follows
import SwiftRelations.Proofs.Lowering.Coverage
import SwiftRelations.Proofs.Lowering.TopLevel
import SwiftRelations.Proofs.Lowering.Initializers
import SwiftRelations.Proofs.Lowering.CallTypes
import SwiftRelations.Proofs.Report.Sections
import SwiftRelations.Proofs.Facts.Forms
import SwiftRelations.Proofs.Project.Calls
import SwiftRelations.Proofs.Types.Whitespace
import SwiftRelations.Proofs.Types.Bracketing
import SwiftRelations.Proofs.Lowering.Bindings
import SwiftRelations.Proofs.Types.Grammar
import SwiftRelations.Proofs.Lowering.Endings
import SwiftRelations.Proofs.Lowering.Termination
import SwiftRelations.Proofs.Project.Collection
import SwiftRelations.Proofs.Lowering.Runs
import SwiftRelations.Proofs.Types.Descent
