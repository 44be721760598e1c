import SdkHeaders.Main
import SdkHeaders.Proofs.Includes
import SdkHeaders.Proofs.SelfContained
import SdkHeaders.Proofs.Stages
import SdkHeaders.Proofs.StoreGrowth
import SdkHeaders.Proofs.Saving
import SdkHeaders.Proofs.Spelling
import SdkHeaders.Proofs.LayoutLines
import SdkHeaders.Proofs.LineBreaks
import SdkHeaders.Proofs.Overrides
import SdkHeaders.Proofs.IncludeCycles
import SdkHeaders.Proofs.Containment
import SdkHeaders.Proofs.CarriedText
import SdkHeaders.Proofs.SummaryComments
import SdkHeaders.Proofs.ReservedWords
import SdkHeaders.Proofs.Enumerators
import SdkHeaders.Proofs.FieldNames
import SdkHeaders.Proofs.AccessorNames
import SdkHeaders.Proofs.DeclaredTypes
import SdkHeaders.Proofs.Locality
import SdkHeaders.Proofs.ParentFolders
import SdkHeaders.Proofs.InterruptedSaving
import SdkHeaders.Proofs.BraceNesting
import SdkHeaders.Proofs.ClosedCode
import SdkHeaders.Proofs.HeaderBraces
import SdkHeaders.Proofs.BaseClauses
import SdkHeaders.Proofs.GuardedCalls
import SdkHeaders.Proofs.ObjectReading
import SdkHeaders.Proofs.Reports
import SdkHeaders.Proofs.WrittenTrees
import SdkHeaders.Proofs.BaseCycles
import SdkHeaders.Proofs.FaultLabels
import SdkHeaders.Proofs.DuplicateLabels
import SdkHeaders.Proofs.EnumeratorSearch
import SdkHeaders.Proofs.ScopeTrees
import SdkHeaders.Proofs.ScopeLevels
import SdkHeaders.Proofs.EmbeddedText
import SdkHeaders.Proofs.NarrowestTypes
import SdkHeaders.Proofs.IncludeLines
import SdkHeaders.Proofs.BoundPlaces
import SdkHeaders.Proofs.ModelAdditions
import SdkHeaders.Proofs.Identifiers
import SdkHeaders.Proofs.HeaderSpace
import SdkHeaders.Proofs.Positions
import SdkHeaders.Proofs.EscapedText
