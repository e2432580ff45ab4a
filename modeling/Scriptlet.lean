import Scriptlet.Main
import Scriptlet.Proofs.ArrayWrites
import Scriptlet.Proofs.ErrorPlaces
import Scriptlet.Proofs.ExpressionParsing
import Scriptlet.Proofs.FixedReceivers
import Scriptlet.Proofs.LineIndependence
import Scriptlet.Proofs.LoopMeaning
import Scriptlet.Proofs.NewInstances
import Scriptlet.Proofs.ParserProgress
import Scriptlet.Proofs.QuietTargets
import Scriptlet.Proofs.ReadAfterWrite
import Scriptlet.Proofs.RefusedOperands
import Scriptlet.Proofs.RenderRoundTrip
import Scriptlet.Proofs.ScanCompleteness
import Scriptlet.Proofs.SessionLines
import Scriptlet.Proofs.SortedTables
import Scriptlet.Proofs.SpacedTokens
import Scriptlet.Proofs.StepAssignment
import Scriptlet.Proofs.WellFormedTrees
import Scriptlet.Proofs.WordOperators
import Scriptlet.Syntax.Outline
