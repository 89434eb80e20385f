import Entailment.Proofs.ArgumentOutcome
import Entailment.Proofs.CanonicalText
import Entailment.Proofs.CorrectPrefix
import Entailment.Proofs.LongestMatch
import Entailment.Proofs.Tautologies
import Entailment.Proofs.Sessions
import Entailment.Proofs.RenderedTokens
import Entailment.Proofs.SymbolOrder
import Entailment.Proofs.StructuralRules
import Entailment.Proofs.CanonicalArgument
import Entailment.Proofs.EnumerationOrder
import Entailment.Proofs.StrictEvaluation
import Entailment.Proofs.UnreadableText
import Entailment.Proofs.ScanProgress
import Entailment.Proofs.BlankSeparated
import Entailment.Proofs.UnmetSymbols
import Entailment.Proofs.FinalMarker
import Entailment.Proofs.TokenSubstitution
import Entailment.Proofs.UniformSubstitution
import Entailment.Proofs.Renaming
import Entailment.Proofs.DeductionLaw
import Entailment.Proofs.Equivalents
import Entailment.Proofs.DeductiveClosure
import Entailment.Proofs.PreorderVisits
import Entailment.Proofs.PartialEnumeration
import Entailment.Proofs.FirstSeen
