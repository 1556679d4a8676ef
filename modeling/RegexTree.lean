import RegexTree.Main
import RegexTree.Proofs.RoundTrip
import RegexTree.Proofs.Violations
import RegexTree.Proofs.Offences
import RegexTree.Proofs.Meaning
import RegexTree.Proofs.FrontEnds
import RegexTree.Proofs.Convert
import RegexTree.Proofs.Printed
import RegexTree.Proofs.Held
import RegexTree.Proofs.Lines
import RegexTree.Proofs.Parentheses
import RegexTree.Proofs.DefaultLimit
import RegexTree.Proofs.CompiledLists
import RegexTree.Proofs.Repetition
import RegexTree.Proofs.DecodedLists
import RegexTree.Proofs.Detected
import RegexTree.Proofs.Identifiers
import RegexTree.Proofs.Replaced
import RegexTree.Proofs.Padded
import RegexTree.Proofs.ValueText
import RegexTree.Proofs.Locations
import RegexTree.Proofs.NormalValue
