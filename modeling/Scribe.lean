import Scribe.Language
import Scribe.Proofs.Roles
import Scribe.Session
import Scribe.Proofs.CodeRoles
import Scribe.Proofs.Neutral
import Scribe.Proofs.Flat
import Scribe.Proofs.Placed
import Scribe.Proofs.Setter
import Scribe.Proofs.Sites
import Scribe.Proofs.Hoisting
import Scribe.Proofs.Equality
import Scribe.Proofs.Congruence
import Scribe.Proofs.Matched
import Scribe.Proofs.Shown
import Scribe.Proofs.SameText
import Scribe.Proofs.DeclarationRoles
import Scribe.Proofs.Indentation
import Scribe.Proofs.Bracketless
import Scribe.Proofs.Members
import Scribe.Proofs.NestedCode
import Scribe.Proofs.NestedDeclarations
import Scribe.Proofs.Renders
import Scribe.Proofs.Reuse
import Scribe.Proofs.MethodNames
import Scribe.Proofs.Memberless
import Scribe.Proofs.Listing
import Scribe.Proofs.Agreement
import Scribe.Proofs.Variation
import Scribe.Proofs.Renaming
import Scribe.Proofs.Numerals
import Scribe.Proofs.Quotation
import Scribe.Proofs.Scan
import Scribe.Proofs.NumberFormat
import Scribe.Proofs.Readability
import Scribe.Proofs.UnaryChains
import Scribe.Proofs.Retelling
import Scribe.Proofs.MemberTargets
import Scribe.Proofs.Lowering
import Scribe.Proofs.Blocks
import Scribe.Proofs.SwitchLabels
import Scribe.Proofs.Operands
import Scribe.Proofs.Rounding
import Scribe.Proofs.NumeralReading
import Scribe.Proofs.Singles
import Scribe.Proofs.SingleRange
import Scribe.Proofs.Comments
import Scribe.Proofs.ParameterLists
import Scribe.Proofs.Prototypes
import Scribe.Proofs.LineLayout
import Scribe.Proofs.Frame
import Scribe.Proofs.Restyling
