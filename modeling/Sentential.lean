import Sentential.Main
import Sentential.Proofs.Attribution
import Sentential.Proofs.Bracketing
import Sentential.Proofs.Chains
import Sentential.Proofs.Colours
import Sentential.Proofs.Denotation
import Sentential.Proofs.Exhaustion
import Sentential.Proofs.Fragments
import Sentential.Proofs.Inputs
import Sentential.Proofs.Layout
import Sentential.Proofs.LeftmostSplit
import Sentential.Proofs.Lookup
import Sentential.Proofs.OuterPairs
import Sentential.Proofs.QuotedNames
import Sentential.Proofs.Renaming
import Sentential.Proofs.RowOrder
import Sentential.Proofs.Sessions
import Sentential.Proofs.Tokens
import Sentential.Proofs.WideFormulas
