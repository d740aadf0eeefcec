import Stylesheet.Number.Reading
import Stylesheet.Session
import Stylesheet.Proofs.Comparison
import Stylesheet.Proofs.Constructs
import Stylesheet.Proofs.Blanks
import Stylesheet.Proofs.Reuse
import Stylesheet.Proofs.Grouping
import Stylesheet.Proofs.Brackets
import Stylesheet.Proofs.Typing
import Stylesheet.Proofs.Containment
import Stylesheet.Proofs.Levels
import Stylesheet.Proofs.Tokens
import Stylesheet.Proofs.Chains
import Stylesheet.Proofs.Decoding
import Stylesheet.Proofs.Strings
import Stylesheet.Proofs.Grammar
import Stylesheet.Proofs.Trimming
import Stylesheet.Proofs.Bodies
import Stylesheet.Proofs.Ownership
import Stylesheet.Proofs.Compounds
import Stylesheet.Proofs.Synonyms
import Stylesheet.Proofs.Visits
import Stylesheet.Proofs.Notes
import Stylesheet.Proofs.Woven
import Stylesheet.Proofs.Weaving
import Stylesheet.Proofs.Conditions
import Stylesheet.Proofs.Offences
import Stylesheet.Proofs.Spelling
import Stylesheet.Proofs.Shifting
import Stylesheet.Proofs.Normal
import Stylesheet.Proofs.Likeness
import Stylesheet.Proofs.Midpoints
import Stylesheet.Proofs.Numerals
import Stylesheet.Proofs.Amounts
import Stylesheet.Proofs.Independence
import Stylesheet.Proofs.Narrowing
import Stylesheet.Proofs.Keeping
import Stylesheet.Proofs.TakingOver
import Stylesheet.Proofs.Weaving
import Stylesheet.Proofs.Conditions
