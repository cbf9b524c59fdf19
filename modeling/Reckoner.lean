import Reckoner.Expression
import Reckoner.Main
import Reckoner.Proofs.Answer.Negation
import Reckoner.Proofs.Answer.Shown
import Reckoner.Proofs.Answer.Whole
import Reckoner.Proofs.Equation.Exact
import Reckoner.Proofs.Equation.Exchange
import Reckoner.Proofs.Equation.Transposition
import Reckoner.Proofs.Evaluation.Enclosed
import Reckoner.Proofs.Evaluation.Ledger
import Reckoner.Proofs.Evaluation.Operands
import Reckoner.Proofs.Evaluation.Trees
import Reckoner.Proofs.Decimal.Grammar
import Reckoner.Proofs.Polynomial.Grammar
import Reckoner.Proofs.Token.Faults
import Reckoner.Proofs.Token.Shown
import Reckoner.Proofs.Text.Fusion
import Reckoner.Proofs.Text.Phrases
import Reckoner.Proofs.Wording.Rules
import Reckoner.Proofs.Wording.Thousands
import Reckoner.Proofs.Wording.Reading
import Reckoner.Proofs.Wording.Calculation
import Reckoner.Proofs.Wording.Spelling
import Reckoner.Proofs.Wording.Equation
import Reckoner.Proofs.Equation.Dispatch
import Reckoner.Proofs.Double.Overflow
import Reckoner.Proofs.Equation.Finite
import Reckoner.Proofs.Equation.Blanks
import Reckoner.Proofs.Wording.Direct
import Reckoner.Proofs.Wording.Parts
import Reckoner.Proofs.Wording.Percent
import Reckoner.Proofs.Session.Lines
import Reckoner.Proofs.Text.Unbroken
import Reckoner.Proofs.Wording.Unknowns
import Reckoner.Proofs.Decimal.Rounded
import Reckoner.Proofs.Polynomial.History
import Reckoner.Proofs.Polynomial.Shown
import Reckoner.Proofs.Wording.Commas
import Reckoner.Proofs.Answer.Alphabets
import Reckoner.Proofs.Answer.Sentences
import Reckoner.Proofs.Session.Framing
