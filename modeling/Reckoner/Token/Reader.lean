import Reckoner.Decimal.Literal
import Reckoner.Fault
import Reckoner.Text.Runs
import Reckoner.Token.Basic
import Reckoner.Unicode.Classes

/-!
# Reading tokens

Blanks are dropped first; then the text is cut into runs of digits and points, which are numbers,
and single characters, which are signs. A minus where an operand is expected is the sign of what
follows: a number takes it into its value, and an opening parenthesis is preceded by a subtraction
from zero. Reading stops at the leftmost fault.
-/

namespace Reckoner.Token

open Text Unicode

/-- The value of a run of digits and points. -/
def readLiteral (text : List Char) : Except Fault Float :=
  match Decimal.read? text with
  | some x => .ok x
  | none => .error (.literal text)

/-- The tokens of pieces; the flag says whether an operand is expected at their start. -/
def ofPieces : Bool → List Piece → Except Fault (List Token)
  | _, [] => .ok []
  | _, .run t :: rest => do
    let x ← readLiteral t
    let tokens ← ofPieces false rest
    return .number x :: tokens
  | true, .single '-' :: .single '(' :: rest => do
    let tokens ← ofPieces true rest
    return .number 0 :: .operator .minus :: .opening :: tokens
  | true, .single '-' :: .run t :: rest => do
    let x ← readLiteral t
    let tokens ← ofPieces false rest
    return .number (-x) :: tokens
  | true, .single '-' :: _ => .error (.malformed .bareSign)
  | _, .single c :: rest =>
    match ofSymbol? c with
    | some token => do
      let tokens ← ofPieces token.expectsOperand rest
      return token :: tokens
    | none => .error (.malformed (.unexpected c))

/-- The tokens of a text. -/
def read (text : List Char) : Except Fault (List Token) :=
  match text.filter (!isBlank ·) with
  | [] => .error .empty
  | cs => ofPieces true (pieces Decimal.isLiteralChar cs)

end Reckoner.Token
