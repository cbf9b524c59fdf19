import Reckoner.Operator

/-!
# Tokens of an expression

Numbers, the four operators, the percent sign and parentheses. `Token.render` shows a list of
tokens with one space between two of them, numbers with ten places.
-/

namespace Reckoner

/-- A token of an expression. -/
inductive Token
  | number (value : Float)
  | operator (op : Operator)
  | percent
  | opening
  | closing
  deriving DecidableEq

namespace Token

/-- The token of a sign. -/
def ofSymbol? : Char → Option Token
  | '+' => some (.operator .plus)
  | '-' => some (.operator .minus)
  | '*' => some (.operator .times)
  | '/' => some (.operator .over)
  | '%' => some .percent
  | '(' => some .opening
  | ')' => some .closing
  | _ => none

/-- Whether an operand has to follow: then a minus is a sign, and no operator. -/
def expectsOperand : Token → Bool
  | .operator _ | .opening => true
  | .number _ | .percent | .closing => false

/-- The text of a token. -/
def text : Token → String
  | .number x => Decimal.text x
  | .operator op => op.symbol.toString
  | .percent => "%"
  | .opening => "("
  | .closing => ")"

theorem ofSymbol?_symbol (op : Operator) : ofSymbol? op.symbol = some (.operator op) := by
  cases op <;> rfl

/-- The text of a list of tokens. -/
def render (tokens : List Token) : String := " ".intercalate (tokens.map text)

end Token

end Reckoner
