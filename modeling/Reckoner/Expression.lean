import Reckoner.Token.Basic

/-!
# Expressions

The syntax trees of calculations. A sum combines products, a product combines factors, both from
left to right; a factor is a number or a sum in parentheses, with any number of percent signs
behind it. `Expression.tokens` writes a tree down, and `Expression.value` computes it along its
structure: it says what the value of a list of tokens has to be, without any stack.

The percent signs on the first factor of a product take the sum to the left of the product as their
base, all others take one.
-/

namespace Reckoner

/-- The levels of the grammar, the one that binds most strongly first. -/
inductive Level
  | primary
  | factor
  | product
  | sum
  deriving DecidableEq

/-- How strongly the operators of a level bind; above a product there are none. -/
def Level.rank : Level → Nat
  | .sum => 1
  | .product => 2
  | .factor | .primary => 3

/-- An expression of a level. -/
inductive Expression : Level → Type
  | number (x : Float) : Expression .primary
  | parentheses (e : Expression .sum) : Expression .primary
  | ofPrimary (e : Expression .primary) : Expression .factor
  | percent (e : Expression .factor) : Expression .factor
  | ofFactor (e : Expression .factor) : Expression .product
  | scale (left : Expression .product) (op : Operator) (rank_eq : op.rank = 2)
      (right : Expression .factor) : Expression .product
  | ofProduct (e : Expression .product) : Expression .sum
  | combine (left : Expression .sum) (op : Operator) (rank_eq : op.rank = 1)
      (right : Expression .product) : Expression .sum

namespace Expression

/-- The tokens of an expression. -/
def tokens {l : Level} : Expression l → List Token
  | .number x => [.number x]
  | .parentheses e => .opening :: e.tokens ++ [.closing]
  | .ofPrimary e | .ofFactor e | .ofProduct e => e.tokens
  | .percent e => e.tokens ++ [.percent]
  | .scale left op _ right => left.tokens ++ .operator op :: right.tokens
  | .combine left op _ right => left.tokens ++ .operator op :: right.tokens

/-- The value of an expression, with the base of the percent signs on its first factor. -/
def valueOver {l : Level} (base : Float) : Expression l → Except Fault Float
  | .number x => .ok x
  | .parentheses e => e.valueOver 1
  | .ofPrimary e | .ofFactor e => e.valueOver base
  | .percent e => do return percentOf base (← e.valueOver base)
  | .scale left op _ right => do op.apply (← left.valueOver base) (← right.valueOver 1)
  | .ofProduct e => e.valueOver 1
  | .combine left op _ right => do
    let a ← left.valueOver 1
    op.apply a (← right.valueOver a)

/-- The value of a whole expression, which has to be finite. -/
def value (e : Expression .sum) : Except Fault Float := do checkFinite (← e.valueOver 1)

end Expression

end Reckoner
