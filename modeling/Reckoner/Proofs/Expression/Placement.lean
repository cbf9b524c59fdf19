import Reckoner.Expression

/-!
# Placement of tokens

Which lists of tokens the grammar of expressions has, said without trees. In a `Placed` list a
number or an opening parenthesis stands exactly where an operand is expected: first, and behind an
operator or an opening parenthesis. In a `Balanced` one the parentheses match.

Main statements:
* `exists_tokens_eq_iff`: the lists of tokens of expressions are those that are placed and
  balanced;
* `exists_scaling`: from behind an operand, a placed and balanced list carries on with the factors
  of the same product, and then with something that ends the product.
-/

namespace Reckoner

namespace Token

/-- Whether an operand may start with a token. -/
def startsOperand : Token → Bool
  | .number _ | .opening => true
  | .operator _ | .percent | .closing => false

/-- Every token stands where one of its kind may stand; the flag says whether an operand is
expected first. At the end none may be. -/
def Placed : Bool → List Token → Prop
  | expects, [] => expects = false
  | expects, t :: ts => t.startsOperand = expects ∧ Placed t.expectsOperand ts

/-- Whether an operand is expected behind some tokens. -/
def expectsAfter (expects : Bool) (ts : List Token) : Bool :=
  ts.foldl (fun _ t => t.expectsOperand) expects

theorem Placed.of_append {b : Bool} {ts us : List Token} (h : Placed b (ts ++ us)) :
    Placed (expectsAfter b ts) us := by
  induction ts generalizing b with
  | nil => exact h
  | cons t ts ih => exact ih h.2

/-- Behind `d` open parentheses, every parenthesis has its partner. -/
def Balanced : Nat → List Token → Prop
  | d, [] => d = 0
  | d, .opening :: ts => Balanced (d + 1) ts
  | 0, .closing :: _ => False
  | d + 1, .closing :: ts => Balanced d ts
  | d, .number _ :: ts | d, .operator _ :: ts | d, .percent :: ts => Balanced d ts

theorem Balanced.of_append {d : Nat} {ts us : List Token} (h : Balanced d (ts ++ us)) :
    ∃ d', Balanced d' us := by
  induction ts generalizing d with
  | nil => exact ⟨d, h⟩
  | cons t ts ih =>
    cases t with
    | number _ | operator _ | percent | opening => exact ih h
    | closing =>
      cases d with
      | zero => exact h.elim
      | succ d => exact ih h

instance decidablePlaced : (b : Bool) → (ts : List Token) → Decidable (Placed b ts)
  | b, [] => inferInstanceAs (Decidable (b = false))
  | b, t :: ts =>
    have := decidablePlaced t.expectsOperand ts
    inferInstanceAs (Decidable (t.startsOperand = b ∧ Placed t.expectsOperand ts))

/-- Tokens that carry no expression of a level on. -/
def Ends (l : Level) : List Token → Prop
  | .percent :: _ => False
  | .operator op :: _ => op.rank < l.rank
  | _ => True

end Token

open Token

/-! ## The tokens of an expression -/

theorem Expression.placed_tokens_append {l : Level} (e : Expression l) (ts : List Token) :
    Placed true (e.tokens ++ ts) ↔ Placed false ts := by
  induction e generalizing ts with
  | number x => simp [tokens, Placed, startsOperand, expectsOperand]
  | parentheses e ih =>
    simp [tokens, Placed, startsOperand, expectsOperand, List.append_assoc, ih]
  | ofPrimary e ih | ofFactor e ih | ofProduct e ih => exact ih ts
  | percent e ih => simp [tokens, Placed, startsOperand, expectsOperand, List.append_assoc, ih]
  | scale left op _ right ihl ihr | combine left op _ right ihl ihr =>
    simp [tokens, Placed, startsOperand, expectsOperand, List.append_assoc, ihl, ihr]

/-- Behind an expression no operand is expected. -/
theorem Expression.expectsAfter_tokens {l : Level} (e : Expression l) :
    expectsAfter true e.tokens = false :=
  Placed.of_append ((e.placed_tokens_append []).2 rfl)

theorem Expression.balanced_tokens_append {l : Level} (e : Expression l) (d : Nat)
    (ts : List Token) : Token.Balanced d (e.tokens ++ ts) ↔ Token.Balanced d ts := by
  induction e generalizing d ts with
  | number x => simp [tokens, Token.Balanced]
  | parentheses e ih => simp [tokens, Token.Balanced, List.append_assoc, ih]
  | ofPrimary e ih | ofFactor e ih | ofProduct e ih => exact ih d ts
  | percent e ih => simp [tokens, Token.Balanced, List.append_assoc, ih]
  | scale left op _ right ihl ihr | combine left op _ right ihl ihr =>
    simp [tokens, Token.Balanced, List.append_assoc, ihl, ihr]

/-! ## Factors in a row -/

/-- Factors, each with the operator before it. -/
abbrev Scaling := List ({op : Operator // op.rank = 2} × Expression .factor)

/-- The tokens of factors in a row. -/
def Scaling.tokens (fs : Scaling) : List Token :=
  fs.flatMap fun f => .operator f.1 :: f.2.tokens

/-- A product with further factors. -/
def Expression.scaleBy (e : Expression .product) (fs : Scaling) : Expression .product :=
  fs.foldl (fun e f => e.scale f.1 f.1.2 f.2) e

theorem Expression.tokens_scaleBy (e : Expression .product) (fs : Scaling) :
    (e.scaleBy fs).tokens = e.tokens ++ fs.tokens := by
  induction fs generalizing e with
  | nil => exact (List.append_nil _).symm
  | cons f fs ih =>
    refine (ih _).trans ?_
    simp [Scaling.tokens, tokens]

/-! ## Reading expressions -/

/-- A list starts with an expression of a level that nothing behind it carries on. -/
def Reads (l : Level) (d : Nat) (ts : List Token) : Prop :=
  ∃ (e : Expression l) (rest : List Token),
    ts = e.tokens ++ rest ∧ Ends l rest ∧ Placed false rest ∧ Balanced d rest

/-- Percent signs behind a factor belong to it. -/
theorem reads_percents (f : Expression .factor) {d : Nat} {ts : List Token}
    (hp : Placed false ts) (hb : Balanced d ts) : Reads .factor d (f.tokens ++ ts) := by
  induction ts generalizing f with
  | nil => exact ⟨f, [], rfl, trivial, hp, hb⟩
  | cons t ts ih =>
    cases t with
    | percent =>
      obtain ⟨e, rest, h, hrest⟩ := ih f.percent hp.2 hb
      exact ⟨e, rest, by simpa [Expression.tokens] using h, hrest⟩
    | operator op => exact ⟨f, _, rfl, show op.rank < 3 by cases op <;> decide, hp, hb⟩
    | closing => exact ⟨f, _, rfl, trivial, hp, hb⟩
    | number x => cases hp.1
    | opening => cases hp.1

/-- The factors of all lists shorter than `n` can be read. -/
def ReadsBelow (n : Nat) : Prop :=
  ∀ ts : List Token, ts.length < n → ∀ d, Placed true ts → Balanced d ts → Reads .factor d ts

theorem ReadsBelow.pred {n : Nat} (h : ReadsBelow (n + 1)) : ReadsBelow n :=
  fun ts hts => h ts (Nat.lt_succ_of_lt hts)

/-- Behind a factor, the product carries on with factors and then ends. -/
theorem exists_scaling_of_readsBelow {n : Nat} (below : ReadsBelow n) {d : Nat} {ts : List Token}
    (hn : ts.length ≤ n) (hp : Placed false ts) (hb : Balanced d ts) (he : Ends .factor ts) :
    ∃ (fs : Scaling) (rest : List Token),
      ts = fs.tokens ++ rest ∧ Ends .product rest ∧ Placed false rest ∧ Balanced d rest := by
  induction n generalizing ts with
  | zero =>
    obtain rfl := List.length_eq_zero_iff.1 (Nat.le_zero.1 hn)
    exact ⟨[], [], rfl, trivial, hp, hb⟩
  | succ n ih =>
    match ts with
    | [] => exact ⟨[], [], rfl, trivial, hp, hb⟩
    | .closing :: _ => exact ⟨[], _, rfl, trivial, hp, hb⟩
    | .operator op :: us =>
      by_cases hop : op.rank = 2
      · obtain ⟨f, vs, rfl, hve, hvp, hvb⟩ := below us hn d hp.2 hb
        have hlen : vs.length ≤ n := by
          simp only [List.length_cons, List.length_append] at hn
          omega
        obtain ⟨fs, rest, rfl, hrest⟩ := ih below.pred hlen hvp hvb hve
        exact ⟨(⟨op, hop⟩, f) :: fs, rest, by simp [Scaling.tokens], hrest⟩
      · refine ⟨[], _, rfl, ?_, hp, hb⟩
        show op.rank < 2
        cases op <;> simp_all [Operator.rank]
    | .percent :: _ => exact he.elim
    | .number _ :: _ | .opening :: _ => exact absurd hp.1 (by simp [startsOperand])

/-- Where an operand is expected, a product stands. -/
theorem reads_product_of_readsBelow {n : Nat} (below : ReadsBelow n) {d : Nat} {ts : List Token}
    (hn : ts.length < n) (hp : Placed true ts) (hb : Balanced d ts) : Reads .product d ts := by
  obtain ⟨f, us, rfl, hue, hup, hub⟩ := below ts hn d hp hb
  have hlen : us.length ≤ n := by
    rw [List.length_append] at hn
    omega
  obtain ⟨fs, rest, rfl, hrest⟩ := exists_scaling_of_readsBelow below hlen hup hub hue
  refine ⟨(Expression.ofFactor f).scaleBy fs, rest, ?_, hrest⟩
  rw [Expression.tokens_scaleBy, List.append_assoc]
  rfl

/-- Behind a product, the sum carries on with products and then ends. -/
theorem reads_sum_append {n : Nat} (below : ReadsBelow n) {d : Nat} (e : Expression .sum)
    {ts : List Token} (hn : ts.length ≤ n) (hp : Placed false ts) (hb : Balanced d ts)
    (he : Ends .product ts) : Reads .sum d (e.tokens ++ ts) := by
  induction n generalizing ts e with
  | zero =>
    obtain rfl := List.length_eq_zero_iff.1 (Nat.le_zero.1 hn)
    exact ⟨e, [], rfl, trivial, hp, hb⟩
  | succ n ih =>
    match ts with
    | [] => exact ⟨e, [], rfl, trivial, hp, hb⟩
    | .closing :: _ => exact ⟨e, _, rfl, trivial, hp, hb⟩
    | .operator op :: us =>
      have hop : op.rank = 1 := by
        have : op.rank < 2 := he
        cases op <;> simp_all [Operator.rank]
      obtain ⟨f, vs, rfl, hve, hvp, hvb⟩ := reads_product_of_readsBelow below hn hp.2 hb
      have hlen : vs.length ≤ n := by
        simp only [List.length_cons, List.length_append] at hn
        omega
      have h := ih below.pred (e.combine op hop f) hlen hvp hvb hve
      simpa [Expression.tokens] using h
    | .percent :: _ => exact he.elim
    | .number _ :: _ | .opening :: _ => exact absurd hp.1 (by simp [startsOperand])

/-- Where an operand is expected, a sum stands. -/
theorem reads_sum_of_readsBelow {n : Nat} (below : ReadsBelow n) {d : Nat} {ts : List Token}
    (hn : ts.length < n) (hp : Placed true ts) (hb : Balanced d ts) : Reads .sum d ts := by
  obtain ⟨p, us, rfl, hue, hup, hub⟩ := reads_product_of_readsBelow below hn hp hb
  rw [List.length_append] at hn
  exact reads_sum_append below (.ofProduct p) (by omega) hup hub hue

/-- What ends a sum is the end of the list or a closing parenthesis. -/
theorem ends_sum_cases {ts : List Token} (hp : Placed false ts) (he : Ends .sum ts) :
    ts = [] ∨ ∃ us, ts = .closing :: us := by
  match ts with
  | [] => exact .inl rfl
  | .closing :: us => exact .inr ⟨us, rfl⟩
  | .operator op :: _ =>
    have : op.rank < 1 := he
    cases op <;> simp [Operator.rank] at this
  | .percent :: _ => exact he.elim
  | .number _ :: _ | .opening :: _ => exact absurd hp.1 (by simp [startsOperand])

/-- Where an operand is expected, a factor stands. -/
theorem readsBelow (n : Nat) : ReadsBelow n := by
  induction n with
  | zero => exact fun ts h => absurd h (Nat.not_lt_zero _)
  | succ n below =>
    intro ts hn d hp hb
    match ts with
    | [] => cases hp
    | .number x :: us => exact reads_percents (.ofPrimary (.number x)) hp.2 hb
    | .opening :: us =>
      obtain ⟨e, vs, rfl, hve, hvp, hvb⟩ :=
        reads_sum_of_readsBelow below (Nat.lt_of_succ_lt_succ hn) hp.2 hb
      obtain rfl | ⟨ws, rfl⟩ := ends_sum_cases hvp hve
      · cases hvb
      · have h := reads_percents (.ofPrimary (.parentheses e)) hvp.2 hvb
        simpa [Expression.tokens] using h
    | .operator _ :: _ | .percent :: _ | .closing :: _ =>
      exact absurd hp.1 (by simp [startsOperand])

/-- **From behind an operand, the product carries on with factors and then ends.** -/
theorem exists_scaling {d : Nat} {ts : List Token} (hp : Placed false ts) (hb : Balanced d ts)
    (he : Ends .factor ts) :
    ∃ (fs : Scaling) (rest : List Token),
      ts = fs.tokens ++ rest ∧ Ends .product rest ∧ Placed false rest ∧ Balanced d rest :=
  exists_scaling_of_readsBelow (readsBelow _) Nat.le.refl hp hb he

/-- **The lists of tokens of expressions are those that are placed and balanced.** -/
theorem exists_tokens_eq_iff {ts : List Token} :
    (∃ e : Expression .sum, e.tokens = ts) ↔ Placed true ts ∧ Balanced 0 ts := by
  constructor
  · rintro ⟨e, rfl⟩
    rw [← List.append_nil e.tokens, e.placed_tokens_append, e.balanced_tokens_append]
    exact ⟨rfl, rfl⟩
  · rintro ⟨hp, hb⟩
    obtain ⟨e, us, rfl, hue, hup, hub⟩ :=
      reads_sum_of_readsBelow (readsBelow _) (Nat.lt_succ_self _) hp hb
    obtain rfl | ⟨vs, rfl⟩ := ends_sum_cases hup hue
    · exact ⟨e, (List.append_nil _).symm⟩
    · exact hub.elim

end Reckoner
