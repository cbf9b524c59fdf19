import Reckoner.Proofs.Double.ZeroSign
import Reckoner.Proofs.Evaluation.Run

/-!
# Runs up to the sign of zero

Stacks are alike if the same operators wait on them and their values are alike, one by one
(`Stacks.AlikeStacks`). Every step keeps stacks alike, so whole runs do, and what is left to do at
the end does (`Stacks.agree_outcome`): nothing that a list of tokens does later brings out the sign
of a zero, and a fault stays the fault that it is.
-/

namespace Reckoner

open Double

/-! ## Operators -/

theorem agree_apply (op : Operator) {a a' b b' : Float} (ha : Alike a a') (hb : Alike b b') :
    Agree Alike (op.apply a b) (op.apply a' b') := by
  match op with
  | .plus => exact ha.add hb
  | .minus => exact ha.sub hb
  | .times => exact ha.mul hb
  | .over =>
    simp only [Operator.apply, hb.beq_zero]
    by_cases hz : (b' == 0) = true
    · rw [if_pos hz, if_pos hz]
      exact rfl
    · rw [if_neg hz, if_neg hz]
      obtain rfl | ⟨-, hb'⟩ := hb
      · exact ha.div fun h => hz (beq_zero_iff.2 h)
      · exact absurd (beq_zero_iff.2 hb') hz

theorem agree_checkFinite {x y : Float} (h : Alike x y) :
    Agree Alike (checkFinite x) (checkFinite y) := by
  obtain rfl | ⟨hx, hy⟩ := h.isFinite
  · exact .refl .refl _
  · rw [checkFinite, if_pos hx, checkFinite, if_pos hy]
    exact h

/-- Products and quotients change their sign with their first operand. -/
theorem agree_apply_neg {op : Operator} (h : op.rank = 2) {a a' : Float} (ha : Alike a' (-a))
    (b : Float) : Agree (fun x y => Alike y (-x)) (op.apply a b) (op.apply a' b) := by
  have neg_apply : op.apply (-a) b = op.apply a b >>= fun x => .ok (-x) := by
    match op, h with
    | .times, _ => rw [Operator.apply, Operator.apply, ok_bind, mul_neg_left]
    | .over, _ =>
      rw [Operator.apply, Operator.apply]
      by_cases hb : (b == 0) = true
      · rw [if_pos hb, if_pos hb]
        rfl
      · rw [if_neg hb, if_neg hb, ok_bind, div_neg_left]
  have happ := agree_apply op ha (.refl b)
  rw [neg_apply, agree_map_right] at happ
  exact happ.symm

/-! ## Stacks -/

namespace Stacks

/-- Values that are alike, one by one. -/
abbrev AlikeValues : List Float → List Float → Prop := List.Forall₂ Alike

/-- The same operators wait, and the values are alike. -/
structure AlikeStacks (s t : Stacks) : Prop where
  values : AlikeValues s.values t.values
  waiting : s.waiting = t.waiting

theorem AlikeValues.refl (vs : List Float) : AlikeValues vs vs :=
  List.forall₂_same.2 fun x _ => .refl x

theorem agree_applyTop (op : Operator) {vs us : List Float} (h : AlikeValues vs us) :
    Agree AlikeValues (apply op vs) (apply op us) := by
  match h with
  | .nil => exact rfl
  | .cons _ .nil => exact rfl
  | .cons hb (.cons ha h) => exact (agree_apply op ha hb).bind fun x y hxy => .cons hxy h

theorem agree_unwind (op : Operator) {vs us : List Float} (h : AlikeValues vs us)
    (ws : List Waiting) : Agree AlikeStacks (unwind op vs ws) (unwind op us ws) := by
  induction ws generalizing vs us with
  | nil => exact ⟨h, rfl⟩
  | cons w ws ih =>
    cases w with
    | opening => exact ⟨h, rfl⟩
    | operator top =>
      unfold unwind
      split
      · exact ⟨h, rfl⟩
      · exact (agree_applyTop top h).bind fun _ _ h => ih h

theorem agree_close {vs us : List Float} (h : AlikeValues vs us) (ws : List Waiting) :
    Agree AlikeStacks (close vs ws) (close us ws) := by
  induction ws generalizing vs us with
  | nil => exact rfl
  | cons w ws ih =>
    cases w with
    | opening => exact ⟨h, rfl⟩
    | operator top => exact (agree_applyTop top h).bind fun _ _ h => ih h

theorem agree_finish {vs us : List Float} (h : AlikeValues vs us) (ws : List Waiting) :
    Agree AlikeValues (finish vs ws) (finish us ws) := by
  induction ws generalizing vs us with
  | nil => exact h
  | cons w ws ih =>
    cases w with
    | opening => exact rfl
    | operator top => exact (agree_applyTop top h).bind fun _ _ h => ih h

theorem alike_base {x y : Float} {vs us : List Float} (hx : Alike x y) (h : AlikeValues vs us)
    (ws : List Waiting) : Alike (base x vs ws) (base y us ws) := by
  have below : Alike (vs.head?.getD x) (us.head?.getD y) := by
    cases h with
    | nil => exact hx
    | cons h _ => exact h
  match ws with
  | .operator .plus :: _ | .operator .minus :: _ => exact below
  | .operator .times :: _ | .operator .over :: _ | .opening :: _ | [] => exact .refl 1

theorem agree_step {s t : Stacks} (h : AlikeStacks s t) (tok : Token) :
    Agree AlikeStacks (s.step tok) (t.step tok) := by
  obtain ⟨vs, ws⟩ := s
  obtain ⟨us, ws'⟩ := t
  obtain ⟨h, rfl : ws = ws'⟩ := h
  cases tok with
  | number x => exact ⟨.cons (.refl x) h, rfl⟩
  | opening => exact ⟨h, rfl⟩
  | closing => exact agree_close h ws
  | operator op => exact (agree_unwind op h ws).bind fun _ _ h => ⟨h.values, by rw [h.waiting]⟩
  | percent =>
    cases h with
    | nil => exact rfl
    | cons hx h => exact ⟨.cons ((alike_base hx h ws).percentOf hx) h, rfl⟩

theorem agree_run {s t : Stacks} (h : AlikeStacks s t) (ts : List Token) :
    Agree AlikeStacks (s.run ts) (t.run ts) := by
  induction ts generalizing s t with
  | nil => exact h
  | cons tok ts ih => exact (agree_step h tok).bind fun _ _ h => ih h

theorem agree_result {vs us : List Float} (h : AlikeValues vs us) :
    Agree Alike (result vs) (result us) := by
  match h with
  | .nil => exact rfl
  | .cons hx .nil => exact agree_checkFinite hx
  | .cons _ (.cons _ h) =>
    simp only [result, List.length_cons, h.length_eq]
    exact rfl

/-- **Alike stacks make the same of what is still to be read.** -/
theorem agree_outcome {s t : Stacks} (h : AlikeStacks s t) (ts : List Token) :
    Agree Alike (s.outcome ts) (t.outcome ts) := by
  refine (agree_run h ts).bind fun s t h => ?_
  rw [h.waiting]
  exact (agree_finish h.values _).bind fun _ _ => agree_result

end Stacks

end Reckoner
