import Reckoner.Fault

/-!
# Outcomes

A computation ends in a fault or in a value. Two computations agree if they end in the same fault
or in related values (`Agree`), and what goes on from related values in ways that agree does not
break the agreement (`Agree.bind`).
-/

namespace Reckoner

theorem ok_bind {α β : Type} (a : α) (f : α → Except Fault β) : (Except.ok a >>= f) = f a := rfl

theorem bind_eq_ok {α β : Type} {x : Except Fault α} {f : α → Except Fault β} {b : β} :
    (x >>= f) = .ok b ↔ ∃ a, x = .ok a ∧ f a = .ok b := by
  cases x with
  | error e => exact ⟨fun h => (nomatch h), fun ⟨_, h, _⟩ => (nomatch h)⟩
  | ok a => exact ⟨fun h => ⟨a, rfl, h⟩, fun ⟨_, h, h'⟩ => Except.ok.inj h ▸ h'⟩

theorem bind_eq_error {α β : Type} {x : Except Fault α} {f : α → Except Fault β} {e : Fault} :
    (x >>= f) = .error e ↔ x = .error e ∨ ∃ a, x = .ok a ∧ f a = .error e := by
  cases x with
  | error e' =>
    constructor
    · intro h
      cases h
      exact .inl rfl
    · rintro (h | ⟨a, h, -⟩)
      · cases h
        rfl
      · cases h
  | ok a =>
    refine ⟨fun h => .inr ⟨a, rfl, h⟩, ?_⟩
    rintro (h | ⟨a', h, h'⟩)
    · cases h
    · exact Except.ok.inj h ▸ h'

/-- The same fault, or related values. -/
def Agree {α β : Type} (R : α → β → Prop) : Except Fault α → Except Fault β → Prop
  | .ok a, .ok b => R a b
  | .error e, .error e' => e = e'
  | _, _ => False

theorem Agree.refl {α : Type} {R : α → α → Prop} (h : ∀ a, R a a) (x : Except Fault α) :
    Agree R x x := by
  cases x with
  | error e => exact rfl
  | ok a => exact h a

theorem Agree.mono {α β : Type} {R R' : α → β → Prop} {x : Except Fault α} {y : Except Fault β}
    (h : Agree R x y) (hR : ∀ a b, x = .ok a → R a b → R' a b) : Agree R' x y := by
  cases x <;> cases y
  · exact h
  · exact h
  · exact h
  · exact hR _ _ rfl h

theorem Agree.symm {α β : Type} {R : α → β → Prop} {x : Except Fault α} {y : Except Fault β}
    (h : Agree R x y) : Agree (fun b a => R a b) y x := by
  cases x <;> cases y
  · exact Eq.symm h
  · exact h
  · exact h
  · exact h

/-- A function behind the second computation may be moved into the relation. -/
theorem agree_map_right {α β γ : Type} {R : α → γ → Prop} {x : Except Fault α}
    {y : Except Fault β} {f : β → γ} :
    Agree R x (y >>= fun b => .ok (f b)) ↔ Agree (fun a b => R a (f b)) x y := by
  cases x <;> cases y <;> exact Iff.rfl

theorem Agree.bind {α β γ δ : Type} {R : α → β → Prop} {S : γ → δ → Prop} {x : Except Fault α}
    {y : Except Fault β} {f : α → Except Fault γ} {g : β → Except Fault δ} (h : Agree R x y)
    (hfg : ∀ a b, R a b → Agree S (f a) (g b)) : Agree S (x >>= f) (y >>= g) := by
  cases x <;> cases y
  · exact h
  · exact h.elim
  · exact h.elim
  · exact hfg _ _ h

end Reckoner
