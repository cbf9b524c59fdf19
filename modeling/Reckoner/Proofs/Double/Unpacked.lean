import Mathlib

/-!
# Unpacked doubles

A double is a word of 64 bits, and its operations are those on unpacked numbers: a sign, a mantissa
and an exponent, or one of the special values. Unpacking loses nothing (`pack_unpack`), and what it
gives is canonical: the mantissa has 53 bits, or fewer at the least exponent (`canonical_unpack`).
Packing a canonical number loses nothing either (`unpack_pack`). Packing keeps the sign apart from
all else, so it commutes with a change of sign even where a number is too large and becomes
infinite (`neg_pack`).
-/

namespace Reckoner.Double

open Float.Model Float.Model.UnpackedFloat

/-- The parts of a double. -/
def unpack (x : Float) : UnpackedFloat := x.toModel.unpack

/-- The double with the given parts, infinite if there is none that large. -/
def pack (u : UnpackedFloat) : Float := .ofModel (.pack u)

theorem add_eq (x y : Float) : x + y = pack (.add .binary64 (unpack x) (unpack y)) := rfl

theorem sub_eq (x y : Float) : x - y = pack (.sub .binary64 (unpack x) (unpack y)) := rfl

theorem mul_eq (x y : Float) : x * y = pack (.mul .binary64 (unpack x) (unpack y)) := rfl

theorem div_eq (x y : Float) : x / y = pack (.div .binary64 (unpack x) (unpack y)) := rfl

theorem neg_eq (x : Float) : -x = pack (unpack x).neg := rfl

/-! ## Signs -/

theorem apply_neg (s : Sign) (n : Int) : (-s).apply n = -s.apply n := by
  cases s
  · exact (Int.neg_neg n).symm
  · rfl

theorem roundWithAccuracy_neg (s : Sign) (m : Nat) (e : Int) (a : Accuracy) :
    roundWithAccuracy .binary64 (-s) m e a = (roundWithAccuracy .binary64 s m e a).neg := by
  simp only [roundWithAccuracy]
  split <;> rfl

/-! ## Fields of a word -/

theorem toNat_implicit (m : BitVec 52) : (1#1 ++ m).toNat = 2 ^ 52 + m.toNat := by
  rw [BitVec.toNat_append, ← Nat.shiftLeft_add_eq_or_of_lt m.isLt]
  rfl

/-- The parts that the three fields of a word stand for. -/
def ofFields (s : Sign) (e : BitVec 11) (m : BitVec 52) : UnpackedFloat :=
  if e = -1#_ then if m = 0#_ then .infinity s else .notANumber
  else if e = 0#_ then
    if h : m = 0#_ then .zero s
    else .finite s m.toNat (-1074) (by simpa [BitVec.toNat_pos, BitVec.pos_iff_ne_zero])
  else .finite s (2 ^ 52 + m.toNat) (e.toNat - 1075) (by omega)

theorem unpack_packComponents (s : Sign) (e : BitVec 11) (m : BitVec 52) :
    UnpackedFloat.unpack .binary64 (packComponents .binary64 s e m) = ofFields s e m := by
  have bias : (Format.binary64.exponentBias : Int) = 1023 := by decide
  simp only [UnpackedFloat.unpack, unpackMantissa_packComponents, unpackExponent_packComponents,
    unpackSign_packComponents, Sign.ofBitVec_toBitVec, toNat_implicit, bias, ofFields]
  split_ifs <;> simp_all

theorem neg_ofFields (s : Sign) (e : BitVec 11) (m : BitVec 52) :
    (ofFields s e m).neg = ofFields (-s) e m := by
  unfold ofFields
  split_ifs <;> rfl

theorem pack_finite (s : Sign) (m : Nat) (e : Int) (hm : 0 < m) :
    UnpackedFloat.pack .binary64 (.finite s m e hm) =
      if 972 ≤ e then packedInfinity .binary64 s
      else if m.log2 = 52 then packComponents .binary64 s (.ofNat _ (e + 1075).toNat) (.ofNat _ m)
      else packComponents .binary64 s 0#_ (.ofNat _ m) := by
  have bias : (Format.binary64.exponentBias : Int) = 1023 := by decide
  have biased : e + 1023 + ((52 : Nat) : Int) = e + 1075 := by omega
  have large : 2 ^ 11 ≤ (e + 1075).toNat + 1 ↔ 972 ≤ e := by omega
  have normal : m.log2 + 1 = 53 ↔ m.log2 = 52 := by omega
  simp only [UnpackedFloat.pack, bias, biased, large, Format.mantissaBits, normal]

/-- Whatever is packed, the sign stands in its own field. -/
theorem exists_pack_eq (u : UnpackedFloat) (hu : u ≠ .notANumber) :
    ∃ (s : Sign) (e : BitVec 11) (m : BitVec 52),
      UnpackedFloat.pack .binary64 u = packComponents .binary64 s e m ∧
        UnpackedFloat.pack .binary64 u.neg = packComponents .binary64 (-s) e m := by
  cases u with
  | notANumber => exact absurd rfl hu
  | infinity s => exact ⟨s, -1#_, 0, rfl, rfl⟩
  | zero s => exact ⟨s, 0, 0, rfl, rfl⟩
  | finite s m e hm =>
    rw [UnpackedFloat.neg, pack_finite, pack_finite]
    split_ifs
    · exact ⟨s, -1#_, 0, rfl, rfl⟩
    · exact ⟨s, _, _, rfl, rfl⟩
    · exact ⟨s, _, _, rfl, rfl⟩

/-! ## Packing and unpacking -/

/-- **Unpacking loses nothing.** -/
theorem pack_unpack (x : Float) : pack (unpack x) = x := by
  obtain ⟨⟨bits, valid⟩⟩ := x
  have h := pack_unpack_of_valid valid
  simp only [pack, unpack, Float.Model.pack, Float.Model.unpack, h]

theorem unpack_injective {x y : Float} (h : unpack x = unpack y) : x = y := by
  rw [← pack_unpack x, h, pack_unpack]

theorem unpack_pack_eq (u : UnpackedFloat) :
    unpack (pack u) = UnpackedFloat.unpack .binary64 (UnpackedFloat.pack .binary64 u) := rfl

theorem pack_congr {u v : UnpackedFloat}
    (h : UnpackedFloat.pack .binary64 u = UnpackedFloat.pack .binary64 v) : pack u = pack v := by
  simp only [pack, Float.Model.pack, h]

/-- Packing commutes with a change of sign. -/
theorem neg_pack (u : UnpackedFloat) : -pack u = pack u.neg := by
  by_cases hu : u = .notANumber
  · subst hu
    exact pack_congr (by decide)
  · obtain ⟨s, e, m, h, hneg⟩ := exists_pack_eq u hu
    rw [neg_eq, unpack_pack_eq, h, unpack_packComponents, neg_ofFields, ← unpack_packComponents,
      ← hneg, ← unpack_pack_eq, pack_unpack]

/-! ## Canonical numbers -/

/-- The parts that a double can have. -/
def Canonical : UnpackedFloat → Prop
  | .finite _ m e _ => m < 2 ^ 53 ∧ -1074 ≤ e ∧ e < 972 ∧ (2 ^ 52 ≤ m ∨ e = -1074)
  | _ => True

theorem Canonical.neg {u : UnpackedFloat} (h : Canonical u) : Canonical u.neg := by
  cases u <;> exact h

theorem canonical_ofFields (s : Sign) (e : BitVec 11) (m : BitVec 52) :
    Canonical (ofFields s e m) := by
  have hm := m.isLt
  unfold ofFields
  split_ifs with h₁ h₂ h₃ h₄
  · trivial
  · trivial
  · trivial
  · exact ⟨by omega, by omega, by omega, .inr rfl⟩
  · have he := e.isLt
    have h₁ : e.toNat ≠ 2047 := fun h => h₁ (BitVec.eq_of_toNat_eq h)
    have h₃ : e.toNat ≠ 0 := fun h => h₃ (BitVec.eq_of_toNat_eq h)
    exact ⟨by omega, by omega, by omega, .inl (by omega)⟩

theorem canonical_unpack (x : Float) : Canonical (unpack x) := by
  have h := canonical_ofFields (.ofBitVec (@unpackSign .binary64 x.toBits.toBitVec))
    (@unpackExponent .binary64 x.toBits.toBitVec) (@unpackMantissa .binary64 x.toBits.toBitVec)
  rwa [← unpack_packComponents, packComponents_unpackSign_unpackExponent_unpackMantissa] at h

/-- A canonical number is what the fields of its word stand for. -/
theorem exists_fields {u : UnpackedFloat} (h : Canonical u) :
    ∃ (s : Sign) (e : BitVec 11) (m : BitVec 52),
      u = ofFields s e m ∧ UnpackedFloat.pack .binary64 u = packComponents .binary64 s e m := by
  cases u with
  | notANumber => exact ⟨.positive, -1#_, 1#_ <<< 51, rfl, rfl⟩
  | infinity s => exact ⟨s, -1#_, 0, rfl, rfl⟩
  | zero s => exact ⟨s, 0, 0, rfl, rfl⟩
  | finite s m e hm =>
    obtain ⟨hlt, hmin, hmax, hnormal⟩ := h
    rw [pack_finite, if_neg (by omega)]
    by_cases hbig : 2 ^ 52 ≤ m
    · have hlog : m.log2 = 52 := (Nat.log2_eq_iff (by omega)).2 ⟨hbig, hlt⟩
      have he : (BitVec.ofNat 11 (e + 1075).toNat).toNat = (e + 1075).toNat :=
        Nat.mod_eq_of_lt (by omega)
      have hm' : (BitVec.ofNat 52 m).toNat = m - 2 ^ 52 := by
        rw [BitVec.toNat_ofNat]
        omega
      refine ⟨s, .ofNat _ (e + 1075).toNat, .ofNat _ m, ?_, if_pos hlog⟩
      have hinf : BitVec.ofNat 11 (e + 1075).toNat ≠ -1#_ := fun h => by
        have := congrArg BitVec.toNat h
        rw [he] at this
        change (e + 1075).toNat = 2047 at this
        omega
      have hsub : BitVec.ofNat 11 (e + 1075).toNat ≠ 0#_ := fun h => by
        have := congrArg BitVec.toNat h
        rw [he] at this
        change (e + 1075).toNat = 0 at this
        omega
      rw [ofFields, if_neg hinf, if_neg hsub]
      congr 1 <;> omega
    · have hlog : m.log2 ≠ 52 := by
        have := (Nat.log2_lt (k := 52) hm.ne').2 (by omega)
        omega
      have hm' : (BitVec.ofNat 52 m).toNat = m := Nat.mod_eq_of_lt (by omega)
      refine ⟨s, 0#_, .ofNat _ m, ?_, if_neg hlog⟩
      have hzero : BitVec.ofNat 52 m ≠ 0#_ := fun h => by
        have := congrArg BitVec.toNat h
        rw [hm'] at this
        exact hm.ne' this
      rw [ofFields, if_neg (by decide), if_pos rfl, dif_neg hzero]
      congr 1 <;> omega

/-- **Packing a canonical number loses nothing.** -/
theorem unpack_pack {u : UnpackedFloat} (h : Canonical u) : unpack (pack u) = u := by
  obtain ⟨s, e, m, hu, hp⟩ := exists_fields h
  rw [unpack_pack_eq, hp, unpack_packComponents, ← hu]

theorem unpack_neg (x : Float) : unpack (-x) = (unpack x).neg := by
  rw [neg_eq, unpack_pack (canonical_unpack x).neg]

theorem unpack_zero : unpack 0 = .zero .positive := by
  have zero_eq : (0 : Float) = pack (.zero .positive) := by decide +kernel
  exact zero_eq ▸ unpack_pack (u := .zero .positive) trivial

end Reckoner.Double
