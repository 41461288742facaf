import TensorGraph.Lowering.Document
import TensorGraph.Proofs.Decimal.Layout

/-!
# TensorGraph.Proofs.Decimal.Finite

Finite numbers of 32 bits, and their texts.

* `Binary32.isFinite_iff`: the word of a number tells whether it is finite.
* `Binary32.Spelled`: a shader literal that is a decimal. `Binary32.spelled_iff`: exactly finite
  numbers have one.
* `ArtifactDocument.real_eq_null_iff`: exactly the numbers that are not finite have no JSON form.
-/

namespace TensorGraph

open Float.Model (Format UnpackedFloat)

section

variable {f : Format} {b : BitVec f.numBits}

theorem unpack_special (special : UnpackedFloat.unpackExponent b = -1#_) :
    (∃ s, UnpackedFloat.unpack f b = .infinity s) ∨ UnpackedFloat.unpack f b = .notANumber := by
  generalize unpacked : UnpackedFloat.unpack f b = u
  unfold UnpackedFloat.unpack at unpacked
  dsimp only at unpacked
  rw [if_pos special] at unpacked
  split at unpacked
  · exact .inl ⟨_, unpacked.symm⟩
  · exact .inr unpacked.symm

/-- Numbers with the least exponent have the same weight as those with the next one. -/
theorem unpack_regular (regular : UnpackedFloat.unpackExponent b ≠ -1#_) :
    (∃ s, UnpackedFloat.unpack f b = .zero s) ∨ ∃ s m e positive,
      UnpackedFloat.unpack f b = .finite s m e positive ∧
        e = max 1 (UnpackedFloat.unpackExponent b).toNat -
          (f.exponentBias + f.mantissaBitsWithoutImplicit) := by
  generalize unpacked : UnpackedFloat.unpack f b = u
  unfold UnpackedFloat.unpack at unpacked
  dsimp only at unpacked
  rw [if_neg regular] at unpacked
  by_cases subnormal : UnpackedFloat.unpackExponent b = 0#_
  · rw [if_pos subnormal] at unpacked
    by_cases zero : UnpackedFloat.unpackMantissa b = 0#_
    · rw [dif_pos zero] at unpacked
      exact .inl ⟨_, unpacked.symm⟩
    · rw [dif_neg zero] at unpacked
      refine .inr ⟨_, _, _, _, unpacked.symm, ?_⟩
      rw [subnormal, BitVec.toNat_zero]
      omega
  · have some_bit : (UnpackedFloat.unpackExponent b).toNat ≠ 0 := fun none =>
      subnormal (BitVec.eq_of_toNat_eq none)
    rw [if_neg subnormal] at unpacked
    refine .inr ⟨_, _, _, _, unpacked.symm, ?_⟩
    omega

theorem unpack_isFinite_iff :
    (UnpackedFloat.unpack f b).isFinite = true ↔ UnpackedFloat.unpackExponent b ≠ -1#_ := by
  by_cases special : UnpackedFloat.unpackExponent b = -1#_
  · refine iff_of_false ?_ (absurd special)
    rcases unpack_special special with ⟨s, e⟩ | e <;> rw [e] <;> exact Bool.false_ne_true
  · refine iff_of_true ?_ special
    rcases unpack_regular special with ⟨s, e⟩ | ⟨s, m, w, positive, e, _⟩ <;> rw [e] <;> rfl

end

namespace Binary32

/-- The weight of a number's last digit, biased. -/
theorem bias_eq : (Format.binary32.exponentBias : Int) = 127 := rfl

/-- Packing keeps a number finite or not, as long as its exponent is in range. -/
theorem pack_isFinite {u : UnpackedFloat} (small : ∀ s m e h, u = .finite s m e h → e < 105) :
    (UnpackedFloat.unpack .binary32 (UnpackedFloat.pack .binary32 u)).isFinite = u.isFinite := by
  rw [Bool.eq_iff_iff, unpack_isFinite_iff]
  cases u with
  | notANumber => decide
  | infinity s => cases s <;> decide
  | zero s => cases s <;> decide
  | finite s m e positive =>
    have range := small s m e positive rfl
    refine iff_of_true ?_ rfl
    unfold UnpackedFloat.pack
    dsimp only
    rw [bias_eq]
    split
    · next large =>
      simp at large
      omega
    · next fits =>
      split
      · rw [UnpackedFloat.unpackExponent_packComponents]
        intro top
        have := congrArg BitVec.toNat top
        simp at this fits
        omega
      · rw [UnpackedFloat.unpackExponent_packComponents]
        decide

/-- The exponent of a number that was unpacked is in range. -/
theorem unpack_exponent_lt {b : BitVec 32} {s : UnpackedFloat.Sign} {m : Nat} {e : Int}
    {positive : 0 < m} (unpacked : UnpackedFloat.unpack .binary32 b = .finite s m e positive) :
    e < 105 := by
  by_cases special : @UnpackedFloat.unpackExponent .binary32 b = -1#_
  · rcases unpack_special special with ⟨_, e⟩ | e <;> cases e.symm.trans unpacked
  · have bound := (@UnpackedFloat.unpackExponent .binary32 b).isLt
    have ne : (@UnpackedFloat.unpackExponent .binary32 b).toNat ≠ 255 := fun top =>
      special (BitVec.eq_of_toNat_eq top)
    rcases unpack_regular special with ⟨_, e⟩ | ⟨_, _, _, _, e, weight⟩ <;>
      cases e.symm.trans unpacked
    rw [weight, bias_eq]
    simp at bound ne ⊢
    omega

/-- So are its digits. -/
theorem unpack_mantissa_lt {b : BitVec 32} {s : UnpackedFloat.Sign} {m : Nat} {e : Int}
    {positive : 0 < m} (unpacked : UnpackedFloat.unpack .binary32 b = .finite s m e positive) :
    m < 0x1000000 := by
  by_cases special : @UnpackedFloat.unpackExponent .binary32 b = -1#_
  · rcases unpack_special special with ⟨_, e⟩ | e <;> cases e.symm.trans unpacked
  · unfold UnpackedFloat.unpack at unpacked
    dsimp only at unpacked
    rw [if_neg special] at unpacked
    by_cases subnormal : @UnpackedFloat.unpackExponent .binary32 b = 0#_
    · rw [if_pos subnormal] at unpacked
      by_cases zero : @UnpackedFloat.unpackMantissa .binary32 b = 0#_
      · rw [dif_pos zero] at unpacked
        cases unpacked
      · rw [dif_neg zero] at unpacked
        cases unpacked
        exact Nat.lt_trans (@UnpackedFloat.unpackMantissa .binary32 b).isLt (by decide)
    · rw [if_neg subnormal] at unpacked
      cases unpacked
      exact (1#1 ++ @UnpackedFloat.unpackMantissa .binary32 b).isLt

theorem magnitude_toNat (x : Binary32) :
    (x.bits &&& 0x7fffffff).toNat = x.bits.toNat % 0x80000000 := by
  rw [UInt32.toNat_and]
  exact Nat.and_two_pow_sub_one_eq_mod _ 31

theorem isFinite_iff_exponent {x : Binary32} : x.isFinite = true ↔
    @UnpackedFloat.unpackExponent .binary32 x.bits.toBitVec ≠ -1#_ := by
  have exponent : (@UnpackedFloat.unpackExponent .binary32 x.bits.toBitVec).toNat =
      x.bits.toNat / 2 ^ 23 % 2 ^ 8 := by
    simp [UnpackedFloat.unpackExponent, Nat.shiftRight_eq_div_pow]
  rw [isFinite, decide_eq_true_iff, UInt32.lt_iff_toNat_lt, magnitude_toNat, ne_eq,
    ← BitVec.toNat_inj, exponent]
  show _ < 255 * 2 ^ 23 ↔ ¬_ = 255
  omega

/-- A word says of its number whether it is finite, although all NaNs are one number. -/
theorem isFinite_iff {x : Binary32} :
    x.isFinite = true ↔ x.value.toModel.unpack.isFinite = true := by
  have kept : x.value.toModel.unpack.isFinite =
      (UnpackedFloat.unpack .binary32 x.bits.toBitVec).isFinite :=
    pack_isFinite fun _ _ _ _ => unpack_exponent_lt
  rw [isFinite_iff_exponent, kept, unpack_isFinite_iff]

/-- The literal of a number in shader source is a decimal, in parentheses if it is negative. -/
def Spelled (x : Binary32) : Prop :=
  ∃ text, DecimalText text ∧ (x.literal.toList = text ∨ x.literal.toList = '(' :: text ++ [')'])

theorem literal_eq (x : Binary32) : x.literal.toList = (x.text .shader).toList ∨
    x.literal.toList = '(' :: (x.text .shader).toList ++ [')'] := by
  unfold literal
  split
  · right
    simp
  · exact .inl rfl

/-- A number that is not finite has a letter in its text that no decimal has. -/
theorem exists_letter {x : Binary32} (special : x.value.toModel.unpack.isFinite ≠ true) :
    ∃ c ∈ (x.text .shader).toList, c = 'n' ∨ c = 'N' := by
  unfold Binary32.text
  cases unpacked : x.value.toModel.unpack with
  | notANumber => exact ⟨'N', by decide, .inr rfl⟩
  | infinity s => exact ⟨'n', by cases s <;> decide, .inl rfl⟩
  | zero s => exact absurd (by rw [unpacked]; rfl) special
  | finite s m e positive => exact absurd (by rw [unpacked]; rfl) special

theorem spelled_iff {x : Binary32} : x.Spelled ↔ x.isFinite = true := by
  rw [isFinite_iff]
  constructor
  · rintro ⟨text, decimal, spelled⟩
    by_cases finite : x.value.toModel.unpack.isFinite = true
    · exact finite
    obtain ⟨c, hc, letter⟩ := exists_letter finite
    have inside : c ∈ x.literal.toList := by
      rcases literal_eq x with e | e <;> rw [e] <;> simp [hc]
    have mem : c ∈ text := by
      rcases spelled with e | e <;> rw [e] at inside
      · exact inside
      · rcases letter with rfl | rfl <;> simpa using inside
    rcases letter with rfl | rfl <;> exact absurd (decimal.spelled _ mem) (by decide)
  · intro finite
    exact ⟨_, .of_finite rfl .binary32 finite, literal_eq x⟩

end Binary32

theorem ArtifactDocument.real_eq_null_iff {x : Binary32} :
    ArtifactDocument.real x = .null ↔ x.isFinite = false := by
  rw [← Bool.not_eq_true, Binary32.isFinite_iff]
  unfold ArtifactDocument.real
  cases x.value.toModel.unpack with
  | notANumber | infinity => exact iff_of_true rfl Bool.false_ne_true
  | zero s => cases s <;> exact iff_of_false nofun (absurd rfl)
  | finite s m e positive => exact iff_of_false nofun (absurd rfl)

end TensorGraph
