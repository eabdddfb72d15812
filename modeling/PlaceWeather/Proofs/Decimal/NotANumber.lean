import Mathlib
import PlaceWeather.Decimal.Reading

/-!
# Where no number comes from

The value that is no number is the only double that differs from itself, and arithmetic can make it
out of others.  Reading a number never does: only the texts of `SpellsNaN` give it (`read?_eq_nan_iff`).
Rounding to five places never does either, though it multiplies and divides.  Its factor is finite
and not zero: a product may overflow, but infinity stays infinity when it is divided again
(`roundTo_eq_nan_iff`).
-/

namespace PlaceWeather.Decimal

open Float.Model (UnpackedFloat)
open Float.Model.UnpackedFloat

/-! ## Packing -/

/-- No number is marked by its exponent and by a mantissa that is not zero. -/
theorem components_of_packedNaN {s : Sign} {e : BitVec 11} {m : BitVec 52}
    (h : packComponents .binary64 s e m = packedNaN .binary64) :
    e = -1#11 ∧ m = 1#52 <<< 51 := by
  have hexponent := congrArg unpackExponent h
  have hmantissa := congrArg unpackMantissa h
  rw [packedNaN, unpackExponent_packComponents, unpackExponent_packComponents] at hexponent
  rw [packedNaN, unpackMantissa_packComponents, unpackMantissa_packComponents] at hmantissa
  exact ⟨hexponent, hmantissa⟩

/-- Only no number is packed as no number: what does not fit becomes infinity. -/
theorem pack_eq_packedNaN_iff (u : UnpackedFloat) :
    pack .binary64 u = packedNaN .binary64 ↔ u = .notANumber := by
  have hinfinity : ∀ s, packedInfinity .binary64 s ≠ packedNaN .binary64 := fun s h =>
    absurd (components_of_packedNaN h).2 (by decide)
  constructor
  · intro h
    cases u with
    | notANumber => rfl
    | infinity s => exact absurd h (hinfinity s)
    | zero s => exact absurd (components_of_packedNaN h).1 (by decide)
    | finite s m e hm =>
        simp only [pack] at h
        split at h
        · exact absurd h (hinfinity s)
        · rename_i hfits
          split at h
          · -- An exponent that fits is not the one that marks no number.
            have hexponent := congrArg BitVec.toNat (components_of_packedNaN h).1
            rw [BitVec.toNat_ofNat] at hexponent
            have hmark : (-1#11).toNat = 2047 := rfl
            omega
          · exact absurd (components_of_packedNaN h).1 (by decide)
  · rintro rfl
    rfl

theorem eq_nan_iff (x : Float) : x = Float.nan ↔ x.toModel.unpack = .notANumber := by
  have hnan : Float.nan.toModel.toBits.toBitVec = packedNaN .binary64 := by decide +kernel
  rw [Float.Model.unpack, unpack_eq_notANumber_iff_of_valid x.toModel.valid, ← hnan,
    UInt64.toBitVec_inj, ← Float.toBits_inj]
  rfl

/-- A double that is packed from a value is no number exactly when the value is. -/
theorem ofModel_pack_eq_nan_iff (u : UnpackedFloat) :
    Float.ofModel (Float.Model.pack u) = Float.nan ↔ u = .notANumber := by
  rw [eq_nan_iff]
  have hvalid := (Float.Model.pack u).valid
  exact (unpack_eq_notANumber_iff_of_valid hvalid).trans (pack_eq_packedNaN_iff u)

/-! ## Arithmetic -/

/-- Finite and not zero. -/
def Regular (x : Float) : Prop :=
  match x.toModel.unpack with
  | .finite .. => True
  | _ => False

instance (x : Float) : Decidable (Regular x) := by
  unfold Regular
  split <;> infer_instance

theorem exists_finite_of_regular {x : Float} (h : Regular x) :
    ∃ s m e hm, x.toModel.unpack = .finite s m e hm := by
  unfold Regular at h
  split at h
  · rename_i s m e hm heq
    exact ⟨s, m, e, hm, heq⟩
  · exact h.elim

theorem roundWithAccuracy_ne_notANumber (s : Sign) (m : Nat) (e : Int) (accuracy : Accuracy) :
    roundWithAccuracy .binary64 s m e accuracy ≠ .notANumber := by
  unfold roundWithAccuracy
  dsimp only
  split <;> exact nofun

theorem mul_finite_eq_notANumber_iff (u : UnpackedFloat) (s : Sign) (m : Nat) (e : Int)
    (hm : 0 < m) : mul .binary64 u (.finite s m e hm) = .notANumber ↔ u = .notANumber := by
  cases u with
  | notANumber => exact iff_of_true rfl rfl
  | infinity | zero => exact iff_of_false nofun nofun
  | finite => exact iff_of_false (roundWithAccuracy_ne_notANumber _ _ _ _) nofun

theorem div_finite_eq_notANumber_iff (u : UnpackedFloat) (s : Sign) (m : Nat) (e : Int)
    (hm : 0 < m) : div .binary64 u (.finite s m e hm) = .notANumber ↔ u = .notANumber := by
  cases u with
  | notANumber => exact iff_of_true rfl rfl
  | infinity | zero => exact iff_of_false nofun nofun
  | finite => exact iff_of_false (roundWithAccuracy_ne_notANumber _ _ _ _) nofun

theorem mul_eq_nan_iff (x : Float) {y : Float} (hy : Regular y) :
    x * y = Float.nan ↔ x = Float.nan := by
  obtain ⟨s, m, e, hm, hfinite⟩ := exists_finite_of_regular hy
  have hmul : x * y = Float.ofModel (Float.Model.pack
      (mul .binary64 x.toModel.unpack y.toModel.unpack)) := rfl
  rw [hmul, ofModel_pack_eq_nan_iff, hfinite, mul_finite_eq_notANumber_iff, eq_nan_iff]

theorem div_eq_nan_iff (x : Float) {y : Float} (hy : Regular y) :
    x / y = Float.nan ↔ x = Float.nan := by
  obtain ⟨s, m, e, hm, hfinite⟩ := exists_finite_of_regular hy
  have hdiv : x / y = Float.ofModel (Float.Model.pack
      (div .binary64 x.toModel.unpack y.toModel.unpack)) := rfl
  rw [hdiv, ofModel_pack_eq_nan_iff, hfinite, div_finite_eq_notANumber_iff, eq_nan_iff]

theorem neg_eq_nan_iff (x : Float) : -x = Float.nan ↔ x = Float.nan := by
  have hneg : -x = Float.ofModel (Float.Model.pack (neg x.toModel.unpack)) := rfl
  rw [hneg, ofModel_pack_eq_nan_iff, eq_nan_iff]
  cases x.toModel.unpack with
  | notANumber => exact iff_of_true rfl rfl
  | infinity | zero | finite => exact iff_of_false nofun nofun

/-! ## Numbers from digits -/

theorem toFloat_ne_nan (n : UInt64) : n.toFloat ≠ Float.nan := by
  have hpack : n.toFloat = Float.ofModel (Float.Model.pack (ofUInt64 .binary64 n)) := rfl
  have hround : ∀ s m e, round .binary64 s m e ≠ .notANumber := fun s m e =>
    roundWithAccuracy_ne_notANumber _ _ _ _
  rw [hpack, ne_eq, ofModel_pack_eq_nan_iff]
  unfold ofUInt64 ofNat ofInt UnpackedFloat.normalize
  split
  · exact hround _ _ _
  · exact nofun
  · exact hround _ _ _

theorem ofScientific_ne_notANumber (m : Nat) (e : Int) :
    ofScientific .binary64 m e ≠ .notANumber := by
  unfold ofScientific
  split
  · exact nofun
  split
  · exact nofun
  split
  · exact nofun
  split
  · rw [ne_eq, mul_finite_eq_notANumber_iff]
    exact nofun
  · rw [ne_eq, div_finite_eq_notANumber_iff]
    exact nofun

theorem ofScientific_ne_nan (m : Nat) (negative : Bool) (e : Nat) :
    Float.ofScientific m negative e ≠ Float.nan := by
  unfold Float.ofScientific
  split
  · -- A small power of ten is exact, and neither zero nor infinite.
    rename_i hsmall
    have hregular : ∀ i : Fin 23, Regular (Float.exactlyRepresentablePowersOfTen[i]) := by
      decide +kernel
    have hpower := hregular ⟨e, by omega⟩
    have hm := toFloat_ne_nan m.toUInt64
    dsimp only
    split
    · exact mt (div_eq_nan_iff _ hpower).mp hm
    · exact mt (mul_eq_nan_iff _ hpower).mp hm
  · exact mt (ofModel_pack_eq_nan_iff _).mp (ofScientific_ne_notANumber m _)

theorem infinity_ne_nan : infinity ≠ Float.nan := by decide +kernel

theorem notANumber_eq_nan : notANumber = Float.nan := by decide +kernel

theorem zero_ne_nan : (0.0 : Float) ≠ Float.nan := by decide +kernel

theorem nearest_ne_nan (m : Nat) (e : Int) : nearest m e ≠ Float.nan := by
  unfold nearest
  split
  · exact zero_ne_nan
  split
  · exact infinity_ne_nan
  split
  · exact zero_ne_nan
  · exact ofScientific_ne_nan m _ _

/-! ## Rounding -/

theorem roundWhole_eq_nan_iff (x : Float) : roundWhole x = Float.nan ↔ x = Float.nan := by
  constructor
  · intro h
    unfold roundWhole at h
    split at h
    · split at h
      · exact h
      · -- A whole number is written with digits.
        have hwhole : ∀ n : Nat, Float.ofNat n ≠ Float.nan := fun n => ofScientific_ne_nan n _ _
        dsimp only at h
        split at h
        · exact absurd ((neg_eq_nan_iff _).mp h) (hwhole _)
        · exact absurd h (hwhole _)
    · exact h
  · rintro rfl
    have hbits : Binary.ofFloat Float.nan = .nan := by decide +kernel
    unfold roundWhole
    rw [hbits]

/-- Rounding a coordinate neither makes no number nor loses it. -/
theorem roundTo_eq_nan_iff (x : Float) : roundTo x 5 = Float.nan ↔ x = Float.nan := by
  have hfactor : Regular (powerOfTen 5) := by decide +kernel
  unfold roundTo
  dsimp only
  rw [div_eq_nan_iff _ hfactor, roundWhole_eq_nan_iff, mul_eq_nan_iff _ hfactor]

/-! ## Texts -/

/-- A text spells no number: `nan` in any case, with a sign or without. -/
def SpellsNaN (cs : List Char) : Prop :=
  cs.map Char.toLower ∈ [['n', 'a', 'n'], ['-', 'n', 'a', 'n'], ['+', 'n', 'a', 'n']]

instance (cs : List Char) : Decidable (SpellsNaN cs) := by
  unfold SpellsNaN
  infer_instance

/-- In lower case only a sign is a sign. -/
theorem eq_of_toLower_eq {c sign : Char} (hsign : sign = '-' ∨ sign = '+')
    (h : c.toLower = sign) : c = sign := by
  unfold Char.toLower at h
  split at h
  · -- A capital letter becomes a character behind the signs.
    rename_i hletter
    have hlow : 65 ≤ c.val.toNat := UInt32.le_iff_toNat_le.mp hletter.1
    have hhigh : c.val.toNat ≤ 90 := UInt32.le_iff_toNat_le.mp hletter.2
    have hval : c.val + 32 = sign.val := congrArg Char.val h
    have hsum := congrArg UInt32.toNat hval
    have hdistance : (32 : UInt32).toNat = 32 := rfl
    rw [UInt32.toNat_add] at hsum
    have hcode : sign.val.toNat = 45 ∨ sign.val.toNat = 43 := by
      rcases hsign with rfl | rfl
      · exact .inl rfl
      · exact .inr rfl
    omega
  · exact h

theorem spellsNaN_sign_cons {sign : Char} (hsign : sign = '-' ∨ sign = '+') (cs : List Char) :
    SpellsNaN (sign :: cs) ↔ cs.map Char.toLower = ['n', 'a', 'n'] := by
  unfold SpellsNaN
  rcases hsign with rfl | rfl
  · simp
  · simp

theorem spellsNaN_of_no_sign {cs : List Char} (hminus : ∀ rest, cs ≠ '-' :: rest)
    (hplus : ∀ rest, cs ≠ '+' :: rest) :
    SpellsNaN cs ↔ cs.map Char.toLower = ['n', 'a', 'n'] := by
  constructor
  · intro h
    unfold SpellsNaN at h
    cases cs with
    | nil => simp at h
    | cons c rest =>
        have hsign : ∀ sign letters, sign = '-' ∨ sign = '+' →
            (c :: rest).map Char.toLower ≠ sign :: letters := by
          intro sign letters hsign heq
          have hc := eq_of_toLower_eq hsign (List.cons.inj heq).1
          rcases hsign with rfl | rfl
          · exact hminus rest (by rw [hc])
          · exact hplus rest (by rw [hc])
        rcases List.mem_cons.mp h with h | h
        · exact h
        rcases List.mem_cons.mp h with h | h
        · exact absurd h (hsign _ _ (.inl rfl))
        · exact absurd (List.mem_singleton.mp h) (hsign _ _ (.inr rfl))
  · intro h
    unfold SpellsNaN
    rw [h]
    exact List.mem_cons_self

theorem readDigits?_ne_nan {cs : List Char} {x : Float} (h : readDigits? cs = some x) :
    x ≠ Float.nan := by
  unfold readDigits? at h
  dsimp only at h
  -- With a point in the text and without.
  split at h
  all_goals
    split at h
    · cases h
    · obtain ⟨e, -, rfl⟩ := Option.map_eq_some_iff.mp h
      exact nearest_ne_nan _ _

theorem readUnsigned?_eq_nan_iff {cs : List Char} {x : Float} (h : readUnsigned? cs = some x) :
    x = Float.nan ↔ cs.map Char.toLower = ['n', 'a', 'n'] := by
  unfold readUnsigned? at h
  dsimp only at h
  split at h
  · rename_i hinfinite
    cases h
    refine iff_of_false infinity_ne_nan ?_
    rcases hinfinite with heq | heq
    · rw [heq]
      decide
    · rw [heq]
      decide
  split at h
  · rename_i hnan
    cases h
    exact iff_of_true notANumber_eq_nan hnan
  · rename_i hnan
    exact iff_of_false (readDigits?_ne_nan h) hnan

/-- Of the texts of numbers only those that spell no number give it. -/
theorem read?_eq_nan_iff {cs : List Char} {x : Float} (h : read? cs = some x) :
    x = Float.nan ↔ SpellsNaN cs := by
  unfold read? at h
  split at h
  · obtain ⟨y, hy, rfl⟩ := Option.map_eq_some_iff.mp h
    rw [neg_eq_nan_iff, readUnsigned?_eq_nan_iff hy, spellsNaN_sign_cons (.inl rfl)]
  · rw [readUnsigned?_eq_nan_iff h, spellsNaN_sign_cons (.inr rfl)]
  · rename_i hminus hplus
    rw [readUnsigned?_eq_nan_iff h, spellsNaN_of_no_sign hminus hplus]

end PlaceWeather.Decimal
