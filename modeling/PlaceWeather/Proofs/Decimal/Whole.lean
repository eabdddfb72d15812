import Mathlib
import PlaceWeather.Proofs.Decimal.Digits
import PlaceWeather.Proofs.Text.Pieces

/-!
# Whole numbers of 32 bits

The text of a whole number of 32 bits is read as a double that gives the number back when it is cut off
(`read?_intDigits`).  Below `2 ^ 53` a whole number is a double exactly: zeros behind its bits make the
53 bits of a mantissa (`normal_whole`), and rounding, which only drops such zeros again, changes
nothing (`roundWithAccuracy_shifted`).
-/

namespace PlaceWeather.Decimal

open Float.Model (Format UnpackedFloat totalExponent)
open Float.Model.UnpackedFloat

/-! ## Normal doubles -/

/-- What a normal double is made of: a mantissa of 53 bits, and an exponent that fits. -/
structure Normal (m : Nat) (e : Int) : Prop where
  le_mantissa : 2 ^ 52 ≤ m
  mantissa_lt : m < 2 ^ 53
  le_exponent : -1074 ≤ e
  exponent_le : e ≤ 971

namespace Normal

variable {m : Nat} {e : Int} (h : Normal m e)

include h

theorem pos : 0 < m := Nat.lt_of_lt_of_le (by decide) h.le_mantissa

theorem log2_eq : m.log2 = 52 :=
  (Nat.log2_eq_iff h.pos.ne').mpr ⟨h.le_mantissa, h.mantissa_lt⟩

theorem log2_shifted (k : Nat) : (m * 2 ^ k).log2 = 52 + k := by
  have hk : 0 < 2 ^ k := Nat.two_pow_pos k
  apply (Nat.log2_eq_iff (Nat.mul_pos h.pos hk).ne').mpr
  have hlow : 2 ^ 52 * 2 ^ k ≤ m * 2 ^ k := Nat.mul_le_mul_right _ h.le_mantissa
  have hhigh : m * 2 ^ k < 2 ^ 53 * 2 ^ k := Nat.mul_lt_mul_of_pos_right h.mantissa_lt hk
  have hnext : 52 + k + 1 = 53 + k := by omega
  rw [hnext, Nat.pow_add, Nat.pow_add]
  exact ⟨hlow, hhigh⟩

/-- A normal value already has the exponent that it has to have, also with zeros behind its
mantissa. -/
theorem targetExponent_eq (k : Nat) :
    Format.binary64.targetExponent (totalExponent (m * 2 ^ k) (e - k)) = e := by
  have hlow := h.le_exponent
  simp only [Format.targetExponent, totalExponent, h.log2_shifted, Format.mantissaBits,
    Format.minExponent]
  omega

end Normal

/-- Dropping zeros loses nothing. -/
theorem shiftRight_exact (m k : Nat) :
    (ExtendedMantissa.ofMantissaAndAccuracy (m * 2 ^ k) .exact >>> k) =
      ExtendedMantissa.ofMantissaAndAccuracy m .exact := by
  induction k generalizing m with
  | zero =>
      rw [Nat.pow_zero, Nat.mul_one]
      rfl
  | succ k ih =>
      have hstep : m * 2 ^ (k + 1) = 2 * m * 2 ^ k := by
        rw [Nat.pow_succ]
        ring
      -- The first zeros leave the double of the mantissa, the last one its half.
      show ExtendedMantissa.shiftRightOne
        (ExtendedMantissa.ofMantissaAndAccuracy (m * 2 ^ (k + 1)) .exact >>> k) = _
      rw [hstep, ih (2 * m)]
      simp [ExtendedMantissa.shiftRightOne, ExtendedMantissa.ofMantissaAndAccuracy]

theorem shiftToTargetExponent_shifted {m : Nat} {e : Int} (h : Normal m e) (k : Nat) :
    shiftToTargetExponent .binary64 (m * 2 ^ k) (e - k) .exact =
      (ExtendedMantissa.ofMantissaAndAccuracy m .exact, e) := by
  have hamount : (e - (e - k)).toNat = k := by omega
  unfold shiftToTargetExponent shiftToExponent
  dsimp only
  rw [h.targetExponent_eq k, hamount, shiftRight_exact]
  congr 1
  omega

/-- A normal value is not changed by rounding, also with zeros behind its mantissa. -/
theorem roundWithAccuracy_shifted {m : Nat} {e : Int} (h : Normal m e) (s : Sign) (k : Nat) :
    roundWithAccuracy .binary64 s (m * 2 ^ k) (e - k) .exact = .finite s m e h.pos := by
  have hround : (ExtendedMantissa.ofMantissaAndAccuracy m .exact).roundedMantissa = m := rfl
  have hagain := shiftToTargetExponent_shifted h 0
  rw [Nat.pow_zero, Nat.mul_one, Int.natCast_zero, Int.sub_zero] at hagain
  -- The mantissa fits after the first shift, so the second one does nothing.
  unfold roundWithAccuracy
  rw [shiftToTargetExponent_shifted h k]
  dsimp only
  rw [hround, hagain]
  exact dif_neg h.pos.ne'

/-- The normal double `± m * 2 ^ e`. -/
def normal (s : Sign) {m : Nat} {e : Int} (h : Normal m e) : Float :=
  Float.ofModel (Float.Model.pack (.finite s m e h.pos))

theorem pack_normal (s : Sign) {m : Nat} {e : Int} (h : Normal m e) :
    pack .binary64 (.finite s m e h.pos) =
      packComponents .binary64 s (BitVec.ofNat 11 (e + 1075).toNat) (BitVec.ofNat 52 m) := by
  have hlow := h.le_exponent
  have hhigh := h.exponent_le
  have hbias : e + Format.binary64.exponentBias + Format.binary64.mantissaBitsWithoutImplicit =
      e + 1075 := by
    show e + 1023 + 52 = e + 1075
    omega
  have hfits : ¬ 2 ^ Format.binary64.exponentBits ≤ (e + 1075).toNat + 1 := by
    show ¬ 2048 ≤ (e + 1075).toNat + 1
    omega
  have hbits : m.log2 + 1 = Format.binary64.mantissaBits := by
    rw [h.log2_eq]
    rfl
  unfold pack
  dsimp only
  rw [hbias, if_neg hfits, if_pos hbits]

theorem unpackSign_packComponents (s : Sign) (e : BitVec 11) (m : BitVec 52) :
    unpackSign (packComponents .binary64 s e m) = s.toBitVec := by
  show (s.toBitVec ++ e ++ m).extractLsb' 63 1 = s.toBitVec
  rw [BitVec.extractLsb'_append_eq_of_le (by decide), BitVec.extractLsb'_append_eq_of_le (by decide)]
  cases s <;> rfl

theorem toNat_packComponents (s : Sign) (e : BitVec 11) (m : BitVec 52) :
    (packComponents .binary64 s e m).toNat =
      2 ^ 63 * s.toBitVec.toNat + 2 ^ 52 * e.toNat + m.toNat := by
  have hm : m.toNat < 2 ^ 52 := m.isLt
  have he : e.toNat < 2 ^ 11 := e.isLt
  show (s.toBitVec ++ e ++ m).toNat = _
  rw [BitVec.toNat_append, ← Nat.shiftLeft_add_eq_or_of_lt hm, BitVec.toNat_append,
    ← Nat.shiftLeft_add_eq_or_of_lt he, Nat.shiftLeft_eq, Nat.shiftLeft_eq]
  omega

theorem toNat_exponent {m : Nat} {e : Int} (h : Normal m e) :
    ((BitVec.ofNat 11 (e + 1075).toNat).toNat : Int) = e + 1075 := by
  have hlow := h.le_exponent
  have hhigh := h.exponent_le
  rw [BitVec.toNat_ofNat]
  omega

/-- The leading bit of a mantissa is not packed. -/
theorem toNat_mantissa {m : Nat} {e : Int} (h : Normal m e) :
    (BitVec.ofNat 52 m).toNat = m - 2 ^ 52 := by
  have hlow := h.le_mantissa
  have hhigh := h.mantissa_lt
  rw [BitVec.toNat_ofNat]
  omega

/-- Sign, exponent and fraction of a double that is neither zero, tiny, infinite nor no number. -/
theorem ofBits_eq_finite (negative : Bool) {exponent fraction : Nat} (hpos : 0 < exponent)
    (hlt : exponent < 2047) (hfraction : fraction < 2 ^ 52) :
    Binary.ofBits (2 ^ 63 * (if negative then 1 else 0) + 2 ^ 52 * exponent + fraction) =
      .finite negative (fraction + 2 ^ 52) (exponent - 1075) := by
  generalize hbits : 2 ^ 63 * (if negative then 1 else 0) + 2 ^ 52 * exponent + fraction = bits
  have hsign : (bits / twoPow 63 % 2 == 1) = negative := by
    show (bits / 2 ^ 63 % 2 == 1) = negative
    cases negative with
    | false =>
        rw [if_neg Bool.false_ne_true] at hbits
        apply beq_eq_false_iff_ne.mpr
        omega
    | true =>
        rw [if_pos rfl] at hbits
        apply beq_iff_eq.mpr
        omega
  have hexponent : bits / twoPow 52 % twoPow 11 = exponent := by
    show bits / 2 ^ 52 % 2 ^ 11 = exponent
    split at hbits <;> omega
  have hrest : bits % twoPow 52 = fraction := by
    show bits % 2 ^ 52 = fraction
    split at hbits <;> omega
  unfold Binary.ofBits
  dsimp only
  rw [hsign, hexponent, hrest, if_neg (by omega), if_neg (by omega)]
  rfl

/-- The exact value of a normal double. -/
theorem ofFloat_normal (s : Sign) {m : Nat} {e : Int} (h : Normal m e) :
    Binary.ofFloat (normal s h) = .finite (s == .negative) m e := by
  have hlow := h.le_exponent
  have hhigh := h.exponent_le
  have hlow' := h.le_mantissa
  have hhigh' := h.mantissa_lt
  have hexponent := toNat_exponent h
  have hsign : s.toBitVec.toNat = if s == .negative then 1 else 0 := by cases s <;> rfl
  have hbits : (normal s h).toBits.toNat = _ := congrArg BitVec.toNat (pack_normal s h)
  rw [toNat_packComponents, toNat_mantissa h, hsign] at hbits
  unfold Binary.ofFloat
  rw [hbits, ofBits_eq_finite _ (by omega) (by omega) (by omega)]
  congr 1
  · omega
  · omega

theorem unpack_normal (s : Sign) {m : Nat} {e : Int} (h : Normal m e) :
    (normal s h).toModel.unpack = .finite s m e h.pos := by
  have hlow := h.le_exponent
  have hhigh := h.exponent_le
  have hexponent := toNat_exponent h
  have hpacked : (normal s h).toModel.unpack = unpack .binary64
      (packComponents .binary64 s (BitVec.ofNat 11 (e + 1075).toNat) (BitVec.ofNat 52 m)) :=
    congrArg (unpack .binary64) (pack_normal s h)
  -- An exponent that fits marks neither infinity nor zero.
  have hfinite : BitVec.ofNat 11 (e + 1075).toNat ≠ -1#11 := by
    intro heq
    rw [heq] at hexponent
    have hmark : (-1#11).toNat = 2047 := rfl
    omega
  have hnonzero : BitVec.ofNat 11 (e + 1075).toNat ≠ 0#11 := by
    intro heq
    rw [heq] at hexponent
    have hmark : (0#11).toNat = 0 := rfl
    omega
  have hmantissa : (1#1 ++ BitVec.ofNat 52 m).toNat = m := by
    have hlow' := h.le_mantissa
    have hlead : (1#1).toNat = 1 := rfl
    rw [BitVec.toNat_append, ← Nat.shiftLeft_add_eq_or_of_lt (BitVec.isLt _), toNat_mantissa h,
      Nat.shiftLeft_eq, hlead]
    omega
  have hsign : Sign.ofBitVec s.toBitVec = s := by cases s <;> rfl
  rw [hpacked]
  unfold unpack
  simp only [unpackMantissa_packComponents, unpackExponent_packComponents,
    unpackSign_packComponents, hsign, if_neg hfinite, if_neg hnonzero]
  have hvalue : ((BitVec.ofNat 11 (e + 1075).toNat).toNat : Int) -
      (Format.binary64.exponentBias + Format.binary64.mantissaBitsWithoutImplicit) = e := by
    show _ - (1023 + 52) = e
    omega
  rw [UnpackedFloat.finite.injEq]
  exact ⟨rfl, hmantissa, hvalue⟩

theorem neg_normal {m : Nat} {e : Int} (h : Normal m e) :
    -normal .positive h = normal .negative h := by
  have hneg : -normal .positive h =
      Float.ofModel (Float.Model.pack (neg (normal .positive h).toModel.unpack)) := rfl
  rw [hneg, unpack_normal]
  rfl

/-- The normal double one. -/
theorem normal_one : Normal (2 ^ 52) (-52) := ⟨by decide, by decide, by decide, by decide⟩

theorem normal_mul_one {m : Nat} {e : Int} (h : Normal m e) :
    normal .positive h * normal .positive normal_one = normal .positive h := by
  have hmul : normal .positive h * normal .positive normal_one =
      Float.ofModel (Float.Model.pack (mul .binary64 (normal .positive h).toModel.unpack
        (normal .positive normal_one).toModel.unpack)) := rfl
  have hround := roundWithAccuracy_shifted h .positive 52
  -- The mantissa of one is a single bit with zeros behind it, which rounding drops.
  rw [hmul, unpack_normal, unpack_normal]
  exact congrArg (fun u => Float.ofModel (Float.Model.pack u)) hround

/-! ## Whole numbers -/

variable {n : Nat}

/-- A whole number with zeros behind its bits, so that there are 53 of them. -/
theorem normal_whole (hpos : 0 < n) (hn : n < 2 ^ 53) :
    Normal (n * 2 ^ (52 - n.log2)) (n.log2 - 52) := by
  have hlow : 2 ^ n.log2 ≤ n := Nat.log2_self_le hpos.ne'
  have hhigh : n < 2 ^ (n.log2 + 1) := Nat.lt_log2_self
  have hlog : n.log2 < 53 := (Nat.log2_lt hpos.ne').mpr hn
  have hzeros : 0 < 2 ^ (52 - n.log2) := Nat.two_pow_pos _
  have hmin : 2 ^ n.log2 * 2 ^ (52 - n.log2) ≤ n * 2 ^ (52 - n.log2) :=
    Nat.mul_le_mul_right _ hlow
  have hmax : n * 2 ^ (52 - n.log2) < 2 ^ (n.log2 + 1) * 2 ^ (52 - n.log2) :=
    Nat.mul_lt_mul_of_pos_right hhigh hzeros
  rw [← Nat.pow_add, show n.log2 + (52 - n.log2) = 52 by omega] at hmin
  rw [← Nat.pow_add, show n.log2 + 1 + (52 - n.log2) = 53 by omega] at hmax
  exact ⟨hmin, hmax, by omega, by omega⟩

theorem round_whole (hpos : 0 < n) (hn : n < 2 ^ 53) :
    UnpackedFloat.round .binary64 .positive n 0 =
      .finite .positive (n * 2 ^ (52 - n.log2)) (n.log2 - 52) (normal_whole hpos hn).pos := by
  have hlog : n.log2 < 53 := (Nat.log2_lt hpos.ne').mpr hn
  have htarget : Format.binary64.targetExponent (totalExponent n 0) = (n.log2 : Int) - 52 := by
    simp only [Format.targetExponent, totalExponent, Format.mantissaBits, Format.minExponent]
    omega
  have hamount : (0 - ((n.log2 : Int) - 52)).toNat = 52 - n.log2 := by omega
  have hexponent : (0 : Int) - (52 - n.log2 : Nat) = (n.log2 : Int) - 52 := by omega
  have hexact := roundWithAccuracy_shifted (normal_whole hpos hn) .positive 0
  rw [Nat.pow_zero, Nat.mul_one, Int.natCast_zero, Int.sub_zero] at hexact
  unfold UnpackedFloat.round decreaseExponent
  dsimp only
  rw [htarget, hamount, hexponent, Nat.shiftLeft_eq]
  exact hexact

/-- A whole number of at most 53 bits is converted exactly. -/
theorem toFloat_whole (hpos : 0 < n) (hn : n < 2 ^ 53) :
    n.toUInt64.toFloat = normal .positive (normal_whole hpos hn) := by
  have hnat : n.toUInt64.toNat = n := by
    show n % 2 ^ 64 = n
    omega
  have hsign : compare (n : Int) 0 = .gt := Int.compare_eq_gt.mpr (by omega)
  have hconvert : n.toUInt64.toFloat = Float.ofModel
      (Float.Model.pack (normalize .binary64 (n.toUInt64.toNat : Int) 0 .positive)) := rfl
  rw [hconvert, hnat]
  unfold UnpackedFloat.normalize
  rw [hsign]
  dsimp only
  rw [Int.toNat_natCast, round_whole hpos hn]
  rfl

/-- A whole number of at most 53 bits is the double that its digits spell. -/
theorem nearest_whole (hpos : 0 < n) (hn : n < 2 ^ 53) :
    nearest n 0 = normal .positive (normal_whole hpos hn) := by
  have hlog : n.log2 < 53 := (Nat.log2_lt hpos.ne').mpr hn
  have hone : Float.exactlyRepresentablePowersOfTen[0] = normal .positive normal_one := by
    decide +kernel
  have hexact : n < 2 ^ 53 ∧ 0 ≤ 22 := ⟨hn, by decide⟩
  unfold nearest
  rw [if_neg hpos.ne', if_neg (by omega), if_neg (by omega)]
  show Float.ofScientific n false 0 = _
  unfold Float.ofScientific
  rw [dif_pos hexact]
  show n.toUInt64.toFloat * Float.exactlyRepresentablePowersOfTen[0] = _
  rw [hone, toFloat_whole hpos hn, normal_mul_one]

/-- The whole number is what is left when the double is cut off. -/
theorem truncate32_whole (hpos : 0 < n) (hn : n < 2 ^ 53) (s : Sign) :
    truncate32 (normal s (normal_whole hpos hn)) = clamp int32Min int32Max (s.apply n) := by
  have hlog : n.log2 < 53 := (Nat.log2_lt hpos.ne').mpr hn
  have hquotient : ∃ num den, Binary.quotient (n * 2 ^ (52 - n.log2)) (n.log2 - 52) = (num, den) ∧
      num / den = n := by
    unfold Binary.quotient
    by_cases hfull : n.log2 = 52
    · rw [if_pos (by omega), hfull]
      exact ⟨_, _, rfl, by simp [twoPow]⟩
    · have hzeros : (-((n.log2 : Int) - 52)).toNat = 52 - n.log2 := by omega
      rw [if_neg (by omega), hzeros]
      exact ⟨_, _, rfl, Nat.mul_div_cancel _ (Nat.two_pow_pos _)⟩
  unfold truncate32 toWhole
  rw [ofFloat_normal]
  obtain ⟨num, den, hpair, hvalue⟩ := hquotient
  dsimp only
  rw [hpair]
  dsimp only
  rw [hvalue]
  cases s <;> rfl

/-! ## The texts of whole numbers -/

theorem readDigits?_natDigits (n : Nat) : readDigits? (natDigits n) = some (nearest n 0) := by
  have hdigits : ∀ c ∈ natDigits n, isDigit c = true := fun c hc => isDigit_of_mem_natDigits hc
  have hwhole : (natDigits n).takeWhile isDigit = natDigits n :=
    List.takeWhile_eq_self_iff.mpr hdigits
  have hrest : (natDigits n).dropWhile isDigit = [] := List.dropWhile_eq_nil_iff.mpr hdigits
  have hsome : (natDigits n).isEmpty = false := by simp [natDigits_ne_nil n]
  unfold readDigits?
  rw [hwhole, hrest]
  dsimp only
  rw [hsome, List.append_nil, natOfDigits_natDigits]
  rfl

theorem toLower_of_isDigit {c : Char} (h : isDigit c = true) : c.toLower = c := by
  have hcode : c.toNat ≤ 57 := (toNat_of_isDigit h).2
  unfold Char.toLower
  split
  · rename_i hletter
    have hcapital : 65 ≤ c.toNat := UInt32.le_iff_toNat_le.mp hletter.1
    omega
  · rfl

theorem natDigits_ne_cons (n : Nat) {c : Char} (hc : isDigit c = false) (cs : List Char) :
    natDigits n ≠ c :: cs := by
  intro heq
  have hmem : c ∈ natDigits n := by rw [heq]; exact List.mem_cons_self
  have hdigit := isDigit_of_mem_natDigits hmem
  rw [hc] at hdigit
  cases hdigit

theorem readUnsigned?_natDigits (n : Nat) : readUnsigned? (natDigits n) = some (nearest n 0) := by
  have hdigits : ∀ c ∈ natDigits n, isDigit c = true := fun c hc => isDigit_of_mem_natDigits hc
  have hlower : (natDigits n).map Char.toLower = natDigits n :=
    (Text.eq_map_iff.mpr fun c hc => (toLower_of_isDigit (hdigits c hc)).symm).symm
  -- Digits are no letters, so none of the special values is spelled.
  have hspecial := not_or.mpr ⟨natDigits_ne_cons n (c := 'i') rfl ['n', 'f'],
    natDigits_ne_cons n (c := 'i') rfl ['n', 'f', 'i', 'n', 'i', 't', 'y']⟩
  unfold readUnsigned?
  dsimp only
  rw [hlower, if_neg hspecial, if_neg (natDigits_ne_cons n rfl _), readDigits?_natDigits]

theorem truncate32_nearest {n : Nat} (hn : n ≤ 2147483648) :
    truncate32 (nearest n 0) = clamp int32Min int32Max n ∧
      truncate32 (-nearest n 0) = clamp int32Min int32Max (-n) := by
  rcases Nat.eq_zero_or_pos n with rfl | hpos
  · decide +kernel
  · have hsmall : n < 2 ^ 53 := by omega
    rw [nearest_whole hpos hsmall, neg_normal]
    exact ⟨truncate32_whole hpos hsmall .positive, truncate32_whole hpos hsmall .negative⟩

theorem isBlank_of_mem_intDigits {k : Int} {c : Char} (h : c ∈ intDigits k) :
    Text.isBlank c = false := by
  unfold intDigits at h
  split at h
  · rcases List.mem_cons.mp h with rfl | h
    · rfl
    · exact isBlank_of_isDigit (isDigit_of_mem_natDigits h)
  · exact isBlank_of_isDigit (isDigit_of_mem_natDigits h)

theorem intDigits_ne_nil (k : Int) : intDigits k ≠ [] := by
  unfold intDigits
  split
  · exact List.cons_ne_nil _ _
  · exact natDigits_ne_nil _

/-- A whole number of 32 bits is what its text spells, cut off. -/
theorem read?_intDigits {k : Int} (hlo : int32Min ≤ k) (hhi : k ≤ int32Max) :
    (read? (intDigits k)).map truncate32 = some k := by
  have hclamp : clamp int32Min int32Max k = k := by
    unfold clamp
    rw [if_neg (by omega), if_neg (by omega)]
  unfold int32Min at hlo
  unfold int32Max at hhi
  obtain ⟨hplus, hminus⟩ := truncate32_nearest (n := k.natAbs) (by omega)
  unfold intDigits
  split
  · have hread : read? ('-' :: natDigits k.natAbs) =
        (readUnsigned? (natDigits k.natAbs)).map (- ·) := rfl
    rw [hread, readUnsigned?_natDigits, Option.map_some, Option.map_some, hminus,
      show (-(k.natAbs : Int)) = k by omega, hclamp]
  · have hread : read? (natDigits k.natAbs) = readUnsigned? (natDigits k.natAbs) := by
      unfold read?
      split
      · rename_i heq
        exact absurd heq (natDigits_ne_cons _ rfl _)
      · rename_i heq
        exact absurd heq (natDigits_ne_cons _ rfl _)
      · rfl
    rw [hread, readUnsigned?_natDigits, Option.map_some, hplus,
      show (k.natAbs : Int) = k by omega, hclamp]

end PlaceWeather.Decimal
