import Mathlib.Logic.Basic
import PlaceWeather.Text.Percent

/-!
# Encoded paths

Replacing `%2F` in an encoded text gives back the slashes of the text and nothing else: the
replacement cannot begin inside an escape, and only the byte of a slash is escaped as `%2F`
(`encodePath_eq_flatMap`).  So a path is encoded character by character, in the alphabet of
`PathText`, and decoding gives the path back (`decodeText?_encodePath`).
-/

namespace PlaceWeather.Percent

/-! ## Digits -/

/-- A digit of the hexadecimal system in upper case. -/
def IsUpperHex (c : Char) : Prop := ('0' ≤ c ∧ c ≤ '9') ∨ ('A' ≤ c ∧ c ≤ 'F')

instance (c : Char) : Decidable (IsUpperHex c) := inferInstanceAs (Decidable (_ ∨ _))

theorem isUpperHex_hexDigit {n : Nat} (hn : n < 16) : IsUpperHex (hexDigit n) := by
  have h : ∀ k : Fin 16, IsUpperHex (hexDigit k) := by decide
  exact h ⟨n, hn⟩

theorem hexValue?_hexDigit {n : Nat} (hn : n < 16) : hexValue? (hexDigit n) = some n := by
  have h : ∀ k : Fin 16, hexValue? (hexDigit k) = some k.val := by decide
  exact h ⟨n, hn⟩

theorem hexDigit_inj {m n : Nat} (hm : m < 16) (hn : n < 16) (h : hexDigit m = hexDigit n) :
    m = n := by
  have hvalues : some m = some n := by
    rw [← hexValue?_hexDigit hm, ← hexValue?_hexDigit hn, h]
  exact Option.some.inj hvalues

theorem hexDigit_ne_percent {n : Nat} (hn : n < 16) : hexDigit n ≠ '%' := by
  have h : ∀ k : Fin 16, hexDigit k ≠ '%' := by decide
  exact h ⟨n, hn⟩

theorem high_lt (b : UInt8) : b.toNat / 16 < 16 := by
  have hb : b.toNat < 256 := b.toNat_lt
  omega

theorem low_lt (b : UInt8) : b.toNat % 16 < 16 := Nat.mod_lt _ (by decide)

/-! ## Bytes of a character -/

/-- The byte of a slash. -/
def slashByte : UInt8 := 0x2F

theorem utf8EncodeChar_of_ascii {c : Char} (h : c.toNat < 128) :
    String.utf8EncodeChar c = [UInt8.ofNat c.toNat] := by
  have hle : c.val.toNat ≤ 0x7F := by
    have hval : c.val.toNat = c.toNat := rfl
    omega
  unfold String.utf8EncodeChar
  exact if_pos hle

/-- Every byte of a character outside of ASCII is greater than those of ASCII. -/
theorem le_of_mem_utf8EncodeChar {c : Char} (h : 128 ≤ c.toNat) {b : UInt8}
    (hb : b ∈ String.utf8EncodeChar c) : 128 ≤ b.toNat := by
  have hlt : ¬ c.val.toNat ≤ 0x7F := by
    have hval : c.val.toNat = c.toNat := rfl
    omega
  unfold String.utf8EncodeChar at hb
  dsimp only at hb
  rw [if_neg hlt] at hb
  split at hb
  · simp only [List.mem_cons, List.not_mem_nil, or_false] at hb
    rcases hb with rfl | rfl <;> rw [UInt8.toNat_ofNat'] <;> omega
  · split at hb
    · simp only [List.mem_cons, List.not_mem_nil, or_false] at hb
      rcases hb with rfl | rfl | rfl <;> rw [UInt8.toNat_ofNat'] <;> omega
    · simp only [List.mem_cons, List.not_mem_nil, or_false] at hb
      rcases hb with rfl | rfl | rfl | rfl <;> rw [UInt8.toNat_ofNat'] <;> omega

/-- The byte of a slash stands in the encoding of no other character. -/
theorem slashByte_not_mem_utf8EncodeChar {c : Char} (h : c ≠ '/') :
    slashByte ∉ String.utf8EncodeChar c := by
  intro hmem
  have hslash : slashByte.toNat = 47 := rfl
  by_cases hascii : c.toNat < 128
  · rw [utf8EncodeChar_of_ascii hascii, List.mem_singleton] at hmem
    have hcode : 47 = c.toNat := by
      rw [← hslash, hmem, UInt8.toNat_ofNat']
      omega
    apply h
    apply Char.toNat_inj.mp
    exact hcode.symm
  · have hle : 128 ≤ slashByte.toNat := le_of_mem_utf8EncodeChar (by omega) hmem
    omega

/-! ## Putting slashes back -/

theorem restoreSlashes_cons_of_ne {c : Char} (h : c ≠ '%') (rest : List Char) :
    restoreSlashes (c :: rest) = c :: restoreSlashes rest := by
  rw [restoreSlashes]
  rintro _ rfl
  exact absurd rfl h

theorem restoreSlashes_escapeByte_slash (rest : List Char) :
    restoreSlashes (escapeByte slashByte ++ rest) = '/' :: restoreSlashes rest := rfl

/-- The escape of any other byte stays, since its digits are not those of a slash and none of them is
a percent sign. -/
theorem restoreSlashes_escapeByte {b : UInt8} (h : b ≠ slashByte) (rest : List Char) :
    restoreSlashes (escapeByte b ++ rest) = escapeByte b ++ restoreSlashes rest := by
  have hhigh : hexDigit (b.toNat / 16) ≠ '%' := hexDigit_ne_percent (high_lt b)
  have hlow : hexDigit (b.toNat % 16) ≠ '%' := hexDigit_ne_percent (low_lt b)
  have hdigits : ¬ (hexDigit (b.toNat / 16) = '2' ∧ hexDigit (b.toNat % 16) = 'F') := by
    rintro ⟨htwo, hf⟩
    have hfirst : b.toNat / 16 = 2 := hexDigit_inj (high_lt b) (by decide) htwo
    have hsecond : b.toNat % 16 = 15 := hexDigit_inj (low_lt b) (by decide) hf
    apply h
    apply UInt8.toNat_inj.mp
    have hslash : slashByte.toNat = 47 := rfl
    omega
  have hstart : restoreSlashes ('%' :: hexDigit (b.toNat / 16) :: hexDigit (b.toNat % 16) :: rest) =
      '%' :: restoreSlashes (hexDigit (b.toNat / 16) :: hexDigit (b.toNat % 16) :: rest) := by
    rw [restoreSlashes]
    rintro _ _ heq
    injection heq with hfirst heq
    injection heq with hsecond _
    exact hdigits ⟨hfirst, hsecond⟩
  show restoreSlashes ('%' :: hexDigit (b.toNat / 16) :: hexDigit (b.toNat % 16) :: rest) = _
  rw [hstart, restoreSlashes_cons_of_ne hhigh, restoreSlashes_cons_of_ne hlow]
  rfl

theorem restoreSlashes_escapeBytes {bytes : List UInt8} (h : slashByte ∉ bytes)
    (rest : List Char) :
    restoreSlashes (bytes.flatMap escapeByte ++ rest) =
      bytes.flatMap escapeByte ++ restoreSlashes rest := by
  induction bytes with
  | nil => rfl
  | cons b bytes ih =>
      rw [List.mem_cons, not_or] at h
      have hb : b ≠ slashByte := Ne.symm h.1
      rw [List.flatMap_cons, List.append_assoc, restoreSlashes_escapeByte hb, ih h.2,
        List.append_assoc]

theorem encodeChar_slash : encodeChar '/' = escapeByte slashByte := by decide

theorem ne_percent_of_isUnreserved {c : Char} (h : isUnreserved c = true) : c ≠ '%' := by
  rintro rfl
  exact absurd h (by decide)

theorem restoreSlashes_encodeChar {c : Char} (h : c ≠ '/') (rest : List Char) :
    restoreSlashes (encodeChar c ++ rest) = encodeChar c ++ restoreSlashes rest := by
  unfold encodeChar
  split
  · rename_i hkept
    exact restoreSlashes_cons_of_ne (ne_percent_of_isUnreserved hkept) rest
  · exact restoreSlashes_escapeBytes (slashByte_not_mem_utf8EncodeChar h) rest

/-- The encoding of a character of a path: a slash is kept. -/
def encodePathChar (c : Char) : List Char := if c = '/' then ['/'] else encodeChar c

/-- A path is encoded character by character. -/
theorem encodePath_eq_flatMap (cs : List Char) : encodePath cs = cs.flatMap encodePathChar := by
  unfold encodePath encode
  induction cs with
  | nil => rfl
  | cons c cs ih =>
      rw [List.flatMap_cons, List.flatMap_cons, ← ih]
      unfold encodePathChar
      by_cases hc : c = '/'
      · rw [if_pos hc, hc, encodeChar_slash, restoreSlashes_escapeByte_slash]
        rfl
      · rw [if_neg hc, restoreSlashes_encodeChar hc]

/-! ## Texts without escapes -/

/-- Characters that a path keeps as they are. -/
def IsKept (c : Char) : Prop := isUnreserved c = true ∨ c = '/'

theorem encodePathChar_of_isKept {c : Char} (h : IsKept c) : encodePathChar c = [c] := by
  by_cases hc : c = '/'
  · rw [encodePathChar, if_pos hc, hc]
  · have hkept : isUnreserved c = true := h.resolve_right hc
    rw [encodePathChar, if_neg hc, encodeChar, if_pos hkept]

/-- Three characters are written for each byte of an escaped character. -/
theorem one_lt_length_encodePathChar {c : Char} (h : ¬ IsKept c) :
    1 < (encodePathChar c).length := by
  obtain ⟨hescaped, hc⟩ := not_or.mp h
  have hbytes : 0 < (String.utf8EncodeChar c).length := by
    rw [String.length_utf8EncodeChar]
    exact Char.utf8Size_pos c
  have hlength : ∀ bytes : List UInt8, (bytes.flatMap escapeByte).length = 3 * bytes.length := by
    intro bytes
    induction bytes with
    | nil => rfl
    | cons b bytes ih =>
        rw [List.flatMap_cons, List.length_append, ih, List.length_cons]
        show 3 + 3 * bytes.length = 3 * (bytes.length + 1)
        omega
  rw [encodePathChar, if_neg hc, encodeChar, if_neg hescaped, hlength]
  omega

theorem length_le_length_encodePath (cs : List Char) : cs.length ≤ (encodePath cs).length := by
  rw [encodePath_eq_flatMap]
  induction cs with
  | nil => exact Nat.le_refl 0
  | cons c cs ih =>
      have hc : 1 ≤ (encodePathChar c).length := by
        by_cases hkept : IsKept c
        · rw [encodePathChar_of_isKept hkept]
          exact Nat.le_refl 1
        · exact Nat.le_of_lt (one_lt_length_encodePathChar hkept)
      rw [List.flatMap_cons, List.length_append, List.length_cons]
      omega

/-- A path is its own encoding exactly when all its characters are kept. -/
theorem encodePath_eq_self_iff {cs : List Char} : encodePath cs = cs ↔ ∀ c ∈ cs, IsKept c := by
  constructor
  · intro hsame c hc
    apply Classical.byContradiction
    intro hescaped
    -- One escape makes the text longer, and nothing makes it shorter.
    obtain ⟨before, after, rfl⟩ := List.append_of_mem hc
    have hlength := congrArg List.length hsame
    have hbefore := length_le_length_encodePath before
    have hafter := length_le_length_encodePath after
    have hlonger := one_lt_length_encodePathChar hescaped
    simp only [encodePath_eq_flatMap, List.flatMap_append, List.flatMap_cons, List.length_append,
      List.length_cons] at hlength hbefore hafter
    omega
  · intro hkept
    rw [encodePath_eq_flatMap]
    induction cs with
    | nil => rfl
    | cons c cs ih =>
        rw [List.flatMap_cons, encodePathChar_of_isKept (hkept c List.mem_cons_self),
          ih fun d hd => hkept d (List.mem_cons_of_mem c hd)]
        rfl

/-! ## The alphabet of paths -/

/-- A text of letters, digits, `-_.~` and slashes, and of escapes with two upper-case digits. -/
inductive PathText : List Char → Prop
  | nil : PathText []
  | kept {c : Char} {rest : List Char} (hc : isUnreserved c = true ∨ c = '/')
      (hrest : PathText rest) : PathText (c :: rest)
  | escape {a b : Char} {rest : List Char} (ha : IsUpperHex a) (hb : IsUpperHex b)
      (hrest : PathText rest) : PathText ('%' :: a :: b :: rest)

theorem PathText.escapeBytes (bytes : List UInt8) {rest : List Char} (h : PathText rest) :
    PathText (bytes.flatMap escapeByte ++ rest) := by
  induction bytes with
  | nil => exact h
  | cons b bytes ih =>
      rw [List.flatMap_cons, List.append_assoc]
      exact .escape (isUpperHex_hexDigit (high_lt b)) (isUpperHex_hexDigit (low_lt b)) ih

theorem PathText.encodePathChar (c : Char) {rest : List Char} (h : PathText rest) :
    PathText (encodePathChar c ++ rest) := by
  unfold Percent.encodePathChar encodeChar
  split
  · exact .kept (.inr rfl) h
  · split
    · rename_i hkept
      exact .kept (.inl hkept) h
    · exact h.escapeBytes _

theorem pathText_encodePath (cs : List Char) : PathText (encodePath cs) := by
  rw [encodePath_eq_flatMap]
  induction cs with
  | nil => exact .nil
  | cons c cs ih =>
      rw [List.flatMap_cons]
      exact ih.encodePathChar c

/-! ## Decoding -/

theorem decode_escapeByte (b : UInt8) (rest : List Char) :
    decode (escapeByte b ++ rest) = (decode rest).map (b :: ·) := by
  have hhigh : hexValue? (hexDigit (b.toNat / 16)) = some (b.toNat / 16) :=
    hexValue?_hexDigit (high_lt b)
  have hlow : hexValue? (hexDigit (b.toNat % 16)) = some (b.toNat % 16) :=
    hexValue?_hexDigit (low_lt b)
  have hbyte : UInt8.ofNat (16 * (b.toNat / 16) + b.toNat % 16) = b := by
    rw [Nat.div_add_mod]
    exact UInt8.ofNat_toNat
  show decode ('%' :: hexDigit (b.toNat / 16) :: hexDigit (b.toNat % 16) :: rest) = _
  rw [decode, hhigh, hlow]
  dsimp only
  rw [hbyte]

theorem decode_escapeBytes (bytes : List UInt8) (rest : List Char) :
    decode (bytes.flatMap escapeByte ++ rest) = (decode rest).map (bytes ++ ·) := by
  induction bytes with
  | nil => exact (Option.map_id_apply).symm
  | cons b bytes ih =>
      rw [List.flatMap_cons, List.append_assoc, decode_escapeByte, ih, Option.map_map]
      rfl

theorem decode_cons_of_ne {c : Char} (h : c ≠ '%') (rest : List Char) :
    decode (c :: rest) = (decode rest).map (String.utf8EncodeChar c ++ ·) := by
  rw [decode, if_neg h]
  rintro _ _ _ rfl
  exact absurd rfl h

theorem decode_encodePathChar (c : Char) (rest : List Char) :
    decode (encodePathChar c ++ rest) = (decode rest).map (String.utf8EncodeChar c ++ ·) := by
  unfold encodePathChar encodeChar
  split
  · rename_i hc
    rw [hc]
    exact decode_cons_of_ne (by decide) rest
  · split
    · rename_i hkept
      exact decode_cons_of_ne (ne_percent_of_isUnreserved hkept) rest
    · exact decode_escapeBytes _ rest

theorem decode_encodePath (cs : List Char) :
    decode (encodePath cs) = some (cs.flatMap String.utf8EncodeChar) := by
  rw [encodePath_eq_flatMap]
  induction cs with
  | nil => rfl
  | cons c cs ih =>
      rw [List.flatMap_cons, List.flatMap_cons, decode_encodePathChar, ih, Option.map_some]

/-- Decoding an encoded path gives the path. -/
theorem decodeText?_encodePath (s : String) : decodeText? (encodePath s.toList) = some s := by
  have hbytes : (s.toList.flatMap String.utf8EncodeChar).toByteArray = s.toByteArray :=
    String.utf8Encode_toList
  unfold decodeText?
  rw [decode_encodePath, Option.bind_some, hbytes]
  exact dif_pos s.isValidUTF8

/-- Different paths are encoded differently. -/
theorem encodePath_inj {s t : String} :
    encodePath s.toList = encodePath t.toList ↔ s = t := by
  constructor
  · intro h
    have hdecoded : some s = some t := by
      rw [← decodeText?_encodePath s, ← decodeText?_encodePath t, h]
    exact Option.some.inj hdecoded
  · rintro rfl
    rfl

end PlaceWeather.Percent
