import Sentential.Text.Utf8

/-!
# Decoding what was encoded

The bytes of a text in UTF-8 decode to the text (`decode_utf8Bytes`). The first byte of a character
announces the bounds of the bytes after it, and the bytes of every character keep to them
(`exists_lead_of_utf8EncodeChar`); no character is a surrogate, which the bounds exclude.
-/

namespace Sentential.Text.Utf8

/-- The bytes of a text in UTF-8. -/
def utf8Bytes (s : String) : List UInt8 := s.toUTF8.data.toList

theorem utf8Bytes_eq_flatMap (s : String) :
    utf8Bytes s = s.toList.flatMap String.utf8EncodeChar := by
  rw [utf8Bytes, String.toUTF8_eq_toByteArray, ← String.utf8Encode_toList, List.utf8Encode,
    List.toList_data_toByteArray]

/-! ## First bytes -/

theorem lead?_of_two {b : Nat} (h : 0xC2 ≤ b) (h' : b < 0xE0) :
    lead? b = some (b - 0xC0, [continuation]) := by
  rw [lead?, if_neg (by omega), if_neg (by omega), if_pos h']

/-- The second byte of three is bounded more tightly after two of the first bytes. -/
theorem lead?_of_three {b : Nat} (h : 0xE0 ≤ b) (h' : b < 0xF0) :
    ∃ bounds : Bounds, lead? b = some (b - 0xE0, [bounds, continuation]) ∧
      ∀ second, 0x80 ≤ second → second ≤ 0xBF → (b = 0xE0 → 0xA0 ≤ second) →
        (b = 0xED → second ≤ 0x9F) → bounds.1 ≤ second ∧ second ≤ bounds.2 := by
  rw [lead?, if_neg (by omega), if_neg (by omega), if_neg (by omega)]
  by_cases hfirst : b = 0xE0
  · subst hfirst
    exact ⟨(0xA0, 0xBF), rfl, fun second _ hhigh hlow _ => ⟨hlow rfl, hhigh⟩⟩
  by_cases hsurrogate : b = 0xED
  · subst hsurrogate
    exact ⟨(0x80, 0x9F), rfl, fun second hlow _ _ hhigh => ⟨hlow, hhigh rfl⟩⟩
  rw [if_neg hfirst, if_neg hsurrogate, if_pos h']
  exact ⟨continuation, rfl, fun second hlow hhigh _ _ => ⟨hlow, hhigh⟩⟩

/-- The second byte of four is bounded more tightly after the lowest and after the highest first
byte. -/
theorem lead?_of_four {b : Nat} (h : 0xF0 ≤ b) (h' : b ≤ 0xF4) :
    ∃ bounds : Bounds, lead? b = some (b - 0xF0, [bounds, continuation, continuation]) ∧
      ∀ second, 0x80 ≤ second → second ≤ 0xBF → (b = 0xF0 → 0x90 ≤ second) →
        (b = 0xF4 → second ≤ 0x8F) → bounds.1 ≤ second ∧ second ≤ bounds.2 := by
  rw [lead?, if_neg (by omega), if_neg (by omega), if_neg (by omega), if_neg (by omega),
    if_neg (by omega), if_neg (by omega)]
  by_cases hfirst : b = 0xF0
  · subst hfirst
    exact ⟨(0x90, 0xBF), rfl, fun second _ hhigh hlow _ => ⟨hlow rfl, hhigh⟩⟩
  by_cases hlast : b = 0xF4
  · subst hlast
    exact ⟨(0x80, 0x8F), rfl, fun second hlow _ _ hhigh => ⟨hlow, hhigh rfl⟩⟩
  rw [if_neg hfirst, if_pos (by omega)]
  exact ⟨continuation, rfl, fun second hlow hhigh _ _ => ⟨hlow, hhigh⟩⟩

/-! ## Characters -/

theorem toNat_ofNat_of_lt {n : Nat} (h : n < 256) : (UInt8.ofNat n).toNat = n := by
  rw [UInt8.toNat_ofNat', Nat.mod_eq_of_lt h]

section Follow

variable {value read n : Nat} {bounds : Bounds} {more : List Bounds} {bytes : List UInt8}

/-- A byte within its bounds adds six bits. -/
theorem follow_cons (h : bounds.1 ≤ n % 64 + 128 ∧ n % 64 + 128 ≤ bounds.2) :
    follow value read (bounds :: more) (UInt8.ofNat (n % 64 + 128) :: bytes) =
      follow (value * 64 + n % 64) (read + 1) more bytes := by
  have hbyte : (UInt8.ofNat (n % 64 + 128)).toNat = n % 64 + 128 := toNat_ofNat_of_lt (by omega)
  rw [follow, hbyte, if_pos h, Nat.add_sub_cancel]

theorem follow_continuation :
    follow value read (continuation :: more) (UInt8.ofNat (n % 64 + 128) :: bytes) =
      follow (value * 64 + n % 64) (read + 1) more bytes := by
  apply follow_cons
  rw [continuation]
  omega

end Follow

/-- The bytes of a character are a first byte and what it announces. -/
theorem exists_lead_of_utf8EncodeChar (c : Char) :
    ∃ b tail value bounds, String.utf8EncodeChar c = b :: tail ∧
      lead? b.toNat = some (value, bounds) ∧
      ∀ rest, follow value 0 bounds (tail ++ rest) = .ok (c.toNat, rest) := by
  have hvalid : c.toNat < 0xD800 ∨ 0xDFFF < c.toNat ∧ c.toNat < 0x110000 := c.valid
  rw [String.utf8EncodeChar, Char.toNat_val]
  generalize c.toNat = v at hvalid ⊢
  by_cases hone : v ≤ 127
  · rw [if_pos hone]
    refine ⟨_, _, v, [], rfl, ?_, fun rest => rfl⟩
    rw [toNat_ofNat_of_lt (by omega), lead?, if_pos (by omega)]
  by_cases htwo : v ≤ 2047
  · have hlead := @lead?_of_two (v / 64 % 32 + 192) (by omega) (by omega)
    rw [if_neg hone, if_pos htwo]
    refine ⟨_, _, _, _, rfl, (congrArg lead? (toNat_ofNat_of_lt (by omega))).trans hlead,
      fun rest => ?_⟩
    rw [List.cons_append, follow_continuation, follow, List.nil_append,
      show (v / 64 % 32 + 192 - 0xC0) * 64 + v % 64 = v by omega]
  by_cases hthree : v ≤ 65535
  · -- the tighter bounds hold since the form is the shortest and `v` is no surrogate
    obtain ⟨bounds, hlead, hsecond⟩ := @lead?_of_three (v / 4096 % 16 + 224) (by omega) (by omega)
    rw [if_neg hone, if_neg htwo, if_pos hthree]
    refine ⟨_, _, _, _, rfl, (congrArg lead? (toNat_ofNat_of_lt (by omega))).trans hlead,
      fun rest => ?_⟩
    rw [List.cons_append, follow_cons (hsecond _ (by omega) (by omega) (by omega) (by omega)),
      List.cons_append, follow_continuation, follow, List.nil_append,
      show ((v / 4096 % 16 + 224 - 0xE0) * 64 + v / 64 % 64) * 64 + v % 64 = v by omega]
  · -- here since the form is the shortest and `v` is a code point
    obtain ⟨bounds, hlead, hsecond⟩ := @lead?_of_four (v / 262144 % 8 + 240) (by omega) (by omega)
    rw [if_neg hone, if_neg htwo, if_neg hthree]
    refine ⟨_, _, _, _, rfl, (congrArg lead? (toNat_ofNat_of_lt (by omega))).trans hlead,
      fun rest => ?_⟩
    have hvalue :
        (((v / 262144 % 8 + 240 - 0xF0) * 64 + v / 4096 % 64) * 64 + v / 64 % 64) * 64 + v % 64 =
          v := by
      omega
    rw [List.cons_append, follow_cons (hsecond _ (by omega) (by omega) (by omega) (by omega)),
      List.cons_append, follow_continuation, List.cons_append, follow_continuation, follow,
      List.nil_append, hvalue]

theorem decodeFrom_cons {position code value : Nat} {b : UInt8} {bytes rest : List UInt8}
    {bounds : List Bounds} (hlead : lead? b.toNat = some (value, bounds))
    (hfollow : follow value 0 bounds bytes = .ok (code, rest)) :
    decodeFrom position (b :: bytes) =
      (decodeFrom (position + 1 + bounds.length) rest).map (Char.ofNat code :: ·) := by
  rw [decodeFrom, hlead]
  dsimp only
  split
  · next heq => rw [hfollow] at heq; cases heq
  · next heq =>
      rw [hfollow] at heq
      cases heq
      cases decodeFrom (position + 1 + bounds.length) rest <;> rfl

/-- The bytes of some characters decode to the characters, wherever they stand. -/
theorem decodeFrom_flatMap (position : Nat) (cs : List Char) :
    decodeFrom position (cs.flatMap String.utf8EncodeChar) = .ok cs := by
  induction cs generalizing position with
  | nil => rw [List.flatMap_nil, decodeFrom]
  | cons c rest ih =>
      obtain ⟨b, tail, value, bounds, hbytes, hlead, hfollow⟩ := exists_lead_of_utf8EncodeChar c
      rw [List.flatMap_cons, hbytes, List.cons_append, decodeFrom_cons hlead (hfollow _), ih,
        Char.ofNat_toNat]
      rfl

theorem decode_utf8Bytes (s : String) : decode (utf8Bytes s) = .ok s := by
  rw [decode, utf8Bytes_eq_flatMap, decodeFrom_flatMap]
  exact congrArg Except.ok String.ofList_toList

end Sentential.Text.Utf8
