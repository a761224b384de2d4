import Mathlib.Tactic.SplitIfs

set_option autoImplicit false

/-!
# The order of texts is that of their bytes

Texts are compared by their characters. In UTF-8 this is the order of the bytes: a character with a
greater code point has a greater first byte if it takes more bytes, and otherwise its bytes are the
digits of the code point, the most significant ones first.

## Main definitions

* `Text.bytes` — the bytes of a text.

## Main results

* `Text.bytes_lt_bytes` — a text in front of another is in front of it by its bytes.
-/

namespace FrameScript

namespace Text

/-- The bytes of a text in UTF-8. -/
def bytes (s : String) : List UInt8 :=
  s.toUTF8.data.toList

theorem bytes_eq_flatMap (s : String) : bytes s = s.toList.flatMap String.utf8EncodeChar := by
  rw [bytes, String.toUTF8_eq_toByteArray, ← String.utf8Encode_toList, List.utf8Encode,
    List.data_toByteArray]

theorem toNat_val_lt (c : Char) : c.val.toNat < 0x110000 := by
  have hvalid := c.valid
  simp only [UInt32.isValidChar, Nat.isValidChar] at hvalid
  omega

/-- The bytes of a character are in front of those of a greater one, whatever follows them. -/
theorem encodeChar_append_lt {c d : Char} (h : c < d) (x y : List UInt8) :
    String.utf8EncodeChar c ++ x < String.utf8EncodeChar d ++ y := by
  have hlt : c.val.toNat < d.val.toNat := UInt32.lt_iff_toNat_lt.mp h
  have hc := toNat_val_lt c
  have hd := toNat_val_lt d
  simp only [String.utf8EncodeChar]
  generalize c.val.toNat = m at *
  generalize d.val.toNat = n at *
  -- the digits of a code point to the base of 64, each by way of the one behind it
  have hdigits (k : Nat) : k / 262144 = k / 4096 / 64 ∧ k / 4096 = k / 64 / 64 := by omega
  have hm := hdigits m
  have hn := hdigits n
  simp only [apply_ite (· ++ x), apply_ite (· ++ y), List.cons_append, List.nil_append]
  -- one case for each number of bytes that the two characters take
  split_ifs
  all_goals simp only [List.cons_lt_cons_iff, UInt8.lt_iff_toNat_lt, ← UInt8.toNat_inj,
    UInt8.toNat_ofNat', Nat.reducePow]
  all_goals simp (disch := omega) only [Nat.mod_eq_of_lt]
  all_goals omega

theorem encodeChar_ne_nil (c : Char) : String.utf8EncodeChar c ≠ [] := by
  simp only [String.utf8EncodeChar]
  split_ifs <;> exact List.cons_ne_nil _ _

theorem flatMap_encodeChar_lt {cs ds : List Char} (h : cs < ds) :
    cs.flatMap String.utf8EncodeChar < ds.flatMap String.utf8EncodeChar := by
  induction h with
  | @nil d ds =>
    obtain ⟨b, bs, hbytes⟩ := List.exists_cons_of_ne_nil (encodeChar_ne_nil d)
    rw [List.flatMap_cons, hbytes]
    exact List.nil_lt_cons _ _
  | rel hlt =>
    rw [List.flatMap_cons, List.flatMap_cons]
    exact encodeChar_append_lt hlt _ _
  | cons _ ih =>
    rw [List.flatMap_cons, List.flatMap_cons]
    exact List.append_left_lt ih

/-- **The order of texts is that of their bytes.** -/
theorem bytes_lt_bytes {s t : String} (h : s < t) : bytes s < bytes t := by
  rw [bytes_eq_flatMap, bytes_eq_flatMap]
  exact flatMap_encodeChar_lt h

end Text

end FrameScript
