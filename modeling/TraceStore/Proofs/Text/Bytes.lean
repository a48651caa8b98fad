import TraceStore.Text.Utf8
import Mathlib.Data.String.Basic
import Mathlib.Tactic.SplitIfs

/-!
# Texts and their bytes

The bytes of a text are those of its characters in order.  Texts are compared character by
character, and their bytes byte by byte, with the same outcome: of two characters the one with the
smaller code point has the smaller byte where they first differ.
-/

namespace TraceStore.Text

/-- The bytes of a text are those of its characters in order. -/
theorem bytes_eq_flatMap (text : String) :
    bytes text = text.toList.flatMap String.utf8EncodeChar := by
  have encoded : text.toUTF8 = text.toList.utf8Encode := String.utf8Encode_toList.symm
  rw [bytes, encoded, List.utf8Encode]
  exact List.toList_data_toByteArray

/-- Characters are ordered as their bytes are, whatever follows. -/
theorem utf8EncodeChar_append_lt {first second : Char} (less : first < second)
    (rest later : List UInt8) :
    String.utf8EncodeChar first ++ rest < String.utf8EncodeChar second ++ later := by
  have values : first.val.toNat < second.val.toNat := less
  have bound : second.val.toNat < 0x110000 := by
    rcases second.valid with small | ⟨-, large⟩
    · exact Nat.lt_trans small (by decide)
    · exact large
  simp only [String.utf8EncodeChar]
  generalize first.val.toNat = one at values
  generalize second.val.toNat = two at values bound
  -- the bytes behind the first one are digits in base 64
  have trailing (digit : Nat) : (digit % 64 + 128) % 256 = digit % 64 + 128 := by omega
  have digits (value : Nat) :
      value / 4096 = value / 64 / 64 ∧ value / 262144 = value / 64 / 64 / 64 := by
    simp [Nat.div_div_eq_div_mul]
  split_ifs
  all_goals
    simp only [List.cons_append, List.nil_append, List.cons_lt_cons_iff, UInt8.lt_iff_toNat_lt,
      ← UInt8.toNat_inj, UInt8.toNat_ofNat', trailing, digits]
    omega

theorem flatMap_utf8EncodeChar_lt {first second : List Char} (less : first < second) :
    first.flatMap String.utf8EncodeChar < second.flatMap String.utf8EncodeChar := by
  induction first generalizing second with
  | nil =>
      cases second with
      | nil => exact absurd less (List.lt_irrefl _)
      | cons character others =>
          obtain ⟨byte, bytes, encoded⟩ :=
            List.exists_cons_of_ne_nil (@String.utf8EncodeChar_ne_nil character)
          rw [List.flatMap_nil, List.flatMap_cons, encoded]
          exact List.nil_lt_cons _ _
  | cons character others ih =>
      cases second with
      | nil => exact absurd less (by simp)
      | cons next later =>
          rw [List.flatMap_cons, List.flatMap_cons]
          rcases List.cons_lt_cons_iff.mp less with before | ⟨rfl, behind⟩
          · exact utf8EncodeChar_append_lt before _ _
          · exact List.append_left_lt (ih behind)

/-- Texts are ordered as their bytes are. -/
theorem bytes_lt {first second : String} (less : first < second) : bytes first < bytes second := by
  rw [bytes_eq_flatMap, bytes_eq_flatMap]
  exact flatMap_utf8EncodeChar_lt (String.lt_iff_toList_lt.mp less)

end TraceStore.Text
