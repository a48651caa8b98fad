/-!
# Words

Integers are held in words of 64 bits.  A word without sign holds the naturals below `Word.size`, a
word with sign the integers from `-Word.half` up to `Word.half`, which itself is left out.
-/

namespace TraceStore.Word

/-- One more than the greatest word without sign, the 64th power of two. -/
def size : Nat := 18446744073709551616

/-- One more than the greatest word with sign, the 63rd power of two. -/
def half : Nat := 9223372036854775808

/-- The least integer of a word with sign. -/
def least : Int := -9223372036854775808

/-- The greatest integer of a word with sign. -/
def greatest : Int := 9223372036854775807

/-- Whether a word with sign holds an integer. -/
def holds (value : Int) : Bool := least ≤ value && value ≤ greatest

theorem size_eq : size = UInt64.size := rfl

theorem greatest_eq : greatest = Int64.maxValue.toInt := by decide

theorem least_eq : least = Int64.minValue.toInt := by decide

end TraceStore.Word
