/-!
# Fixed widths

The ranges of whole numbers that are kept in 32 and in 64 bits.
-/

set_option autoImplicit false

namespace MaterialInspection

/-- The least signed 32-bit number. -/
def minInt32 : Int := -2147483648

/-- The greatest signed 32-bit number. -/
def maxInt32 : Int := 2147483647

/-- The least signed 64-bit number. -/
def minInt64 : Int := -9223372036854775808

/-- The greatest signed 64-bit number. -/
def maxInt64 : Int := 9223372036854775807

/-- The number of different 64-bit words, and the first number that is none. -/
def wordCount : Nat := 18446744073709551616

end MaterialInspection
