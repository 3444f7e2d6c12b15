/-!
Signed machine words, as ranges of integers.
-/
namespace StoreBinding.Numeral

def fits32 (n : Int) : Bool := -0x80000000 ≤ n && n < 0x80000000

def fits64 (n : Int) : Bool := -0x8000000000000000 ≤ n && n < 0x8000000000000000

/-- The negative of a 64-bit word as a word: the least one is its own negative. -/
def negate64 (n : Int) : Int := if n = -0x8000000000000000 then n else -n

end StoreBinding.Numeral
