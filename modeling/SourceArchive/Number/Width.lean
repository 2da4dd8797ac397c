/-!
# Whole numbers of 64 bits

The data formats that the library reads hold whole numbers of 64 bits, with a sign or without.
-/

namespace SourceArchive

/-- Whether a whole number fits into 64 bits with a sign. -/
def fitsSigned (n : Int) : Bool := -9223372036854775808 ≤ n && n < 9223372036854775808

def fitsUnsigned (n : Int) : Bool := 0 ≤ n && n < 18446744073709551616

end SourceArchive
