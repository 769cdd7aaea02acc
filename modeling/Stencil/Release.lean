/-!
# The release

The version that is named in program headers and in ledgers.
-/

namespace Stencil

/-- The version of this tool. -/
def release : String := "0.3.0"

end Stencil
