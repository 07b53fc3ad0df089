/-!
# Version of the library
-/

namespace DirectiveLowering

/-- Version of the library. -/
def version : String := "1.0.0"

end DirectiveLowering
