import Wagman.V3.Lemmas.Output

/-!
# 応答を受け取るホストの性質
-/

namespace Wagman.V3.Serial

variable {float : UInt32 → List UInt8} {env : Env}

/-! ## 公開する側 -/

def noise : Line := [0xff]

end Wagman.V3.Serial
