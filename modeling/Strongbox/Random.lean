/-
  Strongbox.Random — random octets as an endless supply that operations are given.
-/

import Strongbox.Bytes

namespace Strongbox

abbrev Random := Nat → UInt8

namespace Random

def octets (r : Random) (n : Nat) : Bytes := (List.range n).map r

def after (r : Random) (n : Nat) : Random := fun i => r (n + i)

@[simp] theorem length_octets (r : Random) (n : Nat) : (r.octets n).length = n := by simp [octets]

end Random

end Strongbox
