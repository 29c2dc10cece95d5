import Dnlab.Lib.Hash

/-!
# Deterministic identifiers

The numbers that a lab derives from its name, after `utils/ids.py`.
-/

namespace Dnlab.Ids

/-- The hash of a lab name. -/
def hash (labName : String) : ℕ := Hash.crc32 (Hash.encode labName) &&& 0xFFFFFFFF

/-- VRF table ID in range 100-999. -/
def vrfTableId (labName : String) : ℕ := 100 + hash labName % 900

/-- Management VXLAN ID in range 2000-2999. -/
def mgmtVxlanId (labName : String) : ℕ := 2000 + hash labName % 1000

/-- Base VXLAN ID for dataplane tunnels in range 3000-3999. -/
def dataplaneVxlanBase (labName : String) : ℕ := 3000 + hash labName % 1000

/-- TCP port of the runtime relay of a lab, in range 23000-23999. -/
def runtimeRelayPort (labName : String) : ℕ := 23000 + hash labName % 1000

/-- VNI of the fabric of a real network. -/
def realnetVxlanId (labName : String) (index : ℕ) : ℕ := 5000 + (hash labName + index) % 1000

end Dnlab.Ids
