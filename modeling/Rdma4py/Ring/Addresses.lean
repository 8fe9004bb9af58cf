import Rdma4py.Lib.Outcome
import Rdma4py.Ring.Lemmas.Int32

/-!
# Addresses of the ring kernel

The check on the host bounds the number of elements. It does not bound the products that the kernel computes.
-/

namespace Rdma4py.Ring

open Lib ProcessGroup

end Rdma4py.Ring
