/-!
# The exceptions of the bindings

What the Cython modules `_ibverbs` and `_efa` raise, with what they make of the codes of C functions.
-/

namespace Rdma4py.Bindings

inductive Exn
  | verbsError (operation : String) (errno : Int) (detail : Option String)
  | efaError (operation : String) (errno : Int) (detail : Option String)
  | valueError (text : String)
  | memoryError
  | keyError (text : String)
  deriving DecidableEq, Repr

def ENOENT : Int := 2
def EIO : Int := 5
def EBADF : Int := 9
def EBUSY : Int := 16

/-- `_error_from_rc`. -/
def errorFromRc (rc errno : Int) : Int :=
  if 0 < rc then rc else if errno ≠ 0 then errno else if rc < -1 then -rc else EIO

end Rdma4py.Bindings
