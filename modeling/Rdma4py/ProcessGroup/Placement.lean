import Rdma4py.ProcessGroup.Group

/-!
# The place of a member

What `_reconfigure` computes from the handles once it has accepted them: the rank, the size and the neighbours in the
ring.
-/

namespace Rdma4py.ProcessGroup

/-- The place of the group among the members: `rank`, `size`, `next_member` and `prev_member`. -/
structure Placement where
  rank : Nat
  size : Nat
  nextMember : Option Member
  prevMember : Option Member
  deriving DecidableEq, Repr

/-- The place of the member at an index. In Python, `(0 - 1) % size` is `size - 1`. -/
def Placement.at (members : List Member) (rank : Nat) : Placement where
  rank := rank
  size := members.length
  nextMember := members[(rank + 1) % members.length]?
  prevMember := members[(((rank : Int) - 1) % members.length).toNat]?

/-- `_reconfigure` up to the choice of the neighbours. -/
def Group.place (cfg : Config) (uuid : Int) (handles : Handles) (timeout : Option Duration) (g : Group) :
    Except Exn Placement := do
  let (rank, _) ← g.validateReconfigure cfg uuid handles timeout
  let members ← checkHandles cfg handles
  return .at members rank

end Rdma4py.ProcessGroup
