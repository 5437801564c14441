/-!
Arithmetic of a roster of replicas. Replica identifiers and views are integers of 32 bits with a
sign; they are kept as `Int`, since the only operation that could leave that range is the step
to the next view, and the engine refuses it at `maxView`.
-/

namespace ViewSync

/-- The last view. No replica proposes a view after it. -/
def maxView : Int := 2147483647

/-- The least number of replicas that is more than half of `replicas`. Division is toward zero. -/
def quorumSize (replicas : Int) : Int :=
  Int.tdiv replicas 2 + 1

/-- Leadership goes round the roster: the leader of a view is its remainder by the number of
replicas. The remainder has the sign of the view. -/
def leaderOf (view replicas : Int) : Int :=
  Int.tmod view replicas

end ViewSync
