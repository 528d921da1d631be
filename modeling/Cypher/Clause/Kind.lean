/-! The kinds of clauses. -/

namespace Cypher

inductive ClauseKind where
  | matching
  | creating
  | merging
  | passing
  | returning
  | unwinding
  | calling
  | procedure
  | iterating
  | union
  | deleting
  | finish
  | raw
deriving DecidableEq, Repr

namespace ClauseKind

def name : ClauseKind → String
  | matching => "Match"
  | creating => "Create"
  | merging => "Merge"
  | passing => "With"
  | returning => "Return"
  | unwinding => "Unwind"
  | calling => "Call"
  | procedure => "CallProcedure"
  | iterating => "Foreach"
  | union => "Union"
  | deleting => "Delete"
  | finish => "Finish"
  | raw => "Raw"

/-- A clause of this kind can be followed by another clause. -/
def isChainable : ClauseKind → Bool
  | returning => false
  | union => false
  | finish => false
  | _ => true

end ClauseKind

end Cypher
