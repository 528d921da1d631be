import Cypher.Clause.Slot
import Cypher.Pattern

/-! Clauses, and the steps that fill them. -/

namespace Cypher

/-! ## Fresh clauses -/

namespace Clause

def matchPath (path : Path) : Clause :=
  .matching false none path .nil .absent .nil Deletion.empty

def create (path : Path) : Clause :=
  .creating path .nil .nil

def merge (path : Path) : Clause :=
  .merging path .nil .nil .nil

def pass (projection : Projection) : Clause :=
  .passing false projection RowOrder.empty .absent

def giveBack (projection : Projection) : Clause :=
  .returning false projection RowOrder.empty

def unwind (list : Expression) (member : Variable) : Clause :=
  .unwinding list member .nil Deletion.empty

def call (body : Chain) : Clause :=
  .calling .absent body .absent

def callProcedure (name : String) (arguments : List Expression) : Clause :=
  .procedure name (.ofList arguments) [] .absent

def forEach (member : Variable) (list : Expression) (body : Chain) : Clause :=
  .iterating member list body

def unite (queries : List Chain) : Clause :=
  .union false (.ofList queries)

def delete (detach : Bool) (targets : List Expression) : Clause :=
  .deleting (Deletion.empty.add detach targets)

def kind : Clause → ClauseKind
  | .matching .. => .matching
  | .creating .. => .creating
  | .merging .. => .merging
  | .passing .. => .passing
  | .returning .. => .returning
  | .unwinding .. => .unwinding
  | .calling .. => .calling
  | .procedure .. => .procedure
  | .iterating .. => .iterating
  | .union .. => .union
  | .deleting .. => .deleting
  | .finish => .finish
  | .rawClause .. => .raw

def isOptional : Clause → Bool
  | .matching isOptional .. => isOptional
  | _ => false

/-! ## Changing one slot

A clause without the slot has no result. -/

def changeFilter? (change : Filter → Filter) : Clause → Option Clause
  | .matching isOptional selector first rest filter updates deletion =>
      some (.matching isOptional selector first rest (change filter) updates deletion)
  | .passing distinct projection order filter =>
      some (.passing distinct projection order (change filter))
  | .procedure name arguments yields filter =>
      some (.procedure name arguments yields (change filter))
  | _ => none

def changeUpdates? (change : Updates → Updates) : Clause → Option Clause
  | .matching isOptional selector first rest filter updates deletion =>
      some (.matching isOptional selector first rest filter (change updates) deletion)
  | .creating first rest updates => some (.creating first rest (change updates))
  | .merging path onCreate onMatch updates =>
      some (.merging path onCreate onMatch (change updates))
  | .unwinding list member updates deletion =>
      some (.unwinding list member (change updates) deletion)
  | _ => none

def changeDeletion? (change : Deletion → Deletion) : Clause → Option Clause
  | .matching isOptional selector first rest filter updates deletion =>
      some (.matching isOptional selector first rest filter updates (change deletion))
  | .unwinding list member updates deletion =>
      some (.unwinding list member updates (change deletion))
  | .deleting deletion => some (.deleting (change deletion))
  | _ => none

def changeRowOrder? (change : RowOrder → RowOrder) : Clause → Option Clause
  | .passing distinct projection order filter =>
      some (.passing distinct projection (change order) filter)
  | .returning distinct projection order =>
      some (.returning distinct projection (change order))
  | _ => none

def changeProjection? (change : Projection → Projection) : Clause → Option Clause
  | .passing distinct projection order filter =>
      some (.passing distinct (change projection) order filter)
  | .returning distinct projection order =>
      some (.returning distinct (change projection) order)
  | _ => none

def makeDistinct? : Clause → Option Clause
  | .passing _ projection order filter => some (.passing true projection order filter)
  | .returning _ projection order => some (.returning true projection order)
  | _ => none

def passAll? : Clause → Option Clause
  | .passing distinct projection order filter =>
      some (.passing distinct (Projection.addAll projection) order filter)
  | _ => none

def addPath? (path : Path) : Clause → Option Clause
  | .matching isOptional selector first rest filter updates deletion =>
      some (.matching isOptional selector first (rest ++ .cons path .nil) filter updates
        deletion)
  | .creating first rest updates => some (.creating first (rest ++ .cons path .nil) updates)
  | _ => none

def makeOptional? : Clause → Option Clause
  | .matching _ selector first rest filter updates deletion =>
      some (.matching true selector first rest filter updates deletion)
  | _ => none

def select? (selector : PathSelector) : Clause → Option Clause
  | .matching isOptional _ first rest filter updates deletion =>
      some (.matching isOptional (some selector) first rest filter updates deletion)
  | _ => none

def onCreate? (items : List Assignment) : Clause → Option Clause
  | .merging path onCreate onMatch updates =>
      some (.merging path (onCreate ++ .ofList items) onMatch updates)
  | _ => none

def onMatch? (items : List Assignment) : Clause → Option Clause
  | .merging path onCreate onMatch updates =>
      some (.merging path onCreate (onMatch ++ .ofList items) updates)
  | _ => none

/-- The first import makes a projection without columns. -/
def changeImports? (change : Projection → Projection) : Clause → Option Clause
  | .calling imports body transactions =>
      let earlier := imports.toOption.getD (Projection.ofColumns [])
      some (.calling (.present (change earlier)) body transactions)
  | _ => none

def inTransactions? (rows : Option Expression) : Clause → Option Clause
  | .calling imports body _ => some (.calling imports body (.present (.ofOption rows)))
  | _ => none

def yield? (column : Yield) : Clause → Option Clause
  | .procedure name arguments yields filter =>
      some (.procedure name arguments (yields ++ [column]) filter)
  | _ => none

def addQuery? (query : Chain) : Clause → Option Clause
  | .union all queries => some (.union all (queries ++ .cons query .nil))
  | _ => none

def keepDuplicates? : Clause → Option Clause
  | .union _ queries => some (.union true queries)
  | _ => none

end Clause

/-! ## Steps -/

/-- What can be done to a clause that is already there. -/
inductive ClauseStep where
  | filter (operator : Connective) (predicate : Option Expression)
  | filterProperties (target : Variable) (properties : Entries)
  | set (items : List Assignment)
  | remove (items : List Removal)
  | delete (detach : Bool) (targets : List Expression)
  | orderBy (key : Expression) (direction : SortDirection)
  | skip (rows : Expression)
  | limit (rows : Expression)
  | column (column : Column)
  | allColumns
  | distinct
  | path (path : Path)
  | makeOptional
  | select (selector : PathSelector)
  | onCreate (items : List Assignment)
  | onMatch (items : List Assignment)
  | importColumns (columns : List Column)
  | importAll
  | inTransactions (rows : Option Expression)
  | yield (column : Yield)
  | query (query : Chain)
  | keepDuplicates

namespace Clause

/-- The clause after one step, if its kind allows the step. -/
def step? (clause : Clause) : ClauseStep → Option Clause
  | .filter operator predicate => clause.changeFilter? (·.add operator predicate)
  | .filterProperties target properties =>
      clause.changeFilter? (·.addProperties target properties)
  | .set items => clause.changeUpdates? (·.set items)
  | .remove items => clause.changeUpdates? (·.remove items)
  | .delete detach targets => clause.changeDeletion? (·.add detach targets)
  | .orderBy key direction => clause.changeRowOrder? (·.orderBy key direction)
  | .skip rows => clause.changeRowOrder? (·.skip rows)
  | .limit rows => clause.changeRowOrder? (·.limit rows)
  | .column column => clause.changeProjection? (·.addColumns [column])
  | .allColumns => clause.passAll?
  | .distinct => clause.makeDistinct?
  | .path path => clause.addPath? path
  | .makeOptional => clause.makeOptional?
  | .select selector => clause.select? selector
  | .onCreate items => clause.onCreate? items
  | .onMatch items => clause.onMatch? items
  | .importColumns columns => clause.changeImports? (·.addColumns columns)
  | .importAll => clause.changeImports? (·.addAll)
  | .inTransactions rows => clause.inTransactions? rows
  | .yield column => clause.yield? column
  | .query query => clause.addQuery? query
  | .keepDuplicates => clause.keepDuplicates?

/-- The clause after all steps, one after the other. -/
def steps? (clause : Clause) : List ClauseStep → Option Clause
  | [] => some clause
  | step :: rest => (clause.step? step).bind (·.steps? rest)

end Clause

end Cypher
