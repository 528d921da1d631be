import Cypher.Expression

/-! Putting patterns together: nodes, relationships, the hops of a pattern, and
the segments of a path. -/

namespace Cypher

namespace Node

def ofVariable (binder : Option Variable) : Node :=
  .node binder [] .absent .absent

def withLabels (labels : List String) : Node → Node
  | .node binder earlier properties predicate =>
      .node binder (earlier ++ labels) properties predicate

/-- They replace earlier properties. -/
def withProperties (properties : Entries) : Node → Node
  | .node binder labels _ predicate => .node binder labels (.present properties) predicate

/-- It replaces an earlier predicate. -/
def withPredicate (predicate : Expression) : Node → Node
  | .node binder labels properties _ => .node binder labels properties (.present predicate)

def binder : Node → Option Variable
  | .node binder _ _ _ => binder

end Node

namespace Relationship

def ofVariable (binder : Option Variable) : Relationship :=
  .relationship binder [] .right none .absent .absent

def withTypes (types : List String) : Relationship → Relationship
  | .relationship binder earlier direction length properties predicate =>
      .relationship binder (earlier ++ types) direction length properties predicate

def withDirection (direction : Direction) : Relationship → Relationship
  | .relationship binder types _ length properties predicate =>
      .relationship binder types direction length properties predicate

def withLength (length : PathLength) : Relationship → Relationship
  | .relationship binder types direction _ properties predicate =>
      .relationship binder types direction (some length) properties predicate

/-- They replace earlier properties. -/
def withProperties (properties : Entries) : Relationship → Relationship
  | .relationship binder types direction length _ predicate =>
      .relationship binder types direction length (.present properties) predicate

/-- It replaces an earlier predicate. -/
def withPredicate (predicate : Expression) : Relationship → Relationship
  | .relationship binder types direction length properties _ =>
      .relationship binder types direction length properties (.present predicate)

end Relationship

namespace Pattern

def ofNode (start : Node) : Pattern :=
  .pattern start .nil

/-- A hop whose far end is still open. -/
def related (relationship : Relationship) : Pattern → Pattern
  | .pattern start hops => .pattern start (hops ++ .cons (.hop relationship .absent) .nil)

/-- End the last hop at `target`, or add a hop without a description if no end
is open. -/
def reach (target : Node) : List (Phrase .hop) → List (Phrase .hop)
  | [] => [.hop (Relationship.ofVariable none) (.present target)]
  | [.hop relationship .absent] => [.hop relationship (.present target)]
  | head :: tail => head :: reach target tail

def reaching (target : Node) : Pattern → Pattern
  | .pattern start hops => .pattern start (.ofList (reach target hops.toList))

def hops : Pattern → List (Phrase .hop)
  | .pattern _ hops => hops.toList

/-- The number of relationships. -/
def size (pattern : Pattern) : Nat :=
  pattern.hops.length

end Pattern

namespace Path

def ofSegment (segment : Segment) : Path :=
  .path none segment .nil

def ofPattern (pattern : Pattern) : Path :=
  ofSegment (.once pattern)

def ofNode (node : Node) : Path :=
  ofPattern (Pattern.ofNode node)

def followedBy (segment : Segment) : Path → Path
  | .path binder first rest => .path binder first (rest ++ .cons segment .nil)

/-- It replaces an earlier variable. -/
def assignedTo (binder : Variable) : Path → Path
  | .path _ first rest => .path (some binder) first rest

def binder : Path → Option Variable
  | .path binder _ _ => binder

end Path

end Cypher
