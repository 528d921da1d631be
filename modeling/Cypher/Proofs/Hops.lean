import Cypher.Proofs.Slots
import Cypher.Proofs.Turns
import Mathlib.Data.List.Chain

/-! The hops of a pattern. Relationships and nodes are put on a pattern in steps of their own, in
any number and order, and a node ends the hop of the relationship right in front of it. Where one
of the two is not given, the hop has an empty one. -/

namespace Cypher

/-! ## Steps and legs -/

/-- What is put on a pattern in one step. -/
inductive PatternStep where
  | related (relationship : Relationship)
  | reaching (target : Node)

namespace PatternStep

def isRelated : PatternStep → Bool
  | related _ => true
  | reaching _ => false

end PatternStep

/-- A hop as far as it is given. -/
inductive Leg where
  /-- Its end is missing. -/
  | loose (relationship : Relationship)
  | whole (relationship : Relationship) (target : Node)
  /-- Its relationship is missing. -/
  | bare (target : Node)

namespace Leg

/-- The steps that give a leg. -/
def steps : Leg → List PatternStep
  | loose relationship => [.related relationship]
  | whole relationship target => [.related relationship, .reaching target]
  | bare target => [.reaching target]

def hop : Leg → Phrase .hop
  | loose relationship => .hop relationship .absent
  | whole relationship target => .hop relationship (.present target)
  | bare target => .hop (Relationship.ofVariable none) (.present target)

/-- A loose leg right in front of a bare one would be a whole leg instead. -/
def Separate : Leg → Leg → Prop
  | loose _, bare _ => False
  | _, _ => True

def edge : Leg → Layout
  | loose relationship => relationship.layout
  | whole relationship _ => relationship.layout
  | bare _ => "-[]->"

def target : Leg → Layout
  | loose _ => "()"
  | whole _ target => target.layout
  | bare target => target.layout

end Leg

/-- The legs that are given by steps. A relationship takes the node right behind it. -/
def legs : List PatternStep → List Leg
  | [] => []
  | .reaching target :: rest => .bare target :: legs rest
  | .related relationship :: .reaching target :: rest => .whole relationship target :: legs rest
  | .related relationship :: rest => .loose relationship :: legs rest

/-- The number of nodes without a relationship right in front of them. -/
def bareEnds (previous : Option PatternStep) (steps : List PatternStep) : Nat :=
  ((previous :: steps.map some).zip steps).countP fun (before, step) =>
    !step.isRelated && !before.any PatternStep.isRelated

/-- Legs are all of the steps in their order. -/
theorem flatMap_steps_legs (steps : List PatternStep) : (legs steps).flatMap Leg.steps = steps := by
  fun_induction legs steps with
  | case1 => rfl
  | case2 target rest induction => exact congrArg (_ :: ·) induction
  | case3 relationship target rest induction => exact congrArg (_ :: _ :: ·) induction
  | case4 relationship rest apart induction => exact congrArg (_ :: ·) induction

theorem separate_legs (steps : List PatternStep) : (legs steps).IsChain Leg.Separate := by
  fun_induction legs steps with
  | case1 => exact .nil
  | case2 target rest induction => exact induction.cons fun _ _ => trivial
  | case3 relationship target rest induction => exact induction.cons fun _ _ => trivial
  | case4 relationship rest apart induction =>
      refine induction.cons fun next first => ?_
      cases next with
      | loose other => trivial
      | whole other target => trivial
      | bare target =>
          rcases List.head?_eq_some_iff.mp first with ⟨others, equal⟩
          have given := flatMap_steps_legs rest
          rw [equal, List.flatMap_cons] at given
          exact (apart target _ given.symm).elim

/-- Separate legs are read back from their steps. -/
theorem legs_flatMap_steps {found : List Leg} (separate : found.IsChain Leg.Separate) :
    legs (found.flatMap Leg.steps) = found := by
  induction found with
  | nil => rfl
  | cons leg rest induction =>
      have others := induction separate.tail
      cases leg with
      | whole relationship target => exact congrArg (_ :: ·) others
      | bare target => exact congrArg (_ :: ·) others
      | loose relationship =>
          cases rest with
          | nil => rfl
          | cons next more =>
              cases next with
              | loose other => exact congrArg (_ :: ·) others
              | whole other target => exact congrArg (_ :: ·) others
              | bare target => exact (List.isChain_cons_cons.mp separate).1.elim

namespace Pattern

def take (pattern : Pattern) : PatternStep → Pattern
  | .related relationship => pattern.related relationship
  | .reaching target => pattern.reaching target

/-- The pattern after all steps, one after the other. -/
def takeAll (pattern : Pattern) (steps : List PatternStep) : Pattern :=
  steps.foldl take pattern

theorem takeAll_cons (pattern : Pattern) (step : PatternStep) (rest : List PatternStep) :
    pattern.takeAll (step :: rest) = (pattern.take step).takeAll rest := rfl

/-! ## One more step -/

theorem reach_cons_cons (target : Node) (head next : Phrase .hop) (rest : List (Phrase .hop)) :
    reach target (head :: next :: rest) = head :: reach target (next :: rest) := by
  cases head with
  | hop relationship last => cases last <;> rfl

theorem reach_concat (target : Node) (front : List (Phrase .hop)) (last : Phrase .hop) :
    reach target (front ++ [last]) = front ++ reach target [last] :=
  changed_last (reach_cons_cons target) front last

/-- No end is missing at the last hop, so another node is the end of a new hop. -/
def Ended (hops : List (Phrase .hop)) : Prop :=
  ∀ target, reach target hops = hops ++ [(Leg.bare target).hop]

theorem ended_concat (front : List (Phrase .hop)) (relationship : Relationship) (last : Node) :
    Ended (front ++ [.hop relationship (.present last)]) := by
  intro target
  rw [reach_concat, List.append_assoc]
  rfl

variable (start : Node) (front : List (Phrase .hop))

theorem take_related (relationship : Relationship) :
    take (.pattern start (.ofList front)) (.related relationship) =
      .pattern start (.ofList (front ++ [(Leg.loose relationship).hop])) := by
  rw [take, related, Phrase.ofList_concat]
  rfl

theorem take_reaching (target : Node) :
    take (.pattern start (.ofList front)) (.reaching target) =
      .pattern start (.ofList (reach target front)) := by
  rw [take, reaching, Phrase.toList_ofList]

/-- The legs of the steps stand behind earlier hops. If a node comes first, no end may be missing
in front of it. -/
theorem takeAll_ofList (steps : List PatternStep)
    (ready : ∀ target rest, steps = .reaching target :: rest → Ended front) :
    takeAll (.pattern start (.ofList front)) steps =
      .pattern start (.ofList (front ++ (legs steps).map Leg.hop)) := by
  fun_induction legs steps generalizing front with
  | case1 => rw [List.map_nil, List.append_nil, takeAll, List.foldl_nil]
  | case2 target rest induction =>
      have ended : Ended (front ++ [(Leg.bare target).hop]) := ended_concat front _ target
      rw [takeAll_cons, take_reaching, ready target rest rfl target,
        induction _ fun _ _ _ => ended, List.map_cons, List.append_assoc, List.singleton_append]
  | case3 relationship target rest induction =>
      have whole : reach target (front ++ [(Leg.loose relationship).hop]) =
          front ++ [(Leg.whole relationship target).hop] := reach_concat target front _
      have ended : Ended (front ++ [(Leg.whole relationship target).hop]) :=
        ended_concat front relationship target
      rw [takeAll_cons, takeAll_cons, take_related, take_reaching, whole,
        induction _ fun _ _ _ => ended, List.map_cons, List.append_assoc, List.singleton_append]
  -- The end of this leg is missing, but what comes next is not a node.
  | case4 relationship rest apart induction =>
      have noNode : ∀ target others, rest = .reaching target :: others →
          Ended (front ++ [(Leg.loose relationship).hop]) :=
        fun target others first => (apart target others first).elim
      rw [takeAll_cons, take_related, induction _ noNode, List.map_cons, List.append_assoc,
        List.singleton_append]

theorem takeAll_ofNode (steps : List PatternStep) :
    (ofNode start).takeAll steps = .pattern start (.ofList ((legs steps).map Leg.hop)) :=
  takeAll_ofList start [] steps fun _ _ _ _ => rfl

end Pattern

/-! ## The number of hops -/

section Count

variable (previous : Option PatternStep) (relationship : Relationship) (target : Node)
  (rest : List PatternStep)

theorem bareEnds_related : bareEnds previous (.related relationship :: rest) =
    bareEnds (some (.related relationship)) rest :=
  List.countP_cons_of_neg Bool.false_ne_true

theorem bareEnds_whole : bareEnds previous (.related relationship :: .reaching target :: rest) =
    bareEnds (some (.reaching target)) rest :=
  (bareEnds_related previous relationship _).trans (List.countP_cons_of_neg Bool.false_ne_true)

theorem bareEnds_bare {previous : Option PatternStep}
    (unrelated : previous.any PatternStep.isRelated = false) :
    bareEnds previous (.reaching target :: rest) = bareEnds (some (.reaching target)) rest + 1 :=
  List.countP_cons_of_pos (congrArg Bool.not unrelated)

end Count

/-- There is a leg for every relationship, and one for every node that is the end of none. -/
theorem length_legs (steps : List PatternStep) : ∀ previous,
    (∀ target rest, steps = .reaching target :: rest →
      previous.any PatternStep.isRelated = false) →
    (legs steps).length = steps.countP PatternStep.isRelated + bareEnds previous steps := by
  fun_induction legs steps with
  | case1 => exact fun _ _ => rfl
  | case2 target rest induction =>
      intro previous ready
      have others := induction (some (.reaching target)) fun _ _ _ => rfl
      have unrelated := ready target rest rfl
      rw [List.length_cons, others, bareEnds_bare target rest unrelated,
        List.countP_cons_of_neg Bool.false_ne_true, Nat.add_assoc]
  | case3 relationship target rest induction =>
      intro previous ready
      have others := induction (some (.reaching target)) fun _ _ _ => rfl
      rw [List.length_cons, others, bareEnds_whole, List.countP_cons_of_pos rfl,
        List.countP_cons_of_neg Bool.false_ne_true, Nat.add_right_comm]
  | case4 relationship rest apart induction =>
      intro previous ready
      have others := induction (some (.related relationship))
        fun target more first => (apart target more first).elim
      rw [List.length_cons, others, bareEnds_related, List.countP_cons_of_pos rfl,
        Nat.add_right_comm]

/-! ## The text of a pattern -/

namespace Layout

theorem render_joined_empty (layouts : List Layout) :
    (joined "" layouts).render = String.join <$> layouts.mapM render := by
  have joining : "".intercalate = String.join := by
    funext texts
    induction texts with
    | nil => rfl
    | cons head tail induction =>
        cases tail with
        | nil => simp
        | cons next rest =>
            rw [String.intercalate_cons_cons, induction, @String.join_cons head,
              String.append_empty]
  rw [render_joined, joining]

theorem join_mapM_cons (head : Layout) (tail : List Layout) :
    String.join <$> (head :: tail).mapM render = do
      let first ← head.render
      let rest ← String.join <$> tail.mapM render
      return first ++ rest := by
  simp

end Layout

theorem Leg.render_hop (leg : Leg) :
    leg.hop.layout.render = (leg.edge ++ leg.target).render := by
  cases leg <;> rfl

/-- The text of hops is that of their relationships and nodes in turn. -/
theorem Leg.join_hops (all : List Leg) :
    String.join <$> (all.map fun leg => leg.hop.layout).mapM Layout.render =
      String.join <$> (all.flatMap fun leg => [leg.edge, leg.target]).mapM Layout.render := by
  induction all with
  | nil => rfl
  | cons leg rest induction =>
      rw [List.map_cons, List.flatMap_cons, List.cons_append, List.cons_append, List.nil_append,
        Layout.join_mapM_cons, Layout.join_mapM_cons, Layout.join_mapM_cons, induction,
        leg.render_hop, Layout.render_append]
      simp [String.append_assoc]

/-- The hops of a pattern are the legs that its steps give. They are the only separate legs that
hold everything that was given, once and in its order: a node ends the hop of the relationship
right in front of it, or otherwise one of its own. In the text, relationships and nodes take
turns behind the first node. -/
theorem Pattern.hops_as_given (start : Node) (steps : List PatternStep) :
    (ofNode start).takeAll steps = .pattern start (.ofList ((legs steps).map Leg.hop)) ∧
    (∀ found, legs steps = found ↔
      found.flatMap Leg.steps = steps ∧ found.IsChain Leg.Separate) ∧
    ((ofNode start).takeAll steps).size =
      steps.countP PatternStep.isRelated + bareEnds none steps ∧
    ((ofNode start).takeAll steps).layout.render = String.join <$>
      (start.layout :: (legs steps).flatMap fun leg => [leg.edge, leg.target]).mapM
        Layout.render := by
  have whole := takeAll_ofNode start steps
  refine ⟨whole, fun found => ⟨?_, ?_⟩, ?_, ?_⟩
  · rintro rfl
    exact ⟨flatMap_steps_legs steps, separate_legs steps⟩
  · rintro ⟨rfl, separate⟩
    exact legs_flatMap_steps separate
  · rw [whole, size, hops, Phrase.toList_ofList, List.length_map]
    exact length_legs steps none fun _ _ _ => rfl
  · have layout : ((ofNode start).takeAll steps).layout =
        start.layout ++ Layout.joined "" ((legs steps).map fun leg => leg.hop.layout) := by
      have hopLayouts := Phrase.layout_ofList ((legs steps).map Leg.hop)
      rw [List.map_map] at hopLayouts
      rw [whole]
      exact congrArg (fun layouts => start.layout ++ Layout.joined "" layouts) hopLayouts
    rw [layout, Layout.render_append, Layout.render_joined_empty, Leg.join_hops,
      Layout.join_mapM_cons]

/-- The first relationship has no end, and the last node has no relationship. -/
example :
    let acting := (Relationship.ofVariable none).withTypes ["ACTED_IN"]
    let directing := (Relationship.ofVariable none).withTypes ["DIRECTED"]
    let movie := (Node.ofVariable none).withLabels ["Movie"]
    let steps := [.related acting, .related directing, .reaching movie, .reaching movie]
    ((Pattern.ofNode (Node.ofVariable none)).takeAll steps).layout.result (.empty {}) =
      .ok "()-[:ACTED_IN]->()-[:DIRECTED]->(:Movie)-[]->(:Movie)" := by
  decide

end Cypher
