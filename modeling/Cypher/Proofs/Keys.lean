import Cypher.Expression
import Cypher.Proofs.Backing
import Cypher.Proofs.Grammar
import Cypher.Proofs.Identification
import Cypher.Proofs.Turns
import Mathlib.Data.Finset.Card

/-! Maps that are put together one entry at a time. A key stands where it was inserted first and
has the value that was inserted last. Rendering meets the last values in the order of the first
insertions, and what was replaced is never met. -/

namespace Cypher

/-! ## The last values of keys -/

theorem eraseDups_concat (keys : List String) (key : String) :
    (keys ++ [key]).eraseDups =
      if key ∈ keys then keys.eraseDups else keys.eraseDups ++ [key] := by
  rw [List.eraseDups_append]
  split
  · next known => simp [List.removeAll, known]
  · next unknown => simp [List.removeAll, unknown, List.eraseDups_cons]

namespace Fields

theorem last?_concat (pairs : List (String × α)) (key : String) (value : α) (other : String) :
    last? (pairs ++ [(key, value)]) other =
      if other = key then some value else last? pairs other := by
  rw [last?, List.reverse_append]
  rfl

/-- Entries of different keys are those that are found under their keys. -/
theorem filterMap_find? {fields : Fields α} (nodup : (fields.map (·.1)).Nodup) :
    (fields.map (·.1)).filterMap (fun key => (fields.find? key).map (key, ·)) = fields := by
  induction fields with
  | nil => rfl
  | cons entry rest induction =>
      rcases entry with ⟨head, value⟩
      rw [List.map_cons, List.nodup_cons] at nodup
      have others : ∀ key ∈ rest.map (·.1),
          (find? ((head, value) :: rest) key).map (key, ·) = (find? rest key).map (key, ·) := by
        intro key member
        have different : key ≠ head := fun same => nodup.1 (same ▸ member)
        rw [find?, if_neg different]
      rw [List.map_cons, List.filterMap_cons, List.filterMap_congr others, induction nodup.2]
      simp [find?]

/-- Each key where it is first, with the value that it has last. -/
def lastValues (pairs : List (String × α)) : Fields α :=
  (pairs.map (·.1)).eraseDups.filterMap fun key => (last? pairs key).map (key, ·)

example : lastValues [("b", 1), ("a", 2), ("b", 3)] = [("b", 3), ("a", 2)] := by decide

end Fields

namespace Entries

/-! ## Inserting -/

def pairOf : Phrase .entry → String × Expression
  | .entry key value => (key, value)

theorem toPairs_eq (entries : Entries) : entries.toPairs = entries.toList.map pairOf := by
  apply List.map_congr_left
  intro entry _
  cases entry
  rfl

theorem keys_eq (entries : Entries) : entries.keys = entries.toPairs.map (·.1) := rfl

theorem toPairs_insert (key : String) (value : Expression) (entries : Entries) :
    (entries.insert key value).toPairs = (insertInto key value entries.toList).map pairOf := by
  rw [toPairs_eq, insert, Phrase.toList_ofList]

theorem keys_insert (key : String) (value : Expression) (entries : Entries) :
    (entries.insert key value).keys =
      if key ∈ entries.keys then entries.keys else entries.keys ++ [key] := by
  rw [keys_eq, keys_eq, toPairs_insert, toPairs_eq]
  induction entries.toList with
  | nil => rfl
  | cons head rest induction =>
      cases head with
      | entry other old =>
          rw [List.map_cons, List.map_cons, pairOf, insertInto]
          split
          · next same => simp [same, pairOf]
          · next different =>
              rw [List.map_cons, List.map_cons, pairOf, induction]
              simp only [List.mem_cons, Ne.symm different, false_or]
              split <;> rfl

theorem find?_insert (key : String) (value : Expression) (entries : Entries) (other : String) :
    Fields.find? (entries.insert key value).toPairs other =
      if other = key then some value else Fields.find? entries.toPairs other := by
  rw [toPairs_insert, toPairs_eq]
  induction entries.toList with
  | nil => rfl
  | cons head rest induction =>
      cases head with
      | entry head old =>
          rw [List.map_cons, pairOf, insertInto]
          split
          · next same =>
              subst same
              rw [List.map_cons, pairOf, Fields.find?, Fields.find?]
              split <;> rfl
          · next different =>
              rw [List.map_cons, pairOf, Fields.find?, induction, Fields.find?]
              split
              · next first => rw [if_neg (first ▸ different)]
              · rfl

/-! ## Inserting one after the other -/

theorem ofPairs_concat (pairs : List (String × Expression)) (key : String)
    (value : Expression) : ofPairs (pairs ++ [(key, value)]) = (ofPairs pairs).insert key value :=
  List.foldl_append

theorem nodup_keys (pairs : List (String × Expression)) : (ofPairs pairs).keys.Nodup := by
  induction pairs using List.reverseRecOn with
  | nil => exact List.nodup_nil
  | append_singleton earlier pair induction =>
      rcases pair with ⟨key, value⟩
      rw [ofPairs_concat, keys_insert]
      split
      · exact induction
      · next unknown =>
          rw [← List.concat_eq_append]
          exact induction.concat unknown

theorem keys_ofPairs (pairs : List (String × Expression)) :
    (ofPairs pairs).keys = (pairs.map (·.1)).eraseDups := by
  induction pairs using List.reverseRecOn with
  | nil => rfl
  | append_singleton earlier pair induction =>
      rcases pair with ⟨key, value⟩
      rw [ofPairs_concat, keys_insert, induction, List.map_append, List.map_singleton,
        eraseDups_concat]
      simp only [List.mem_eraseDups]

theorem find?_ofPairs (pairs : List (String × Expression)) (key : String) :
    Fields.find? (ofPairs pairs).toPairs key = Fields.last? pairs key := by
  induction pairs using List.reverseRecOn with
  | nil => rfl
  | append_singleton earlier pair induction =>
      rcases pair with ⟨last, value⟩
      rw [ofPairs_concat, find?_insert, induction, Fields.last?_concat]

theorem toPairs_ofPairs (pairs : List (String × Expression)) :
    (ofPairs pairs).toPairs = Fields.lastValues pairs := by
  have found := Fields.filterMap_find? (nodup_keys pairs)
  rw [← keys_eq, keys_ofPairs] at found
  rw [← found, Fields.lastValues]
  congr
  funext key
  rw [find?_ofPairs]

theorem size_eq (entries : Entries) : entries.size = entries.keys.length := by
  rw [size, keys, toPairs, List.length_map, List.length_map]

theorem size_ofPairs (pairs : List (String × Expression)) :
    (ofPairs pairs).size = (pairs.map (·.1)).toFinset.card := by
  have same : (pairs.map (·.1)).toFinset = (ofPairs pairs).keys.toFinset := by
    ext key
    rw [List.mem_toFinset, List.mem_toFinset, keys_ofPairs, List.mem_eraseDups]
  rw [same, List.toFinset_card_of_nodup (nodup_keys pairs), size_eq]

end Entries

/-! ## The text of a map -/

namespace Layout

theorem render_map (entries : List Layout) :
    (map entries).render = Value.mapText <$> entries.mapM render := by
  cases entries with
  | nil => rfl
  | cons head tail =>
      have filled : map (head :: tail) =
          "\x7b " ++ joined ", " (head :: tail) ++ " \x7d" := rfl
      rw [filled, render_append, render_append, render_joined, render_text, render_text]
      simp [Value.mapText]

end Layout

namespace Entries

/-- The key and the value behind it. -/
def renderPair (pair : String × Expression) : Layout.Rendering String := do
  let environment ← get
  let text ← pair.2.layout.render
  return environment.config.identifier pair.1 ++ ": " ++ text

theorem render_entry (entry : Phrase .entry) : entry.layout.render = renderPair (pairOf entry) := by
  cases entry with
  | entry key value =>
      have layout : (Phrase.entry key value).layout =
          .leaf (.identifier key) ++ ": " ++ value.layout := rfl
      rw [layout, Layout.render_append, Layout.render_append, Layout.render_text]
      simp [Layout.render, renderPair, pairOf, Leaf.render]

theorem render_eq (entries : Entries) :
    (Phrase.map entries).layout.render = Value.mapText <$> entries.toPairs.mapM renderPair := by
  have layout : (Phrase.map entries).layout = .map entries.layout := rfl
  have each : Layout.render ∘ Phrase.layout = renderPair ∘ pairOf := funext render_entry
  rw [layout, Layout.render_map, Phrase.layout_eq_map, List.mapM_map, toPairs_eq, List.mapM_map,
    each]

end Entries

/-! ## What is left in the environment -/

namespace Environment

variable {environment : Environment}

theorem isRegistered_resolveParameter {parameter : Parameter} {identity : Identity}
    (registered : (environment.resolveParameter parameter).2.isRegistered identity) :
    environment.isRegistered identity ∨ identity = parameter.identity := by
  rcases environment.registers_serve (.placeholder parameter) with
    ⟨same, -⟩ | ⟨other, isAbout, -, added⟩
  · rw [serve] at same
    rw [isRegistered, same] at registered
    exact .inl registered
  · cases isAbout
    rw [serve] at added
    rw [isRegistered, added, List.any_append, Bool.or_eq_true] at registered
    refine registered.imp_right fun now => ?_
    simpa [eq_comm] using now

/-- In `later`, nothing is registered but what `environment` knew and the parameters. -/
def RegistersOnly (environment : Environment) (parameters : List Parameter)
    (later : Environment) : Prop :=
  ∀ identity, later.isRegistered identity →
    environment.isRegistered identity ∨ identity ∈ parameters.map (·.identity)

theorem registersOnly_meetAll (environment : Environment) (reading : Reading) :
    environment.RegistersOnly reading.parameters (environment.meetAll reading) := by
  refine @meetAll_induction (fun later _ parameters => environment.RegistersOnly parameters later)
    ?_ ?_ environment [] [] (fun _ => .inl) reading
  · intro later binders parameters known binder identity registered
    rw [isRegistered, registrations_resolveVariable] at registered
    exact known identity registered
  · intro later binders parameters known parameter identity registered
    rw [List.map_append, List.mem_append, List.map_singleton, List.mem_singleton, ← or_assoc]
    exact (isRegistered_resolveParameter registered).imp_left (known identity)

/-- The parameters without a name that are not named yet, in the order of their first
mentions. -/
def newParameters (environment : Environment) (parameters : List Parameter) : List Parameter :=
  (anonymousParameters parameters).filter fun parameter =>
    environment.names.lookup (.ofParameter parameter.identity) = none

theorem Numbered.anonymousParameters_append {config : Config} {binders : List Variable}
    {parameters : List Parameter} (numbered : environment.Numbered config binders parameters)
    (more : List Parameter) :
    anonymousParameters (parameters ++ more) =
      anonymousParameters parameters ++ environment.newParameters more := by
  rw [newParameters, anonymousParameters, List.filter_append, distinctBy_append]
  congr
  funext parameter
  rw [decide_eq_decide, numbered.lookup_parameter_eq_none, anonymousParameters,
    mem_map_distinctBy]

/-- New parameters are numbered behind the others. -/
theorem Reachable.parameterText_meetAll (reachable : environment.Reachable) {reading : Reading}
    {number : Nat} {first parameter : Parameter}
    (listed : (environment.newParameters reading.parameters)[number]? = some first)
    (anonymous : parameter.name = none) (same : parameter.identity = first.identity) :
    ((environment.meetAll reading).resolveParameter parameter).1 =
      generatedParameterName environment.config (environment.parameterNames + number) := by
  rcases reachable.numbered with ⟨config, binders, parameters, numbered⟩
  have place : (anonymousParameters (parameters ++ reading.parameters))[
      environment.parameterNames + number]? = some first := by
    rw [numbered.anonymousParameters_append, numbered.parameterNames,
      List.getElem?_append_right (Nat.le_add_right _ _), Nat.add_sub_cancel_left, listed]
  rw [(numbered.meetAll reading).parameterText place anonymous same, numbered.sameConfig]

end Environment

namespace Entries

theorem parameters_reading (entries : Entries) :
    Reading.parameters ((Phrase.map entries).layout.reading 0) =
      entries.toPairs.flatMap fun pair => (pair.2.reading 0).parameters := by
  have reading : Layout.reading 0 (Phrase.map entries).layout = Phrase.reading 0 entries :=
    Phrase.reading_whole (.map entries) 0
  rw [reading, Phrase.reading_eq_flatMap, Reading.parameters, List.filterMap_flatMap, toPairs_eq,
    List.flatMap_map]
  congr
  funext entry
  cases entry
  rfl

/-- A map that is put together from pairs has each key once, where it was inserted first, with
the value that was inserted last. The keys and values are rendered in this order. What was
replaced is not registered, and new parameters of the values are numbered in the order of the
first insertions of their keys. -/
theorem inserted_in_order (pairs : List (String × Expression)) :
    let entries := ofPairs pairs
    let rendered := (Phrase.map entries).layout
    let parameters := (Fields.lastValues pairs).flatMap fun pair => (pair.2.reading 0).parameters
    (entries.keys.Nodup ∧ entries.keys = (pairs.map (·.1)).eraseDups ∧
      (∀ key, Fields.find? entries.toPairs key = Fields.last? pairs key) ∧
      entries.size = (pairs.map (·.1)).toFinset.card) ∧
    (entries.toPairs = Fields.lastValues pairs ∧
      rendered.render = Value.mapText <$> (Fields.lastValues pairs).mapM renderPair) ∧
    ∀ environment : Environment,
      environment.RegistersOnly parameters (rendered.environmentAfter environment) ∧
      (environment.Reachable → ∀ text after, rendered.render environment = .ok text after →
        ∀ number first, (environment.newParameters parameters)[number]? = some first →
        ∀ parameter : Parameter, parameter.name = none → parameter.identity = first.identity →
          (after.resolveParameter parameter).1 = Environment.generatedParameterName
            environment.config (environment.parameterNames + number)) := by
  intro entries rendered parameters
  have met : Reading.parameters (rendered.reading 0) = parameters := by
    rw [parameters_reading, toPairs_ofPairs]
  have inTurn := render_eq entries
  rw [toPairs_ofPairs] at inTurn
  refine ⟨⟨nodup_keys pairs, keys_ofPairs pairs, find?_ofPairs pairs, size_ofPairs pairs⟩,
    ⟨toPairs_ofPairs pairs, inTurn⟩, fun environment => ⟨?_, ?_⟩⟩
  · intro identity registered
    have front : (rendered.reading 0).sound <+: rendered.reading 0 := List.takeWhile_prefix _
    rw [Layout.environmentAfter_eq_meetAll] at registered
    rw [← met]
    refine (environment.registersOnly_meetAll _ identity registered).imp_right fun now => ?_
    exact List.map_subset _ (front.filterMap _).subset now
  · intro reachable text after written number first listed parameter anonymous same
    rw [← met] at listed
    rw [(Layout.of_render_ok written 0).2.1]
    exact reachable.parameterText_meetAll listed anonymous same

/-- The first of two years is replaced. It is not registered, and the second year has the number
behind the one that was given before. -/
theorem inserted_in_order_replaced :
    let title : Parameter := { identity := ⟨0⟩, value := some (.string "A") }
    let replaced : Parameter := { identity := ⟨1⟩, value := some (.integer 1998) }
    let year : Parameter := { identity := ⟨2⟩, value := some (.integer 1999) }
    let pairs : List (String × Expression) := [("released year", .placeholder replaced),
      ("title", .placeholder title), ("released year", .placeholder year)]
    let rendered := (Phrase.map (ofPairs pairs)).layout
    let environment := ((Environment.empty {}).resolveParameter title).2
    let after := rendered.environmentAfter environment
    (environment.Reachable ∧ rendered.render environment =
      .ok "\x7b \x60released year\x60: $param1, title: $param0 \x7d" after) ∧
    (ofPairs pairs).keys = ["released year", "title"] ∧ (ofPairs pairs).size = 2 ∧
    ¬ after.isRegistered replaced.identity ∧ (after.resolveParameter year).1 = "param1" := by
  intro title replaced year pairs rendered environment after
  have reachable : environment.Reachable := (Environment.Reachable.empty {}).resolveParameter title
  have written : rendered.render environment =
      .ok "\x7b \x60released year\x60: $param1, title: $param0 \x7d" after := by
    simp only [after, rendered, environment, pairs, title, replaced, year]
    rfl
  rcases inserted_in_order pairs with ⟨⟨-, keys, -, size⟩, -, left⟩
  rcases left environment with ⟨only, numbers⟩
  have place : (environment.newParameters ((Fields.lastValues pairs).flatMap fun pair =>
      (pair.2.reading 0).parameters))[0]? = some year := by
    simp only [environment, pairs, title, replaced, year]
    rfl
  have numbered := numbers reachable _ after written 0 year place year rfl rfl
  refine ⟨⟨reachable, written⟩, keys.trans (by decide), size.trans (by decide), ?_,
    numbered.trans (by decide)⟩
  intro registered
  rcases only _ registered with before | now
  · cases before
  · revert now
    decide

end Entries

end Cypher
