import Cypher.Proofs.Delimiters
import Cypher.Proofs.Parts
import Cypher.Proofs.Reachability

/-! Where the text of an expression begins and ends. A tame expression that is more
than a variable is never spelled like a quoted name: its text goes on behind the quoted
name it may begin with, and in front of the quoted name it may end with. -/

namespace Cypher

/-! ## Texts of composed layouts -/

namespace Layout

variable (names : Dictionary)

@[simp] theorem written_text (content : String) : (text content).written names = content := rfl

@[simp] theorem written_append (first second : Layout) :
    (first ++ second).written names = first.written names ++ second.written names := rfl

@[simp] theorem written_joined (separator : String) (layouts : List Layout) :
    (joined separator layouts).written names =
      separator.intercalate (layouts.map (written names)) := by
  induction layouts with
  | nil => rfl
  | cons head tail induction =>
      cases tail with
      | nil => simp [joined]
      | cons next rest => simp [joined, induction]

end Layout

/-! ## Edges of lists -/

theorem startsPlain_intercalate (separator : String) {head : String}
    (plain : startsPlain head) (tail : List String) :
    startsPlain (separator.intercalate (head :: tail)) := by
  cases tail with
  | nil => rwa [String.intercalate_singleton]
  | cons next rest =>
      rw [String.intercalate_cons_cons, String.append_assoc]
      exact startsPlain_append plain _

theorem endsPlain_intercalate (separator : String) (front : List String) {last : String}
    (plain : endsPlain last) : endsPlain (separator.intercalate (front ++ [last])) := by
  induction front with
  | nil => rwa [List.nil_append, String.intercalate_singleton]
  | cons head tail induction =>
      cases tail with
      | nil =>
          rw [List.cons_append, List.nil_append, String.intercalate_cons_cons]
          exact endsPlain_append induction _
      | cons next rest =>
          rw [List.cons_append, List.cons_append, String.intercalate_cons_cons]
          exact endsPlain_append induction _

theorem closes_intercalate {separator : String} (plain : endsPlain separator)
    {texts : List String} (closes : ∀ text ∈ texts, Closes text) :
    Closes (separator.intercalate texts) := by
  induction texts with
  | nil => exact .inr (.inr rfl)
  | cons head tail induction =>
      rw [List.forall_mem_cons] at closes
      cases tail with
      | nil =>
          rw [String.intercalate_singleton]
          exact closes.1
      | cons next rest =>
          rw [String.intercalate_cons_cons]
          exact .inl (Closes.append (induction closes.2) (endsPlain_append plain _))

namespace Expression

variable {names : Dictionary}

/-! ## The beginning -/

/-- The expression is a variable, or its text goes on behind any quoted name. -/
def MentionOrOpens (names : Dictionary) (expression : Expression) : Prop :=
  (∃ binder, expression = .mention binder) ∨ OpensInside (expression.layout.written names)

theorem MentionOrOpens.opens (openNames : ∀ binder, Opens (names.variableText binder))
    {expression : Expression} (either : MentionOrOpens names expression) :
    Opens (expression.layout.written names) := by
  rcases either with ⟨binder, rfl⟩ | opens
  · rw [Phrase.layout]
    exact openNames binder
  · exact .inl opens

/-- A name without a backtick begins plainly or has no characters. -/
theorem opens_of_isUnmarked {name : String} (unmarked : isUnmarked name) : Opens name := by
  by_cases characters : name.toList = []
  · exact .inr (.inr (String.toList_eq_nil_iff.mp characters))
  · refine .inl (.inl (plain_of_forall characters fun character member => ?_).1)
    rintro rfl
    simp [isUnmarked, member] at unmarked

theorem opens_callee {callee : FunctionCall} (tame : callee.Tame) :
    OpensInside (callee.layout.written names) := by
  have unmarked := tame _ callee.of_mem_parts
  cases callee with
  | function name distinct arguments =>
      simp only [Phrase.layout, Layout.written_append, Layout.written_text,
        String.append_assoc]
      exact (opens_of_isUnmarked unmarked).append (startsPlain_append rfl _)
  | starFunction name =>
      simp only [Phrase.layout, Layout.written_text]
      exact (opens_of_isUnmarked unmarked).append rfl

theorem startsPlain_choice (choice : Choice) : startsPlain (choice.layout.written names) := by
  cases choice with
  | choice subject branches default =>
      simp only [Phrase.layout, Layout.choice, Layout.lines, Layout.written_joined,
        List.cons_append, List.map_cons, Layout.after, Layout.written_append,
        Layout.written_text]
      exact startsPlain_intercalate _ (startsPlain_append rfl _) _

theorem startsPlain_comprehension (comprehension : Comprehension) :
    startsPlain (comprehension.layout.written names) := by
  cases comprehension with
  | comprehension member source filter result =>
      simp only [Phrase.layout, Layout.written_append, Layout.written_text,
        String.append_assoc]
      exact startsPlain_append rfl _

theorem startsPlain_operation (operator : String) (operands : List Layout) :
    startsPlain ((Layout.operation operator operands).written names) := by
  simp only [Layout.operation, Layout.written_append, Layout.written_text,
    String.append_assoc]
  exact startsPlain_append rfl _

theorem startsPlain_names (test : NameTest) (first : String) (rest : List String) :
    startsPlain ((Layout.names test (first :: rest)).written names) := by
  cases test <;> exact startsPlain_append rfl _

theorem startsPlain_map (entries : List Layout) :
    startsPlain ((Layout.map entries).written names) := by
  unfold Layout.map
  split
  · rw [Layout.written_text]
    decide
  · simp only [Layout.written_append, Layout.written_text, String.append_assoc]
    exact startsPlain_append rfl _

theorem startsPlain_keyword (kind : SubqueryKind) : startsPlain kind.keyword := by
  cases kind <;> decide

/-- Only variables, and what begins with a variable, begin with a quoted name. -/
theorem mentionOrOpens (openNames : ∀ binder, Opens (names.variableText binder)) :
    ∀ expression : Expression, expression.Tame → MentionOrOpens names expression
  | .mention binder, _ => .inl ⟨binder, rfl⟩
  | .placeholder parameter, _ => by
      apply Or.inr
      apply Or.inl
      rw [Phrase.layout, Layout.written]
      split
      · decide
      · exact startsPlain_append rfl _
  | .literal value, _ => by
      apply Or.inr
      apply Or.inl
      rw [Phrase.layout, Layout.written]
      exact (plain_literal _ value).1
  | .property base key, tame => by
      have baseTame : base.Tame := fun part inside => tame part (by simp [Phrase.parts, inside])
      have opens := (mentionOrOpens openNames base baseTame).opens openNames
      apply Or.inr
      simp only [Phrase.layout, Layout.written_append, Layout.written_text]
      exact (opens.append rfl).appendRight _
  | .subscript base index, tame => by
      have baseTame : base.Tame := fun part inside => tame part (by simp [Phrase.parts, inside])
      have opens := (mentionOrOpens openNames base baseTame).opens openNames
      apply Or.inr
      simp only [Phrase.layout, Layout.written_append, Layout.written_text]
      exact ((opens.append rfl).appendRight _).appendRight _
  | .list items, _ => by
      apply Or.inr
      apply Or.inl
      simp only [Phrase.layout, Layout.written_append, Layout.written_text,
        String.append_assoc]
      exact startsPlain_append rfl _
  | .map entries, _ => by
      rw [MentionOrOpens, Phrase.layout]
      exact .inr (.inl (startsPlain_map _))
  | .connective operator first second rest, _ => by
      rw [MentionOrOpens, Phrase.layout]
      exact .inr (.inl (startsPlain_operation _ _))
  | .negation operand, _ => by
      apply Or.inr
      apply Or.inl
      rw [Phrase.layout]
      split <;> simp only [Layout.written_append, Layout.written_text, String.append_assoc] <;>
        exact startsPlain_append rfl _
  | .comparison comparator left right, tame => by
      have leftTame : left.Tame := fun part inside => tame part (by simp [Phrase.parts, inside])
      have opens := (mentionOrOpens openNames left leftTame).opens openNames
      apply Or.inr
      simp only [Phrase.layout, Layout.written_append, Layout.written_text]
      exact (opens.append (startsPlain_append rfl _)).appendRight _
  | .arithmetic operator first second rest, _ => by
      rw [MentionOrOpens, Phrase.layout]
      exact .inr (.inl (startsPlain_operation _ _))
  | .negative operand, _ => by
      apply Or.inr
      apply Or.inl
      simp only [Phrase.layout, Layout.written_append, Layout.written_text]
      exact startsPlain_append rfl _
  | .call callee, tame => by
      have calleeTame : callee.Tame := fun part inside =>
        tame part (by simp [Phrase.parts, inside])
      rw [MentionOrOpens, Phrase.layout]
      exact .inr (opens_callee calleeTame)
  | .choose alternatives, _ => by
      rw [MentionOrOpens, Phrase.layout]
      exact .inr (.inl (startsPlain_choice alternatives))
  | .nameTest test target first rest, _ => by
      apply Or.inr
      simp only [Phrase.layout, Layout.written_append]
      exact (openNames target).append (startsPlain_names test first rest)
  | .patternQuery kind body, _ => by
      apply Or.inr
      apply Or.inl
      simp only [Phrase.layout, Layout.written_append, Layout.written_text,
        String.append_assoc]
      exact startsPlain_append (startsPlain_keyword kind) _
  | .chainQuery kind body, _ => by
      apply Or.inr
      apply Or.inl
      simp only [Phrase.layout, Layout.written_append, Layout.written_text,
        String.append_assoc]
      exact startsPlain_append (startsPlain_keyword kind) _
  | .gather comprehension, _ => by
      rw [MentionOrOpens, Phrase.layout]
      exact .inr (.inl (startsPlain_comprehension comprehension))
  | .raw fragment, tame => by cases tame _ (Phrase.raw fragment).of_mem_parts

/-! ## The end -/

/-- The expression is a variable, or its text goes on in front of any quoted name. -/
def MentionOrCloses (names : Dictionary) (expression : Expression) : Prop :=
  (∃ binder, expression = .mention binder) ∨ ClosesInside (expression.layout.written names)

/-- What a dictionary writes for names closes, so that a text can be told from a quoted
name that it ends with. -/
structure ClosesNames (names : Dictionary) : Prop where
  ofVariable : ∀ binder, Closes (names.variableText binder)
  ofParameter : ∀ parameter, Closes (names.parameterText parameter)
  ofLabel : ∀ name, Closes (names.config.label name)
  ofType : ∀ name, Closes (names.config.relationshipType name)

theorem MentionOrCloses.closes (closeNames : ClosesNames names) {expression : Expression}
    (either : MentionOrCloses names expression) :
    Closes (expression.layout.written names) := by
  rcases either with ⟨binder, rfl⟩ | closes
  · rw [Phrase.layout]
    exact closeNames.ofVariable binder
  · exact .inl closes

theorem endsPlain_callee (callee : FunctionCall) : endsPlain (callee.layout.written names) := by
  cases callee with
  | function name distinct arguments =>
      simp only [Phrase.layout, Layout.written_append, Layout.written_text]
      exact endsPlain_append rfl _
  | starFunction name =>
      simp only [Phrase.layout, Layout.written_text]
      exact endsPlain_append rfl _

theorem endsPlain_choice (choice : Choice) : endsPlain (choice.layout.written names) := by
  cases choice with
  | choice subject branches default =>
      simp only [Phrase.layout, Layout.choice, Layout.lines, Layout.written_joined,
        List.map_append, List.map_cons, List.map_nil, Layout.written_text]
      exact endsPlain_intercalate _ _ (by decide)

theorem endsPlain_comprehension (comprehension : Comprehension) :
    endsPlain (comprehension.layout.written names) := by
  cases comprehension with
  | comprehension member source filter result =>
      simp only [Phrase.layout, Layout.written_append, Layout.written_text]
      exact endsPlain_append rfl _

theorem endsPlain_operation (operator : String) (operands : List Layout) :
    endsPlain ((Layout.operation operator operands).written names) := by
  simp only [Layout.operation, Layout.written_append, Layout.written_text]
  exact endsPlain_append rfl _

theorem endsPlain_map (entries : List Layout) :
    endsPlain ((Layout.map entries).written names) := by
  unfold Layout.map
  split
  · rw [Layout.written_text]
    decide
  · simp only [Layout.written_append, Layout.written_text]
    exact endsPlain_append rfl _

theorem endsPlain_keyword (comparator : Comparator) : endsPlain comparator.keyword := by
  cases comparator with
  | isNormalized negated form => exact endsPlain_append rfl _
  | _ => decide

theorem closes_names (closeNames : ClosesNames names) (before : String) (test : NameTest)
    (first : String) (rest : List String) :
    ClosesInside (before ++ (Layout.names test (first :: rest)).written names) := by
  cases test with
  | labels =>
      change ClosesInside (before ++ (":" ++ names.config.labelOperator.token.intercalate
        ((first :: rest).map names.config.label)))
      rw [← String.append_assoc]
      refine Closes.append (closes_intercalate ?_ ?_) (endsPlain_append rfl _)
      · cases names.config.labelOperator <;> decide
      · exact List.forall_mem_map.mpr fun name _ => closeNames.ofLabel name
  | types =>
      change ClosesInside (before ++ (":" ++ "|".intercalate
        ((first :: rest).map names.config.relationshipType)))
      rw [← String.append_assoc]
      refine Closes.append (closes_intercalate (by decide) ?_) (endsPlain_append rfl _)
      exact List.forall_mem_map.mpr fun name _ => closeNames.ofType name

/-- Only variables, and what ends with a name, end with a quoted name. -/
theorem mentionOrCloses (closeNames : ClosesNames names) :
    ∀ expression : Expression, expression.Tame → MentionOrCloses names expression
  | .mention binder, _ => .inl ⟨binder, rfl⟩
  | .placeholder parameter, _ => by
      apply Or.inr
      rw [Phrase.layout, Layout.written]
      split
      · exact .of_endsPlain (by decide)
      · exact (closeNames.ofParameter parameter).append rfl
  | .literal value, _ => by
      apply Or.inr
      apply ClosesInside.of_endsPlain
      rw [Phrase.layout, Layout.written]
      exact (plain_literal _ value).2
  | .property base key, _ => by
      apply Or.inr
      simp only [Phrase.layout, Layout.written_append, Layout.written_text]
      exact (closes_escape _ key).append (endsPlain_append rfl _)
  | .subscript base index, _ => by
      apply Or.inr
      apply ClosesInside.of_endsPlain
      simp only [Phrase.layout, Layout.written_append, Layout.written_text]
      exact endsPlain_append rfl _
  | .list items, _ => by
      apply Or.inr
      apply ClosesInside.of_endsPlain
      simp only [Phrase.layout, Layout.written_append, Layout.written_text]
      exact endsPlain_append rfl _
  | .map entries, _ => by
      rw [MentionOrCloses, Phrase.layout]
      exact .inr (.of_endsPlain (endsPlain_map _))
  | .connective operator first second rest, _ => by
      rw [MentionOrCloses, Phrase.layout]
      exact .inr (.of_endsPlain (endsPlain_operation _ _))
  | .negation operand, tame => by
      have operandTame : operand.Tame := fun part inside =>
        tame part (by simp [Phrase.parts, inside])
      have closes := (mentionOrCloses closeNames operand operandTame).closes closeNames
      apply Or.inr
      rw [Phrase.layout]
      split <;> simp only [Layout.written_append, Layout.written_text]
      · exact closes.append rfl
      · exact .of_endsPlain (endsPlain_append rfl _)
  | .comparison comparator left right, tame => by
      apply Or.inr
      cases right with
      | absent =>
          simp only [Phrase.layout, Layout.written_append, Layout.written_text,
            Layout.optional, Layout.empty, String.append_empty]
          exact .of_endsPlain (endsPlain_append (endsPlain_append (endsPlain_keyword _) _) _)
      | present right =>
          have rightTame : right.Tame := fun part inside =>
            tame part (by simp [Phrase.parts, inside])
          have closes := (mentionOrCloses closeNames right rightTame).closes closeNames
          simp only [Phrase.layout, Layout.written_append, Layout.written_text,
            Layout.optional, ← String.append_assoc]
          exact closes.append (endsPlain_append rfl _)
  | .arithmetic operator first second rest, _ => by
      rw [MentionOrCloses, Phrase.layout]
      exact .inr (.of_endsPlain (endsPlain_operation _ _))
  | .negative operand, tame => by
      have operandTame : operand.Tame := fun part inside =>
        tame part (by simp [Phrase.parts, inside])
      have closes := (mentionOrCloses closeNames operand operandTame).closes closeNames
      apply Or.inr
      simp only [Phrase.layout, Layout.written_append, Layout.written_text]
      exact closes.append rfl
  | .call callee, _ => by
      rw [MentionOrCloses, Phrase.layout]
      exact .inr (.of_endsPlain (endsPlain_callee callee))
  | .choose alternatives, _ => by
      rw [MentionOrCloses, Phrase.layout]
      exact .inr (.of_endsPlain (endsPlain_choice alternatives))
  | .nameTest test target first rest, _ => by
      apply Or.inr
      simp only [Phrase.layout, Layout.written_append]
      exact closes_names closeNames _ test first rest
  | .patternQuery kind body, _ => by
      apply Or.inr
      apply ClosesInside.of_endsPlain
      simp only [Phrase.layout, Layout.written_append, Layout.written_text]
      exact endsPlain_append rfl _
  | .chainQuery kind body, _ => by
      apply Or.inr
      apply ClosesInside.of_endsPlain
      simp only [Phrase.layout, Layout.block, Layout.written_append, Layout.written_text,
        ← String.append_assoc]
      exact endsPlain_append rfl _
  | .gather comprehension, _ => by
      rw [MentionOrCloses, Phrase.layout]
      exact .inr (.of_endsPlain (endsPlain_comprehension comprehension))
  | .raw fragment, tame => by cases tame _ (Phrase.raw fragment).of_mem_parts

end Expression

/-! ## The names of an environment -/

theorem startsPlain_stem (kind : VariableKind) : startsPlain kind.stem := by
  cases kind <;> decide

/-- A generated name ends with a digit. -/
theorem closes_generated (front : String) (number : Nat) :
    Closes (front ++ Decimal.natural number) :=
  .inl (ClosesInside.of_endsPlain (endsPlain_append (plain_natural number).2 front))

namespace Environment.Reachable

variable {environment : Environment}

theorem opensNames (reachable : environment.Reachable)
    (plain : environment.config.namePrefixes.forVariables.toList.head? ≠
      some Identifier.backtick) (binder : Variable) :
    Opens (environment.dictionary.variableText binder) := by
  cases explicit : binder.name with
  | some name =>
      simp only [dictionary, resolveVariable_of_named explicit]
      exact opens_escape _ name
  | none =>
      rcases reachable.variableText explicit with ⟨kind, number, equal⟩
      simp only [dictionary, equal]
      refine .inl (.inl ?_)
      unfold generatedVariableName
      have stem : startsPlain (kind.stem ++ Decimal.natural number) :=
        startsPlain_append (startsPlain_stem kind) _
      rw [String.append_assoc]
      by_cases nothing : environment.config.namePrefixes.forVariables = ""
      · rwa [nothing, String.empty_append]
      · apply startsPlain_append
        cases characters : environment.config.namePrefixes.forVariables.toList with
        | nil => exact absurd (String.toList_eq_nil_iff.mp characters) nothing
        | cons head tail =>
            rw [characters] at plain
            simpa [startsPlain, characters] using plain

theorem closesNames (reachable : environment.Reachable)
    (escaped : environment.config.verbatim = {}) :
    Expression.ClosesNames environment.dictionary where
  ofVariable binder := by
    cases explicit : binder.name with
    | some name =>
        simp only [dictionary, resolveVariable_of_named explicit]
        exact closes_escape _ name
    | none =>
        rcases reachable.variableText explicit with ⟨kind, number, equal⟩
        simp only [dictionary, equal]
        exact closes_generated _ number
  ofParameter parameter := by
    cases explicit : parameter.name with
    | some name =>
        simp only [dictionary, resolveParameter_of_named explicit]
        exact closes_escape _ name
    | none =>
        rcases reachable.parameterText explicit with ⟨number, equal⟩
        simp only [dictionary, equal]
        exact closes_generated _ number
  ofLabel name := by
    simp only [dictionary, Config.label, escaped]
    exact closes_escape _ name
  ofType name := by
    simp only [dictionary, Config.relationshipType, escaped]
    exact closes_escape _ name

end Environment.Reachable

end Cypher
