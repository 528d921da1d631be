import Cypher.Chain
import Cypher.Phrase.Layout

/-! Queries: a chain of clauses as finished text with its parameters. -/

namespace Cypher

structure Query where
  text : String
  parameters : Fields Value

namespace Query

/-- The line that selects a version of the query language. -/
def header (config : Config) : String :=
  match config.version with
  | none => ""
  | some version => "CYPHER " ++ version ++ "\n"

/-- Every query starts without any names. The extra parameters of the
configuration are declared after the chain is rendered. -/
def build (config : Config) (chain : Chain) : Except RenderError Query :=
  match chain.layout.render (.empty config) with
  | .ok text environment =>
      .ok { text := header config ++ text
            parameters := (environment.declareValues config.extraParameters).collectParameters }
  | .error error _ => .error error

end Query

end Cypher
