/-! Operators and the keywords they are written with. -/

namespace Cypher

/-- Connectives of two or more predicates. -/
inductive Connective where
  | and
  | or
  | xor
deriving DecidableEq, Repr

def Connective.keyword : Connective → String
  | and => "AND"
  | or => "OR"
  | xor => "XOR"

/-- Arithmetic operators of two or more operands. -/
inductive Arithmetic where
  | plus
  | minus
  | times
  | divide
  | modulo
  | power
deriving DecidableEq, Repr

def Arithmetic.symbol : Arithmetic → String
  | plus => "+"
  | minus => "-"
  | times => "*"
  | divide => "/"
  | modulo => "%"
  | power => "^"

/-- Unicode normalization forms. -/
inductive NormalForm where
  | nfc
  | nfd
  | nfkc
  | nfkd
deriving DecidableEq, Repr

def NormalForm.keyword : NormalForm → String
  | nfc => "NFC"
  | nfd => "NFD"
  | nfkc => "NFKC"
  | nfkd => "NFKD"

inductive Comparator where
  | equal
  | unequal
  | less
  | lessOrEqual
  | greater
  | greaterOrEqual
  | member
  | contains
  | startsWith
  | endsWith
  | matchesPattern
  | isNull
  | isNotNull
  | isNormalized (negated : Bool) (form : Option NormalForm)
deriving DecidableEq, Repr

namespace Comparator

/-- The comparator has no operand on its right. -/
def isUnary : Comparator → Bool
  | isNull => true
  | isNotNull => true
  | isNormalized _ _ => true
  | _ => false

def keyword : Comparator → String
  | equal => "="
  | unequal => "<>"
  | less => "<"
  | lessOrEqual => "<="
  | greater => ">"
  | greaterOrEqual => ">="
  | member => "IN"
  | contains => "CONTAINS"
  | startsWith => "STARTS WITH"
  | endsWith => "ENDS WITH"
  | matchesPattern => "=~"
  | isNull => "IS NULL"
  | isNotNull => "IS NOT NULL"
  | isNormalized negated form =>
      "IS " ++ (if negated then "NOT " else "") ++
        (match form with
          | some form => form.keyword ++ " "
          | none => "") ++ "NORMALIZED"

example : keyword (isNormalized true (some .nfkc)) = "IS NOT NFKC NORMALIZED" := by decide

end Comparator

/-- What a subquery is asked for. -/
inductive SubqueryKind where
  | existence
  | count
  | collection
deriving DecidableEq, Repr

def SubqueryKind.keyword : SubqueryKind → String
  | existence => "EXISTS"
  | count => "COUNT"
  | collection => "COLLECT"

inductive SortDirection where
  | ascending
  | descending
deriving DecidableEq, Repr

def SortDirection.keyword : SortDirection → String
  | ascending => "ASC"
  | descending => "DESC"

end Cypher
