import EntityStore.Filter.Selection
import EntityStore.Schema.Entity
import EntityStore.Sql.Encoding

/-!
# Filters as query text

A predicate becomes a list of clause texts that the statement joins with `AND`. Clauses on
attributes the entity does not declare contribute nothing, patterns excepted, which name their
column themselves. A choice joins its branches with `OR` inside parentheses, each branch of more
than one clause in parentheses of its own; a branch that contributes nothing is left out, and a
choice of nothing but such branches contributes nothing either.

Comparing with an absent value is asking for absence. Membership in an empty set is false and
non-membership true, whatever the column holds.

Only a date that cannot be read makes compilation fail; the error is that of the first such
comparand in the order of the clauses.
-/

set_option autoImplicit false

namespace EntityStore

namespace Sql

/-- A template with its question marks replaced, from left to right, by the literals of the values.
Question marks beyond the values are absent values. -/
def fillIn : List Char → List Value → List Char
  | [], _ => []
  | '?' :: cs, [] => null.toList ++ fillIn cs []
  | '?' :: cs, v :: vs => (literal v).toList ++ fillIn cs vs
  | c :: cs, vs => c :: fillIn cs vs

/-- A column matched with a pattern. -/
def patternClause (name : String) (p : Pattern) : String :=
  -- The source is trusted and stands between the quotes as it is.
  quoteIdentifier name ++ (if p.ignoreCase then " ~* '" else " ~ '") ++ p.source ++ "'"

/-- The operand of an operator as text. -/
def operand (a : Attribute) : Operator → Except Error String
  | .between low high => do
    let low ← compared a low
    let high ← compared a high
    return low ++ " AND " ++ high
  -- The members of a set are plain literals, whatever the type of the attribute.
  | .oneOf vs | .noneOf vs => .ok (",".intercalate (vs.map literal))
  | .greater v | .greaterOrEqual v | .less v | .lessOrEqual v | .notEqual v | .like v
  | .notLike v | .verbatim _ v => compared a v

/-- A column compared by an operator. -/
def operatorClause (a : Attribute) (op : Operator) : Except Error String :=
  let column := quoteIdentifier a.name
  match op with
  | .oneOf [] => .ok "FALSE"
  | .noneOf [] => .ok "TRUE"
  | op => do
    let value ← operand a op
    return match op with
      | .greater _ => column ++ " > " ++ value
      | .greaterOrEqual _ => column ++ " >= " ++ value
      | .less _ => column ++ " < " ++ value
      | .lessOrEqual _ => column ++ " <= " ++ value
      | .between .. => column ++ " BETWEEN " ++ value
      | .oneOf _ => column ++ " IN (" ++ value ++ ")"
      | .noneOf _ => column ++ " NOT IN (" ++ value ++ ")"
      | .notEqual _ =>
        if value = null then column ++ " IS NOT NULL" else column ++ " != " ++ value
      | .like _ => column ++ " LIKE " ++ value
      | .notLike _ => column ++ " NOT LIKE " ++ value
      | .verbatim token _ => column ++ " " ++ token ++ " " ++ value

def conditionClause (a : Attribute) : Condition → Except Error String
  | .equals v => do
    let value ← compared a v
    let column := quoteIdentifier a.name
    return if value = null then column ++ " IS NULL" else column ++ " = " ++ value
  | .operator op => operatorClause a op
  | .pattern p => .ok (patternClause a.name p)

/-- A clause on the attribute of a name: nothing if the entity does not declare it, unless the
condition is a pattern. -/
def attributeClause (e : Entity) (name : String) : Condition → Except Error (List String)
  | .pattern p => .ok [patternClause name p]
  | condition =>
    match e.attribute? name with
    | some a => (conditionClause a condition).map fun text => [text]
    | none => .ok []

/-- Clause texts joined so that all must hold. -/
def conjunction (clauses : List String) : String := " AND ".intercalate clauses

/-- A branch of a choice: its clauses joined, in parentheses if there is more than one. -/
def branchText : List String → List String
  | [] => []
  | [clause] => [clause]
  | clauses => ["(" ++ conjunction clauses ++ ")"]

/-- A choice: its branches joined, in parentheses. -/
def choiceText : List String → List String
  | [] => []
  | branches => ["(" ++ " OR ".intercalate branches ++ ")"]

mutual

/-- The clause texts of a predicate. -/
def clauses (e : Entity) : Predicate → Except Error (List String)
  | .raw sql => .ok [sql]
  | .template sql params => .ok [String.ofList (fillIn sql.toList params)]
  | .all cs => clausesOfAll e cs

def clausesOfAll (e : Entity) : List Clause → Except Error (List String)
  | [] => .ok []
  | c :: cs => do
    let first ← clause e c
    let rest ← clausesOfAll e cs
    return first ++ rest

def clause (e : Entity) : Clause → Except Error (List String)
  | .attribute name condition => attributeClause e name condition
  | .any branches => (branchTexts e branches).map choiceText
  | .arbitrary sql => .ok [sql]

/-- The texts of the branches that contribute any. -/
def branchTexts (e : Entity) : List Predicate → Except Error (List String)
  | [] => .ok []
  | b :: bs => do
    let first ← clauses e b
    let rest ← branchTexts e bs
    return branchText first ++ rest

end

/-! ## Order and number of rows -/

/-- Whether a character separates the words of an order: any blank, or a comma. -/
def isSeparator (c : Char) : Bool := Text.isBlank c || c == ','

/-- The words of an order: the longest runs without a separator. -/
def orderWords (cs : List Char) : List (List Char) :=
  (cs.splitOnP isSeparator).filter (!·.isEmpty)

/-- Whether a word is a direction: `asc` or `desc` in any letter case. -/
def isDirection (word : String) : Bool :=
  Text.sameLetters word "asc" || Text.sameLetters word "desc"

/-- The terms of an order. A direction belongs to the term before it. -/
def orderTerms : List String → List String → List String
  | terms, [] => terms
  -- Without a term before it, a direction is a column like any other word.
  | [], word :: words => orderTerms [quoteIdentifier word] words
  | terms, word :: words =>
    if isDirection word then
      orderTerms (terms.dropLast ++ [terms.getLastD "" ++ " " ++ Text.upper word]) words
    else orderTerms (terms ++ [quoteIdentifier word]) words

/-- An order as text; nothing if it names no column. -/
def order? (order : String) : Option String :=
  match orderTerms [] ((orderWords order.toList).map String.ofList) with
  | [] => none
  | terms => some (",".intercalate terms)

/-- The number of rows and of rows to skip. -/
def limit? (limit offset : Option Nat) : Option String :=
  -- Without a number of rows the number to skip means nothing.
  limit.map fun n => "LIMIT " ++ Numeral.ofNat n ++ " OFFSET " ++ Numeral.ofNat (offset.getD 0)

/-! ## The whole filter -/

def condition (e : Entity) (p : Predicate) : Except Error String := (clauses e p).map conjunction

/-- Clause texts as the tail of a statement. -/
def whereTail : List String → String
  | [] => ""
  | clauses => " WHERE " ++ conjunction clauses

/-- A filter as the tail of a statement. -/
def filterTail (e : Entity) (f : Filter) : Except Error String :=
  match f.prebuilt with
  | some sql => .ok sql
  | none => do
    let conditions ← match f.predicate with
      | some p => clauses e p
      | none => pure []
    let order := match f.order.bind order? with
      | some text => " ORDER BY " ++ text
      | none => ""
    let limit := match limit? f.limit f.offset with
      | some text => " " ++ text
      | none => ""
    return whereTail conditions ++ order ++ limit

end Sql

end EntityStore
