import AdaFront.Text.Lines

namespace AdaFront

/-- What a declared name stands for. A name is `unset` between its place in a list of identifiers
and the part of the declaration that tells. -/
inductive Role where
  | constant | variable | type | procedure | parameter | unset
deriving DecidableEq, Repr, Inhabited

def Role.description : Role → String
  | .constant => "Constant"
  | .variable => "Variable"
  | .type => "Type"
  | .procedure => "Procedure"
  | .parameter => "Parameter"
  | .unset => "None"

/-- A value known before the program runs. -/
inductive Value where
  | integer (value : Int)
  | boolean (value : Bool)
deriving DecidableEq, Repr, Inhabited

namespace Value

def description : Value → String
  | .integer value => toString value
  | .boolean value => if value then "true" else "false"

def integer? : Value → Option Int
  | .integer value => some value
  | .boolean _ => none

end Value

/-- Entries are numbered in the order of their declaration. -/
abbrev EntryId := Nat

/-- The names of one declaration form a group, which has one role and one value. -/
abbrev GroupId := Nat

structure Entry where
  name : String
  role : Role
  value : Option Value
  group : GroupId
deriving DecidableEq, Repr, Inhabited

/-- An entry as a line of a symbol table. -/
def Entry.description (entry : Entry) : String :=
  let value := match entry.value with
    | some value => value.description
    | none => "None"
  "Name:" ++ Text.padRight 16 entry.name ++ " | Role:" ++ Text.padRight 9 entry.role.description ++
    " | Value: " ++ value

end AdaFront
