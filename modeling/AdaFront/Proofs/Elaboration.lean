import AdaFront.Proofs.Syntax

namespace AdaFront

/-- What the names of one declaration share. -/
structure Cell where
  role : Role
  /-- The value, if it is a known integer. -/
  value : Option Int
deriving DecidableEq, Repr, Inhabited

/-- What a name stands for at some point of a program, if it is declared there. -/
abbrev Scope := String → Option Cell

namespace Scope

def undeclared (scope : Scope) (name : String) : List Diagnostic :=
  match scope name with
  | none => [.name (.undeclared name)]
  | some _ => []

def misfit (scope : Scope) (name : String) (use : NameUse) : List Diagnostic :=
  match scope name with
  | none => []
  | some cell => if cell.role = .unset ∨ cell.role ∈ use.roles then [] else [.roleMismatch use]

/-- What there is to say about a name at its use. -/
def remarks (scope : Scope) (name : String) (use : NameUse) : List Diagnostic :=
  scope.undeclared name ++ scope.misfit name use

end Scope

/-- The value of an operation on operands that may be unknown. -/
def Operator.value (operator : Operator) (left right : Option Int) : Option Int :=
  match left, right with
  | some left, some right =>
    match operator.fold left right with
    | .value value => some value
    | .unknown | .divisionByZero | .overflow => none
  | _, _ => none

def Operator.remarks (operator : Operator) (left right : Option Int) : List Diagnostic :=
  match left, right with
  | some left, some right =>
    match operator.fold left right with
    | .value _ | .unknown => []
    | .divisionByZero => [.divisionByZero]
    | .overflow => [.overflow]
  | _, _ => []

namespace Tree

def Adding.operator : Adding → Operator
  | .plus => .add
  | .minus => .subtract

def Multiplying.operator : Multiplying → Operator
  | .times => .multiply
  | .over => .divide
  | .modulo => .modulo

mutual

/-- The value of an expression, if it is known. -/
def Expression.value (scope : Scope) : Expression → Option Int
  | .relation only => only.value scope
  | .joined _ _ _ _ => none

def Relation.value (scope : Scope) : Relation → Option Int
  | .simple only => only.value scope
  | .compared _ _ _ => none

def Simple.value (scope : Scope) : Simple → Option Int
  | .term (some .minus) only => Operator.subtract.value (some 0) (only.value scope)
  | .term _ only => only.value scope
  | .sum left operator right => operator.operator.value (left.value scope) (right.value scope)

def Term.value (scope : Scope) : Term → Option Int
  | .factor only => only.value scope
  | .product left operator right => operator.operator.value (left.value scope) (right.value scope)

def Factor.value (scope : Scope) : Factor → Option Int
  | .primary only => only.value scope
  | .negated _ => none
  | .power base exponent => Operator.power.value (base.value scope) (exponent.value scope)

def Primary.value (scope : Scope) : Primary → Option Int
  | .literal digits => if inRange (literalValue digits) then some (literalValue digits) else none
  | .name (.plain name) => (scope name).bind Cell.value
  | .name (.indexed _ _) => none
  | .inParentheses inner => inner.value scope

end

mutual

/-- What there is to say about an expression, in the order of its text. -/
def Expression.remarks (scope : Scope) : Expression → List Diagnostic
  | .relation only => only.remarks scope
  | .joined _ first second others =>
    first.remarks scope ++ second.remarks scope ++ others.remarks scope

def Relations.remarks (scope : Scope) : Relations → List Diagnostic
  | .none => []
  | .more first others => first.remarks scope ++ others.remarks scope

def Relation.remarks (scope : Scope) : Relation → List Diagnostic
  | .simple only => only.remarks scope
  | .compared _ left right => left.remarks scope ++ right.remarks scope

def Simple.remarks (scope : Scope) : Simple → List Diagnostic
  | .term (some .minus) only =>
    only.remarks scope ++ Operator.subtract.remarks (some 0) (only.value scope)
  | .term _ only => only.remarks scope
  | .sum left operator right =>
    left.remarks scope ++ right.remarks scope ++
      operator.operator.remarks (left.value scope) (right.value scope)

def Term.remarks (scope : Scope) : Term → List Diagnostic
  | .factor only => only.remarks scope
  | .product left operator right =>
    left.remarks scope ++ right.remarks scope ++
      operator.operator.remarks (left.value scope) (right.value scope)

def Factor.remarks (scope : Scope) : Factor → List Diagnostic
  | .primary only | .negated only => only.remarks scope
  | .power base exponent =>
    base.remarks scope ++ exponent.remarks scope ++
      Operator.power.remarks (base.value scope) (exponent.value scope)

def Primary.remarks (scope : Scope) : Primary → List Diagnostic
  | .literal digits => if inRange (literalValue digits) then [] else [.overflow]
  | .name name => name.remarks scope .operand
  | .inParentheses inner => inner.remarks scope

/-- The role of an indexed name is looked at behind its arguments. -/
def Name.remarks (scope : Scope) (use : NameUse) : Name → List Diagnostic
  | .plain name => scope.remarks name use
  | .indexed name arguments =>
    scope.undeclared name ++ arguments.remarks scope ++ scope.misfit name use

def Arguments.remarks (scope : Scope) : Arguments → List Diagnostic
  | .one last => last.remarks scope
  | .more first others => first.remarks scope ++ others.remarks scope

end

end Tree

/-- The scopes that are open, the innermost first, each with its names and their cells. Cells are
numbered in the order of their declaration and outlive their scopes. -/
structure Environment where
  frames : List (List (String × Nat))
  cells : List Cell
deriving DecidableEq, Repr, Inhabited

namespace Environment

def resolve (env : Environment) (name : String) : Option Nat :=
  env.frames.findSome? (·.lookup name)

def scope (env : Environment) : Scope := fun name =>
  (env.resolve name).bind (env.cells[·]?)

/-- Whether the innermost scope has the name already. -/
def holds (env : Environment) (name : String) : Bool :=
  ((env.frames.headD []).lookup name).isSome

/-- Adds a name for a cell to the innermost scope. -/
def name (env : Environment) (name : String) (cell : Nat) : Environment :=
  { env with frames := (env.frames.headD [] ++ [(name, cell)]) :: env.frames.tail }

def allocate (env : Environment) (cell : Cell) : Environment :=
  { env with cells := env.cells ++ [cell] }

def change (env : Environment) (cell : Option Nat) (change : Cell → Cell) : Environment :=
  match cell with
  | some cell => { env with cells := env.cells.modify cell change }
  | none => env

def push (env : Environment) : Environment :=
  { env with frames := [] :: env.frames }

def pop (env : Environment) : Environment :=
  { env with frames := env.frames.tail }

/-- The names that every program starts with. -/
def predefined : Environment where
  frames := [[("boolean", 0), ("char", 1), ("integer", 2), ("true", 3), ("false", 4)]]
  cells := [⟨.type, none⟩, ⟨.type, none⟩, ⟨.type, none⟩, ⟨.constant, none⟩, ⟨.constant, none⟩]

end Environment

/-- What a program shows of itself. -/
inductive Effect where
  | remark (diagnostic : Diagnostic)
  | printed (value : Int)
deriving DecidableEq, Repr, Inhabited

/-- How far a walk over a program has come. -/
structure Walk where
  env : Environment
  trace : List Effect
  /-- The number of print statements that have been met. -/
  prints : Nat
deriving DecidableEq, Repr, Inhabited

namespace Walk

def start : Walk := ⟨Environment.predefined, [], 0⟩

def scope (walk : Walk) : Scope := walk.env.scope

def say (walk : Walk) (remarks : List Diagnostic) : Walk :=
  { walk with trace := walk.trace ++ remarks.map .remark }

/-- Declares a name with a cell of its own. -/
def declare (walk : Walk) (name : String) (role : Role) : Walk :=
  if walk.env.holds name then walk.say [.name (.duplicate name)]
  else { walk with env := (walk.env.allocate ⟨role, none⟩).name name walk.env.cells.length }

/-- Declares a name of a list. The first one that can be declared gets a cell, which the others share. -/
def declareListed (walk : Walk) (cell : Option Nat) (name : String) : Option Nat × Walk :=
  if walk.env.holds name then (cell, walk.say [.name (.duplicate name)])
  else match cell with
    | some shared => (some shared, { walk with env := walk.env.name name shared })
    | none =>
      let fresh := walk.env.cells.length
      (some fresh, { walk with env := (walk.env.allocate ⟨.unset, none⟩).name name fresh })

def declareAll (walk : Walk) (cell : Option Nat) : List String → Option Nat × Walk
  | [] => (cell, walk)
  | name :: names =>
    let (cell, after) := walk.declareListed cell name
    after.declareAll cell names

def setRole (walk : Walk) (cell : Option Nat) (role : Role) : Walk :=
  { walk with env := walk.env.change cell fun cell => { cell with role := role } }

/-- A constant has a value only if its expression has one. -/
def setConstant (walk : Walk) (cell : Option Nat) (value : Option Int) : Walk :=
  match value with
  | some value => { walk with env := walk.env.change cell fun cell => { cell with value := some value } }
  | none => walk

/-- Stores a value, known or not, in the cell of a variable or parameter. -/
def assign (walk : Walk) (name : String) (value : Option Int) : Walk :=
  match walk.scope name with
  | some cell =>
    if cell.role ∈ NameUse.target.roles then
      { walk with env :=
          walk.env.change (walk.env.resolve name) fun cell => { cell with value := value } }
    else walk
  | none => walk

/-- Declares the names of a list with a role. -/
def declareList (walk : Walk) (names : Tree.Names) (role : Role) : Option Nat × Walk :=
  let (cell, after) := walk.declareAll none (names.first :: names.others)
  (cell, after.setRole cell role)

def push (walk : Walk) : Walk := { walk with env := walk.env.push }

def pop (walk : Walk) : Walk := { walk with env := walk.env.pop }

end Walk

namespace Tree

mutual

/-- Walks over a statement. The walk ends at a print statement whose operand is not known. -/
def Statement.elaborate : Statement → Walk → Except Walk Walk
  | .assignment target source, walk =>
    let after := walk.say (target.remarks walk.scope .target ++ source.remarks walk.scope)
    match target with
    | .plain name => .ok (after.assign name (source.value walk.scope))
    | .indexed _ _ => .ok after
  | .call name, walk => .ok (walk.say (name.remarks walk.scope .call))
  | .conditional condition body others, walk => do
    let after ← body.elaborate (walk.say (condition.remarks walk.scope))
    others.elaborate after
  | .loop (some condition) body, walk => body.elaborate (walk.say (condition.remarks walk.scope))
  | .loop none body, walk => body.elaborate walk
  | .exit (some condition), walk => .ok (walk.say (condition.remarks walk.scope))
  | .exit none, walk => .ok walk
  | .null, walk => .ok walk
  | .print operand, walk =>
    let after := { walk.say (operand.remarks walk.scope) with prints := walk.prints + 1 }
    match operand.value walk.scope with
    | some value => .ok { after with trace := after.trace ++ [.printed value] }
    | none => .error after

def Sequence.elaborate : Sequence → Walk → Except Walk Walk
  | .one last, walk => last.elaborate walk
  | .more first others, walk => do
    let after ← first.elaborate walk
    others.elaborate after

def Alternatives.elaborate : Alternatives → Walk → Except Walk Walk
  | .none, walk => .ok walk
  | .otherwise body, walk => body.elaborate walk
  | .elsif condition body others, walk => do
    let after ← body.elaborate (walk.say (condition.remarks walk.scope))
    others.elaborate after

end

def Index.remarks (scope : Scope) : Index → List Diagnostic
  | .range low high => low.remarks scope ++ high.remarks scope
  | .type name => scope.remarks name .typeName

def TypeDefinition.elaborate : TypeDefinition → Walk → Walk
  | .enumeration names, walk => (walk.declareList names .constant).2
  | .array first others element, walk =>
    walk.say (first.remarks walk.scope ++ others.flatMap (Index.remarks walk.scope) ++
      walk.scope.remarks element .typeName)
  | .range low high, walk => walk.say (low.remarks walk.scope ++ high.remarks walk.scope)
  | .type name, walk => walk.say (walk.scope.remarks name .typeName)

def Parameter.elaborate (walk : Walk) (parameter : Parameter) : Walk :=
  let (_, after) := walk.declareList parameter.names .parameter
  after.say (after.scope.remarks parameter.type .typeName)

mutual

/-- Walks over a procedure. Its name belongs to the scope around it, and its own scope is closed
before the name at its end is looked up. -/
def Subprogram.elaborate : Subprogram → Walk → Except Walk Walk
  | .mk name parameters declarations body closing, walk => do
    let opened := parameters.foldl Parameter.elaborate (walk.declare name .procedure).push
    let declared ← declarations.elaborate opened
    let inner ← body.elaborate declared
    let outer := inner.pop
    match closing with
    | some name => .ok (outer.say (outer.scope.remarks name .call))
    | none => .ok outer

def Declarations.elaborate : Declarations → Walk → Except Walk Walk
  | .none, walk => .ok walk
  | .type name definition others, walk =>
    others.elaborate (definition.elaborate (walk.declare name .type))
  | .constant names source others, walk =>
    let (cell, after) := walk.declareList names .constant
    let said := after.say (source.remarks after.scope)
    others.elaborate (said.setConstant cell (source.value after.scope))
  | .variable names definition others, walk =>
    others.elaborate (definition.elaborate (walk.declareList names .variable).2)
  | .subprogram inner others, walk => do
    let after ← inner.elaborate walk
    others.elaborate after

end

end Tree

end AdaFront
