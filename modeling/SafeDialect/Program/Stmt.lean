/-
Statements of function bodies.

Statements live in a table and name their children by slot; the expressions of a statement are
part of it. In a consistent unit a child precedes the statement that lists it.
-/
import SafeDialect.Program.Expr

namespace SafeDialect

/-- The slot of a statement. -/
structure StmtId where
  index : Nat
  deriving DecidableEq

/-- What a statement is made of. -/
inductive StmtShape where
  | compound (items : List StmtId)
  | declare (vars : List VariableId)
  | evaluate (expr : Expr)
  | giveBack (value : Option Expr)
  | branch (condition : Expr) (thenBranch : StmtId) (elseBranch : Option StmtId)
  | whileLoop (condition : Expr) (body : StmtId)
  | forLoop (first : Option StmtId) (condition increment : Option Expr) (body : StmtId)
  | null

/-- A statement. Its parent is the statement around it; a function body has none. -/
structure Stmt where
  parent : Option StmtId
  location : Location
  shape : StmtShape

namespace StmtShape

/-- The direct child statements, in source order. -/
def children : StmtShape → List StmtId
  | compound items => items
  | branch _ thenBranch elseBranch => thenBranch :: elseBranch.toList
  | whileLoop _ body => [body]
  | forLoop first _ _ body => first.toList ++ [body]
  | declare _ | evaluate _ | giveBack _ | null => []

/-- The expressions that belong to the statement itself, in source order. -/
def exprs : StmtShape → List Expr
  | evaluate expr => [expr]
  | giveBack value => value.toList
  | branch condition _ _ | whileLoop condition _ => [condition]
  | forLoop _ condition increment _ => condition.toList ++ increment.toList
  | compound _ | declare _ | null => []

/-- The variables that the statement declares. -/
def declared : StmtShape → List VariableId
  | declare vars => vars
  | _ => []

end StmtShape

namespace Stmt

def children (s : Stmt) : List StmtId := s.shape.children

def exprs (s : Stmt) : List Expr := s.shape.exprs

def declared (s : Stmt) : List VariableId := s.shape.declared

end Stmt

end SafeDialect
