/-
Expressions of function bodies and initializers.

An expression is a location, a type and a node. The node's parts are again expressions, except
that a lambda is a leaf: what it captures is data of the node, and its body is not modelled.
`Expr.nodes` lists an expression and everything below it, parents first.
-/
import SafeDialect.Program.Type

namespace SafeDialect

/-- The slot of a function declaration. -/
structure FunctionId where
  index : Nat
  deriving DecidableEq

/-- The slot of a variable declaration. -/
structure VariableId where
  index : Nat
  deriving DecidableEq

/-- What a name in an expression refers to. -/
inductive DeclRef where
  | variableRef (id : VariableId)
  | functionRef (id : FunctionId)
  /-- A field reached through an implicit `this`. -/
  | fieldRef (record : RecordId) (index : Nat)
  deriving DecidableEq

inductive UnaryOp where
  | addressOf
  | deref
  | plus
  | minus
  | bitNot
  | logicalNot
  | preIncrement
  | preDecrement
  | postIncrement
  | postDecrement
  deriving DecidableEq

inductive BinaryOp where
  | assign
  | compoundAssign
  | comma
  | add
  | sub
  | mul
  | div
  | rem
  | bitAnd
  | bitOr
  | bitXor
  | shiftLeft
  | shiftRight
  | logicalAnd
  | logicalOr
  | equal
  | notEqual
  | less
  | lessEqual
  | greater
  | greaterEqual
  | pointerToMember
  deriving DecidableEq

inductive CastKind where
  | implicit
  | cStyle
  | functional
  | staticCast
  | dynamicCast
  | reinterpretCast
  | constCast
  deriving DecidableEq

/-- What one capture of a lambda holds. -/
inductive CaptureKind where
  | thisPointer
  | thisCopy
  | byCopy (id : VariableId)
  | byReference (id : VariableId)
  /-- An array of variable length. -/
  | array
  deriving DecidableEq

structure Capture where
  kind : CaptureKind
  location : Location
  deriving DecidableEq

/-- A lambda: its closure type, if known, and its captures. -/
structure Lambda where
  record : Option RecordId
  captures : List Capture
  deriving DecidableEq

mutual

/-- An expression. -/
inductive Expr where
  | mk (location : Location) (type : QualifiedType) (node : Node)

/-- What an expression is made of. The callee of a call, and the constructor of a construction,
are absent if they are not known. -/
inductive Node where
  | nullPointer
  | integer (value : Int)
  | thisObject
  | declRef (target : DeclRef)
  | freeCall (callee : Option FunctionId) (args : List Expr)
  /-- A call `base.f(args)`, or `base->f(args)` if `isArrow`. -/
  | memberCall (callee : Option FunctionId) (base : Expr) (isArrow : Bool) (args : List Expr)
  /-- An overloaded operator. If it is an instance method, its object is the first argument. -/
  | operatorCall (callee : Option FunctionId) (args : List Expr)
  | member (base : Expr) (name : String) (isArrow : Bool)
  | unary (op : UnaryOp) (operand : Expr)
  | binary (op : BinaryOp) (lhs rhs : Expr)
  | conditional (condition thenExpr elseExpr : Expr)
  | cast (kind : CastKind) (operand : Expr)
  | paren (inner : Expr)
  | construct (constructor : Option FunctionId) (args : List Expr)
  | defaultArgument (inner : Expr)
  | materializeTemporary (inner : Expr)
  | bindTemporary (inner : Expr)
  | withCleanups (inner : Expr)
  | lambda (lambda : Lambda)
  /-- A node that the model does not know, by name. -/
  | unsupported (name : String)

end

namespace Expr

def location : Expr → Location
  | mk location _ _ => location

def type : Expr → QualifiedType
  | mk _ type _ => type

def node : Expr → Node
  | mk _ _ node => node

end Expr

/-- The name of a node's kind. -/
def Node.kindName : Node → String
  | nullPointer => "NullPtrLiteral"
  | integer _ => "IntegerLiteral"
  | thisObject => "This"
  | declRef _ => "DeclRef"
  | freeCall .. | memberCall .. | operatorCall .. => "Call"
  | member .. => "Member"
  | unary .. => "Unary"
  | binary .. => "Binary"
  | conditional .. => "Conditional"
  | cast .. => "Cast"
  | paren _ => "Paren"
  | construct .. => "Construct"
  | defaultArgument _ => "DefaultArg"
  | materializeTemporary _ => "MaterializeTemporary"
  | bindTemporary _ => "BindTemporary"
  | withCleanups _ => "ExprWithCleanups"
  | lambda _ => "Lambda"
  | unsupported name => name

/-- The direct parts of a node, in source order. -/
def Node.children : Node → List Expr
  | nullPointer | integer _ | thisObject | declRef _ | lambda _ | unsupported _ => []
  | freeCall _ args | operatorCall _ args | construct _ args => args
  | memberCall _ base _ args => base :: args
  | member base _ _ => [base]
  | unary _ operand | cast _ operand => [operand]
  | binary _ lhs rhs => [lhs, rhs]
  | conditional condition thenExpr elseExpr => [condition, thenExpr, elseExpr]
  | paren inner | defaultArgument inner | materializeTemporary inner | bindTemporary inner
  | withCleanups inner => [inner]

-- ============================================================ traversal

mutual

/-- The expression and everything below it, parents first. -/
def Expr.nodes : Expr → List Expr
  | .mk location type node => .mk location type node :: node.descendants

/-- Everything below a node, parents first. -/
def Node.descendants : Node → List Expr
  | .nullPointer | .integer _ | .thisObject | .declRef _ | .lambda _ | .unsupported _ => []
  | .freeCall _ args | .operatorCall _ args | .construct _ args => Expr.nodesOfList args
  | .memberCall _ base _ args => base.nodes ++ Expr.nodesOfList args
  | .member base _ _ => base.nodes
  | .unary _ operand | .cast _ operand => operand.nodes
  | .binary _ lhs rhs => lhs.nodes ++ rhs.nodes
  | .conditional condition thenExpr elseExpr =>
    condition.nodes ++ thenExpr.nodes ++ elseExpr.nodes
  | .paren inner | .defaultArgument inner | .materializeTemporary inner | .bindTemporary inner
  | .withCleanups inner => inner.nodes

/-- The nodes of several expressions, one expression after the other. -/
def Expr.nodesOfList : List Expr → List Expr
  | [] => []
  | e :: rest => e.nodes ++ Expr.nodesOfList rest

end

-- ============================================================ looking through wrappers

mutual

/-- The expression under parentheses, implicit casts and temporary wrappers. -/
def Expr.unwrapped : Expr → Expr
  | .mk location type node => node.unwrapped location type

/-- What `Expr.unwrapped` finds at a node with the given location and type. -/
def Node.unwrapped (location : Location) (type : QualifiedType) : Node → Expr
  | .paren inner | .withCleanups inner | .materializeTemporary inner => inner.unwrapped
  | .cast .implicit operand => operand.unwrapped
  | node => .mk location type node

end

mutual

/-- The expression under temporaries, implicit casts and constructions: a construction stands
for its first argument. -/
def Expr.withoutTemporaries : Expr → Expr
  | .mk location type node => node.withoutTemporaries location type

/-- What `Expr.withoutTemporaries` finds at a node with the given location and type. -/
def Node.withoutTemporaries (location : Location) (type : QualifiedType) : Node → Expr
  | .bindTemporary inner | .materializeTemporary inner | .withCleanups inner =>
    inner.withoutTemporaries
  | .cast .implicit operand => operand.withoutTemporaries
  | .construct _ (first :: _) => first.withoutTemporaries
  | node => .mk location type node

end

end SafeDialect
