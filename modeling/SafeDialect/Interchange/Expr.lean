/-
The JSON form of expressions and statements.

Expressions nest. The decoder of a node is given the decoder of its parts, and an expression is
read with as many layers as containers may still be entered: each layer enters one at least.
-/
import SafeDialect.Interchange.Type
import SafeDialect.Program.Stmt

namespace SafeDialect

namespace FunctionId

/-- A function is referred to by its slot. -/
def toJson (id : FunctionId) : Json := .ofNat id.index

/-- Reads a slot of 32 bits. -/
def decoder : Decoder FunctionId := .map .mk .nat32

end FunctionId

namespace VariableId

/-- A variable is referred to by its slot. -/
def toJson (id : VariableId) : Json := .ofNat id.index

/-- Reads a slot of 32 bits. -/
def decoder : Decoder VariableId := .map .mk .nat32

end VariableId

namespace StmtId

/-- A statement is referred to by its slot. -/
def toJson (id : StmtId) : Json := .ofNat id.index

/-- Reads a slot of 32 bits. -/
def decoder : Decoder StmtId := .map .mk .nat32

end StmtId

-- ============================================================ leaves of expressions

namespace DeclRef

/-- What an expression names, tagged with what it is. -/
def toJson : DeclRef → Json
  | variableRef id => .tagged "Var" id.toJson
  | functionRef id => .tagged "Function" id.toJson
  | fieldRef record index => .tagged "Field" (.array [record.toJson, .ofNat index])

/-- A record and the index of one of its fields, as an array of two. -/
def fieldDecoder : Decoder DeclRef
  | depth + 1, .array [record, index] => do
    return .fieldRef (← RecordId.decoder depth record) (← Decoder.nat64 depth index)
  | _, _ => none

/-- Reads what an expression names. -/
def decoder : Decoder DeclRef :=
  .variant fun name content =>
    match name with
    | "Var" => content.holding (.map variableRef VariableId.decoder)
    | "Function" => content.holding (.map functionRef FunctionId.decoder)
    | "Field" => content.holding fieldDecoder
    | _ => none

end DeclRef

namespace UnaryOp

/-- The unary operators. -/
def all : List UnaryOp :=
  [addressOf, deref, plus, minus, bitNot, logicalNot, preIncrement, preDecrement, postIncrement,
    postDecrement]

/-- The name of an operator in its JSON form. -/
def tag : UnaryOp → String
  | addressOf => "AddrOf"
  | deref => "Deref"
  | plus => "Plus"
  | minus => "Minus"
  | bitNot => "Not"
  | logicalNot => "LNot"
  | preIncrement => "PreInc"
  | preDecrement => "PreDec"
  | postIncrement => "PostInc"
  | postDecrement => "PostDec"

def toJson (op : UnaryOp) : Json := .ofString op.tag

/-- Reads an operator by its name. -/
def decoder : Decoder UnaryOp := .oneOf all tag

end UnaryOp

namespace BinaryOp

/-- The binary operators. -/
def all : List BinaryOp :=
  [assign, compoundAssign, comma, add, sub, mul, div, rem, bitAnd, bitOr, bitXor, shiftLeft,
    shiftRight, logicalAnd, logicalOr, equal, notEqual, less, lessEqual, greater, greaterEqual,
    pointerToMember]

/-- The name of an operator in its JSON form. -/
def tag : BinaryOp → String
  | assign => "Assign"
  | compoundAssign => "CompoundAssign"
  | comma => "Comma"
  | add => "Add"
  | sub => "Sub"
  | mul => "Mul"
  | div => "Div"
  | rem => "Rem"
  | bitAnd => "And"
  | bitOr => "Or"
  | bitXor => "Xor"
  | shiftLeft => "Shl"
  | shiftRight => "Shr"
  | logicalAnd => "LAnd"
  | logicalOr => "LOr"
  | equal => "Eq"
  | notEqual => "Ne"
  | less => "Lt"
  | lessEqual => "Le"
  | greater => "Gt"
  | greaterEqual => "Ge"
  | pointerToMember => "PtrMem"

def toJson (op : BinaryOp) : Json := .ofString op.tag

/-- Reads an operator by its name. -/
def decoder : Decoder BinaryOp := .oneOf all tag

end BinaryOp

namespace CastKind

/-- The kinds of casts. -/
def all : List CastKind :=
  [implicit, cStyle, functional, staticCast, dynamicCast, reinterpretCast, constCast]

/-- The name of a cast in its JSON form. -/
def tag : CastKind → String
  | implicit => "Implicit"
  | cStyle => "CStyle"
  | functional => "Functional"
  | staticCast => "Static"
  | dynamicCast => "Dynamic"
  | reinterpretCast => "Reinterpret"
  | constCast => "Const"

def toJson (kind : CastKind) : Json := .ofString kind.tag

/-- Reads a kind of cast by its name. -/
def decoder : Decoder CastKind := .oneOf all tag

end CastKind

namespace CaptureKind

/-- How something is captured, with the variable if there is one. -/
def toJson : CaptureKind → Json
  | thisPointer => .ofString "This"
  | thisCopy => .ofString "StarThis"
  | byCopy id => .tagged "ByCopy" id.toJson
  | byReference id => .tagged "ByRef" id.toJson
  | array => .ofString "Vla"

/-- Reads how something is captured. -/
def decoder : Decoder CaptureKind :=
  .variant fun name content =>
    match name with
    | "This" => content.nothing thisPointer
    | "StarThis" => content.nothing thisCopy
    | "ByCopy" => content.holding (.map byCopy VariableId.decoder)
    | "ByRef" => content.holding (.map byReference VariableId.decoder)
    | "Vla" => content.nothing array
    | _ => none

end CaptureKind

namespace Capture

/-- A capture with its place. -/
def toJson (c : Capture) : Json :=
  .record [("kind", c.kind.toJson), ("location", c.location.toJson)]

/-- Reads a capture. -/
def decoder : Decoder Capture :=
  .struct ["kind", "location"] fun fs => do
    return ⟨← fs.required "kind" CaptureKind.decoder, ← fs.required "location" Location.decoder⟩

end Capture

namespace Lambda

/-- A lambda, with `null` for a closure record that there is not. -/
def toJson (l : Lambda) : Json :=
  .record [("record", .ofOption RecordId.toJson l.record),
    ("captures", .ofList Capture.toJson l.captures)]

/-- Reads a lambda. Neither its record nor its captures have to be there. -/
def decoder : Decoder Lambda :=
  .struct ["record", "captures"] fun fs => do
    return ⟨← fs.nullable "record" RecordId.decoder,
      ← fs.withDefault "captures" (.list Capture.decoder) []⟩

end Lambda

-- ============================================================ expressions

/-- The form of a call. -/
def callJson (callee : Option FunctionId) (kind : Json) (args : Json) : Json :=
  .tagged "Call" (.record
    [("callee", .ofOption FunctionId.toJson callee), ("kind", kind), ("args", args)])

mutual

/-- An expression with its place, its type and what it is. -/
def Expr.toJson : Expr → Json
  | .mk location type node =>
    .record [("location", location.toJson), ("ty", type.toJson), ("kind", node.toJson)]

/-- What an expression is. The three forms of a call share one tag, and say inside how the call is
made. -/
def Node.toJson : Node → Json
  | .nullPointer => .ofString "NullPtrLiteral"
  | .integer value => .tagged "IntegerLiteral" (.ofInt value)
  | .thisObject => .ofString "This"
  | .declRef target => .tagged "DeclRef" target.toJson
  | .freeCall callee args => callJson callee (.ofString "Free") (.array (Expr.listToJson args))
  | .memberCall callee base isArrow args =>
    callJson callee
      (.tagged "Member" (.record [("base", base.toJson), ("is_arrow", .bool isArrow)]))
      (.array (Expr.listToJson args))
  | .operatorCall callee args =>
    callJson callee (.ofString "Operator") (.array (Expr.listToJson args))
  | .member base name isArrow =>
    .tagged "Member" (.record
      [("base", base.toJson), ("name", .ofString name), ("is_arrow", .bool isArrow)])
  | .unary op operand =>
    .tagged "Unary" (.record [("op", op.toJson), ("operand", operand.toJson)])
  | .binary op lhs rhs =>
    .tagged "Binary" (.record [("op", op.toJson), ("lhs", lhs.toJson), ("rhs", rhs.toJson)])
  | .conditional condition thenExpr elseExpr =>
    .tagged "Conditional" (.record
      [("cond", condition.toJson), ("then_expr", thenExpr.toJson),
        ("else_expr", elseExpr.toJson)])
  | .cast kind operand =>
    .tagged "Cast" (.record [("kind", kind.toJson), ("operand", operand.toJson)])
  | .paren inner => .tagged "Paren" inner.toJson
  | .construct constructor args =>
    .tagged "Construct" (.record
      [("ctor", .ofOption FunctionId.toJson constructor),
        ("args", .array (Expr.listToJson args))])
  | .defaultArgument inner => .tagged "DefaultArg" inner.toJson
  | .materializeTemporary inner => .tagged "MaterializeTemporary" inner.toJson
  | .bindTemporary inner => .tagged "BindTemporary" inner.toJson
  | .withCleanups inner => .tagged "ExprWithCleanups" inner.toJson
  | .lambda l => .tagged "Lambda" l.toJson
  | .unsupported name => .tagged "Unsupported" (.ofString name)

/-- Written out for lists, so that the recursion is over the expression. -/
def Expr.listToJson : List Expr → List Json
  | [] => []
  | e :: rest => e.toJson :: Expr.listToJson rest

end

namespace Node

/-- How a call is made: what remains to be said is the callee and the arguments. -/
def callFormDecoder (part : Decoder Expr) :
    Decoder (Option FunctionId → List Expr → Node) :=
  .variant fun name content =>
    match name with
    | "Free" => content.nothing freeCall
    | "Member" => content.holding <| .struct ["base", "is_arrow"] fun fs => do
        let base ← fs.required "base" part
        let isArrow ← fs.required "is_arrow" .bool
        return fun callee args => memberCall callee base isArrow args
    | "Operator" => content.nothing operatorCall
    | _ => none

/-- Reads a call of any form. -/
def callDecoder (part : Decoder Expr) : Decoder Node :=
  .struct ["callee", "kind", "args"] fun fs => do
    let callee ← fs.nullable "callee" FunctionId.decoder
    let form ← fs.required "kind" (callFormDecoder part)
    let args ← fs.required "args" (.list part)
    return form callee args

/-- Reads an access to a member. -/
def memberDecoder (part : Decoder Expr) : Decoder Node :=
  .struct ["base", "name", "is_arrow"] fun fs => do
    return member (← fs.required "base" part) (← fs.required "name" .text)
      (← fs.required "is_arrow" .bool)

/-- Reads a unary operator with its operand. -/
def unaryDecoder (part : Decoder Expr) : Decoder Node :=
  .struct ["op", "operand"] fun fs => do
    return unary (← fs.required "op" UnaryOp.decoder) (← fs.required "operand" part)

/-- Reads a binary operator with its operands. -/
def binaryDecoder (part : Decoder Expr) : Decoder Node :=
  .struct ["op", "lhs", "rhs"] fun fs => do
    return binary (← fs.required "op" BinaryOp.decoder) (← fs.required "lhs" part)
      (← fs.required "rhs" part)

/-- Reads a conditional expression. -/
def conditionalDecoder (part : Decoder Expr) : Decoder Node :=
  .struct ["cond", "then_expr", "else_expr"] fun fs => do
    return conditional (← fs.required "cond" part) (← fs.required "then_expr" part)
      (← fs.required "else_expr" part)

/-- Reads a cast. -/
def castDecoder (part : Decoder Expr) : Decoder Node :=
  .struct ["kind", "operand"] fun fs => do
    return cast (← fs.required "kind" CastKind.decoder) (← fs.required "operand" part)

/-- Reads a construction, whose constructor may be missing. -/
def constructDecoder (part : Decoder Expr) : Decoder Node :=
  .struct ["ctor", "args"] fun fs => do
    return construct (← fs.nullable "ctor" FunctionId.decoder)
      (← fs.required "args" (.list part))

/-- Reads a node, given how to read its parts. -/
def decoderWith (part : Decoder Expr) : Decoder Node :=
  .variant fun name content =>
    match name with
    | "NullPtrLiteral" => content.nothing nullPointer
    | "IntegerLiteral" => content.holding (.map integer .int64)
    | "This" => content.nothing thisObject
    | "DeclRef" => content.holding (.map declRef DeclRef.decoder)
    | "Call" => content.holding (callDecoder part)
    | "Member" => content.holding (memberDecoder part)
    | "Unary" => content.holding (unaryDecoder part)
    | "Binary" => content.holding (binaryDecoder part)
    | "Conditional" => content.holding (conditionalDecoder part)
    | "Cast" => content.holding (castDecoder part)
    | "Paren" => content.holding (.map paren part)
    | "Construct" => content.holding (constructDecoder part)
    | "DefaultArg" => content.holding (.map defaultArgument part)
    | "MaterializeTemporary" => content.holding (.map materializeTemporary part)
    | "BindTemporary" => content.holding (.map bindTemporary part)
    | "ExprWithCleanups" => content.holding (.map withCleanups part)
    | "Lambda" => content.holding (.map lambda Lambda.decoder)
    | "Unsupported" => content.holding (.map unsupported .text)
    | _ => none

end Node

namespace Expr

/-- Reads an expression of at most so many layers. -/
def decoderWithin : (layers : Nat) → Decoder Expr
  | 0 => fun _ _ => none
  | layers + 1 => .struct ["location", "ty", "kind"] fun fs => do
      return .mk (← fs.required "location" Location.decoder)
        (← fs.required "ty" QualifiedType.decoder)
        (← fs.required "kind" (Node.decoderWith (decoderWithin layers)))

/-- Reads an expression. As many layers as containers may be entered are enough for all that there
are. -/
def decoder : Decoder Expr := fun depth v => decoderWithin depth depth v

end Expr

/-- Reads what an expression is. -/
def Node.decoder : Decoder Node := decoderWith Expr.decoder

-- ============================================================ statements

namespace StmtShape

/-- The form of a statement, with other statements by slot and expressions in place. -/
def toJson : StmtShape → Json
  | compound items => .tagged "Compound" (.ofList StmtId.toJson items)
  | declare vars => .tagged "Decl" (.ofList VariableId.toJson vars)
  | evaluate expr => .tagged "Expr" expr.toJson
  | giveBack value => .tagged "Return" (.ofOption Expr.toJson value)
  | branch condition thenBranch elseBranch =>
    .tagged "If" (.record
      [("cond", condition.toJson), ("then_branch", thenBranch.toJson),
        ("else_branch", .ofOption StmtId.toJson elseBranch)])
  | whileLoop condition body =>
    .tagged "While" (.record [("cond", condition.toJson), ("body", body.toJson)])
  | forLoop first condition increment body =>
    .tagged "For" (.record
      [("init", .ofOption StmtId.toJson first), ("cond", .ofOption Expr.toJson condition),
        ("inc", .ofOption Expr.toJson increment), ("body", body.toJson)])
  | null => .ofString "Null"

/-- Reads a branch, whose second part may be missing. -/
def branchDecoder : Decoder StmtShape :=
  .struct ["cond", "then_branch", "else_branch"] fun fs => do
    return branch (← fs.required "cond" Expr.decoder) (← fs.required "then_branch" StmtId.decoder)
      (← fs.withDefault "else_branch" (.optional StmtId.decoder) none)

/-- Reads a loop with a condition. -/
def whileDecoder : Decoder StmtShape :=
  .struct ["cond", "body"] fun fs => do
    return whileLoop (← fs.required "cond" Expr.decoder) (← fs.required "body" StmtId.decoder)

/-- Reads a loop with a header, of which every part may be missing. -/
def forDecoder : Decoder StmtShape :=
  .struct ["init", "cond", "inc", "body"] fun fs => do
    return forLoop (← fs.withDefault "init" (.optional StmtId.decoder) none)
      (← fs.withDefault "cond" (.optional Expr.decoder) none)
      (← fs.withDefault "inc" (.optional Expr.decoder) none)
      (← fs.required "body" StmtId.decoder)

/-- Reads the form of a statement. -/
def decoder : Decoder StmtShape :=
  .variant fun name content =>
    match name with
    | "Compound" => content.holding (.map compound (.list StmtId.decoder))
    | "Decl" => content.holding (.map declare (.list VariableId.decoder))
    | "Expr" => content.holding (.map evaluate Expr.decoder)
    | "Return" => content.holding (.map giveBack (.optional Expr.decoder))
    | "If" => content.holding branchDecoder
    | "While" => content.holding whileDecoder
    | "For" => content.holding forDecoder
    | "Null" => content.nothing null
    | _ => none

end StmtShape

namespace Stmt

/-- A statement with its parent, its place and its form. -/
def toJson (s : Stmt) : Json :=
  .record [("parent", .ofOption StmtId.toJson s.parent), ("location", s.location.toJson),
    ("kind", s.shape.toJson)]

/-- Reads a statement. The parent may be missing, since it can be set from the forward links. -/
def decoder : Decoder Stmt :=
  .struct ["parent", "location", "kind"] fun fs => do
    return ⟨← fs.withDefault "parent" (.optional StmtId.decoder) none,
      ← fs.required "location" Location.decoder, ← fs.required "kind" StmtShape.decoder⟩

end Stmt

end SafeDialect
