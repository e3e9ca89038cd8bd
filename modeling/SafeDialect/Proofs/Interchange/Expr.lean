/-
Expressions and statements are read back.

A node is read back by any decoder of its parts that reads the parts back. An expression is then
read back with as many layers as its form is nested, by induction over its parts.
-/
import SafeDialect.Interchange.Expr
import SafeDialect.Proofs.Interchange.Type
import SafeDialect.Proofs.Program.Lookup

namespace SafeDialect

-- ============================================================ leaves

namespace DeclRef

/-- Slots have 32 bits, and the index of a field has 64. -/
def Representable : DeclRef → Prop
  | variableRef id => id.index < UInt32.size
  | functionRef id => id.index < UInt32.size
  | fieldRef record index => record.index < UInt32.size ∧ index < UInt64.size

instance : DecidablePred Representable
  | variableRef _ | functionRef _ => inferInstanceAs (Decidable (_ < _))
  | fieldRef .. => inferInstanceAs (Decidable (_ ∧ _))

/-- A field is a record and an index, in this order. -/
private theorem fieldRef_encodes {record : RecordId} {index : Nat}
    (sized : (fieldRef record index).Representable) :
    Encodes fieldDecoder (.array [record.toJson, .ofNat index]) (.fieldRef record index) := by
  have record : Encodes RecordId.decoder record.toJson record := .slot sized.1
  have index := Encodes.natBelow sized.2
  refine ⟨.array (by simp [record.whole, index.whole]), fun depth deep => ?_⟩
  obtain ⟨inner, rfl⟩ : ∃ n, depth = n + 1 := ⟨depth - 1, by rw [Json.nesting] at deep; omega⟩
  show ((RecordId.decoder inner _).bind fun r => (Decoder.nat64 inner _).bind fun i =>
    some (fieldRef r i)) = _
  rw [record.reads inner (Nat.zero_le _), Decoder.nat64, index.reads inner (Nat.zero_le _)]
  rfl

/-- What an expression names is read back. -/
theorem encodes {target : DeclRef} (sized : target.Representable) :
    Encodes decoder target.toJson target := by
  cases target with
  | variableRef id => exact .tagged (fun _ => rfl) (.map _ (.slot sized))
  | functionRef id => exact .tagged (fun _ => rfl) (.map _ (.slot sized))
  | fieldRef record index => exact .tagged (fun _ => rfl) (fieldRef_encodes sized)

end DeclRef

/-- Operators and casts have names of their own. -/
theorem UnaryOp.encodes (op : UnaryOp) : Encodes UnaryOp.decoder op.toJson op :=
  .oneOf (by cases op <;> rfl)

theorem BinaryOp.encodes (op : BinaryOp) : Encodes BinaryOp.decoder op.toJson op :=
  .oneOf (by cases op <;> rfl)

theorem CastKind.encodes (kind : CastKind) : Encodes CastKind.decoder kind.toJson kind :=
  .oneOf (by cases kind <;> rfl)

/-- A capture names a variable by its slot or nothing. -/
theorem CaptureKind.encodes {kind : CaptureKind}
    (sized : ∀ id ∈ kind.captured?, id.index < UInt32.size) :
    Encodes CaptureKind.decoder kind.toJson kind := by
  cases kind with
  | byCopy id => exact .tagged (fun _ => rfl) (.map _ (.slot (sized id rfl)))
  | byReference id => exact .tagged (fun _ => rfl) (.map _ (.slot (sized id rfl)))
  | _ => exact .name fun _ => rfl

/-- The captured variable and the location fit their words. -/
def Capture.Representable (c : Capture) : Prop :=
  (∀ id ∈ c.kind.captured?, id.index < UInt32.size) ∧ c.location.Representable

instance : DecidablePred Capture.Representable := fun _ => inferInstanceAs (Decidable (_ ∧ _))

/-- A capture is read back with its place. -/
theorem Capture.encodes {c : Capture} (sized : c.Representable) :
    Encodes Capture.decoder c.toJson c := by
  have kind := CaptureKind.encodes sized.1
  have location := Location.encodes sized.2
  refine .struct (by decide) rfl ⟨kind.whole, location.whole⟩ ?_
  exact .bind (.required rfl kind) <| .bind (.required rfl location) <| .pure

/-- The closure record of a lambda has a slot of 32 bits, and its captures can be written. -/
def Lambda.Representable (l : Lambda) : Prop :=
  (∀ id ∈ l.record, id.index < UInt32.size) ∧ ∀ c ∈ l.captures, c.Representable

instance : DecidablePred Lambda.Representable := fun _ => inferInstanceAs (Decidable (_ ∧ _))

/-- A lambda is read back, with or without a record. -/
theorem Lambda.encodes {l : Lambda} (sized : l.Representable) :
    Encodes Lambda.decoder l.toJson l := by
  have record : Encodes (.optional RecordId.decoder) (.ofOption RecordId.toJson l.record)
      l.record :=
    .slot? (fun _ => rfl) sized.1
  have captures : Encodes (.list Capture.decoder) (.ofList Capture.toJson l.captures)
      l.captures :=
    .list fun c mem => Capture.encodes (sized.2 c mem)
  refine .struct (by decide) rfl ⟨record.whole, captures.whole⟩ ?_
  exact .bind (.nullable rfl record) <| .bind (.withDefault rfl captures) <| .pure

-- ============================================================ nodes

namespace Node

/-- The numbers of a node itself, those of its parts apart, fit their words. -/
def Representable : Node → Prop
  | integer value => FitsInt64 value
  | declRef target => target.Representable
  | freeCall callee _ | memberCall callee _ _ _ | operatorCall callee _ | construct callee _ =>
    ∀ id ∈ callee, id.index < UInt32.size
  | lambda l => l.Representable
  | _ => True

instance : DecidablePred Representable
  | integer value => inferInstanceAs (Decidable (FitsInt64 value))
  | declRef target => inferInstanceAs (Decidable target.Representable)
  | freeCall callee _ | memberCall callee _ _ _ | operatorCall callee _ | construct callee _ =>
    inferInstanceAs (Decidable (∀ id ∈ callee, id.index < UInt32.size))
  | lambda l => inferInstanceAs (Decidable l.Representable)
  | nullPointer | thisObject | member .. | unary .. | binary .. | conditional .. | cast ..
  | paren _ | defaultArgument _ | materializeTemporary _ | bindTemporary _ | withCleanups _
  | unsupported _ => inferInstanceAs (Decidable True)

end Node

/-- The recursion over lists of parts is a map. -/
private theorem Expr.listToJson_eq_map (l : List Expr) : Expr.listToJson l = l.map Expr.toJson := by
  induction l with
  | nil => rfl
  | cons e rest ih => rw [Expr.listToJson, ih, List.map_cons]

namespace Node

variable {part : Decoder Expr}

/-- The three forms of a call are read back alike, given how the call is made. -/
private theorem call_encodes {callee : Option FunctionId} {kind : Json}
    {form : Option FunctionId → List Expr → Node} {args : List Expr}
    (sized : ∀ id ∈ callee, id.index < UInt32.size)
    (kindRead : Encodes (callFormDecoder part) kind form)
    (argsRead : ∀ p ∈ args, Encodes part p.toJson p) :
    Encodes (decoderWith part) (callJson callee kind (.array (Expr.listToJson args)))
      (form callee args) := by
  have callee : Encodes (.optional FunctionId.decoder) (.ofOption FunctionId.toJson callee)
      callee :=
    .slot? (fun _ => rfl) sized
  have args : Encodes (.list part) (.array (Expr.listToJson args)) args :=
    Expr.listToJson_eq_map args ▸ .list argsRead
  refine .tagged (fun _ => rfl)
    (.struct (by decide) rfl ⟨callee.whole, kindRead.whole, args.whole⟩ ?_)
  exact .bind (.nullable rfl callee) <| .bind (.required rfl kindRead) <|
    .bind (.required rfl args) <| .pure

private theorem memberForm_encodes {base : Expr} (baseRead : Encodes part base.toJson base)
    (isArrow : Bool) : Encodes (callFormDecoder part)
      (.tagged "Member" (.record [("base", base.toJson), ("is_arrow", .bool isArrow)]))
      fun callee args => memberCall callee base isArrow args := by
  have arrowRead := Encodes.bool isArrow
  refine .tagged (fun _ => rfl) (.struct (by decide) rfl ⟨baseRead.whole, arrowRead.whole⟩ ?_)
  exact .bind (.required rfl baseRead) <| .bind (.required rfl arrowRead) <| .pure

/-- A node is read back, if its parts are. -/
theorem encodes {node : Node} (sized : node.Representable)
    (parts : ∀ p ∈ node.children, Encodes part p.toJson p) :
    Encodes (decoderWith part) node.toJson node := by
  have only {p : Expr} (isPart : node.children = [p]) : Encodes part p.toJson p :=
    parts p (isPart ▸ List.mem_singleton_self p)
  cases node with
  | nullPointer | thisObject =>
    rw [Node.toJson]
    exact .name fun _ => rfl
  | integer value =>
    rw [Node.toJson]
    exact .tagged (fun _ => rfl) (.map _ (.int64 sized))
  | declRef target =>
    rw [Node.toJson]
    exact .tagged (fun _ => rfl) (.map _ (DeclRef.encodes sized))
  -- the three kinds of calls are written alike and told apart by their form
  | freeCall callee args | operatorCall callee args =>
    rw [Node.toJson]
    exact call_encodes sized (.name fun _ => rfl) parts
  | memberCall callee base isArrow args =>
    rw [Node.toJson]
    exact call_encodes sized (memberForm_encodes (parts base List.mem_cons_self) isArrow)
      fun p mem => parts p (List.mem_cons_of_mem _ mem)
  | member base name isArrow =>
    have base := only rfl
    have name := Encodes.text name
    have isArrow := Encodes.bool isArrow
    rw [Node.toJson]
    refine .tagged (fun _ => rfl)
      (.struct (by decide) rfl ⟨base.whole, name.whole, isArrow.whole⟩ ?_)
    exact .bind (.required rfl base) <| .bind (.required rfl name) <|
      .bind (.required rfl isArrow) <| .pure
  | unary op operand =>
    have op := op.encodes
    have operand := only rfl
    rw [Node.toJson]
    refine .tagged (fun _ => rfl) (.struct (by decide) rfl ⟨op.whole, operand.whole⟩ ?_)
    exact .bind (.required rfl op) <| .bind (.required rfl operand) <| .pure
  | binary op lhs rhs =>
    have op := op.encodes
    have lhs := parts lhs (by simp [children])
    have rhs := parts rhs (by simp [children])
    rw [Node.toJson]
    refine .tagged (fun _ => rfl)
      (.struct (by decide) rfl ⟨op.whole, lhs.whole, rhs.whole⟩ ?_)
    exact .bind (.required rfl op) <| .bind (.required rfl lhs) <| .bind (.required rfl rhs) <|
      .pure
  | conditional condition thenExpr elseExpr =>
    have condition := parts condition (by simp [children])
    have thenExpr := parts thenExpr (by simp [children])
    have elseExpr := parts elseExpr (by simp [children])
    rw [Node.toJson]
    refine .tagged (fun _ => rfl)
      (.struct (by decide) rfl ⟨condition.whole, thenExpr.whole, elseExpr.whole⟩ ?_)
    exact .bind (.required rfl condition) <| .bind (.required rfl thenExpr) <|
      .bind (.required rfl elseExpr) <| .pure
  | cast kind operand =>
    have kind := kind.encodes
    have operand := only rfl
    rw [Node.toJson]
    refine .tagged (fun _ => rfl) (.struct (by decide) rfl ⟨kind.whole, operand.whole⟩ ?_)
    exact .bind (.required rfl kind) <| .bind (.required rfl operand) <| .pure
  | paren inner | defaultArgument inner | materializeTemporary inner | bindTemporary inner
  | withCleanups inner =>
    rw [Node.toJson]
    exact .tagged (fun _ => rfl) (.map _ (only rfl))
  | construct constructor args =>
    have constructor : Encodes (.optional FunctionId.decoder)
        (.ofOption FunctionId.toJson constructor) constructor :=
      .slot? (fun _ => rfl) sized
    have args : Encodes (.list part) (.array (Expr.listToJson args)) args :=
      Expr.listToJson_eq_map args ▸ .list parts
    rw [Node.toJson]
    refine .tagged (fun _ => rfl) (.struct (by decide) rfl ⟨constructor.whole, args.whole⟩ ?_)
    exact .bind (.nullable rfl constructor) <| .bind (.required rfl args) <| .pure
  | lambda l =>
    rw [Node.toJson]
    exact .tagged (fun _ => rfl) (.map _ (Lambda.encodes sized))
  | unsupported name =>
    rw [Node.toJson]
    exact .tagged (fun _ => rfl) (.map _ (.text name))

/-- A part is not nested deeper than the node. -/
theorem nesting_part_le {node : Node} {p : Expr} (mem : p ∈ node.children) :
    p.toJson.nesting ≤ node.toJson.nesting := by
  have below {args : List Expr} (among : p ∈ args) :
      p.toJson.nesting ≤ Json.nestingOfItems (Expr.listToJson args) := by
    rw [Expr.listToJson_eq_map]
    exact Json.nestingOfItems_le_iff.mp (Nat.le_refl _) _ (List.mem_map_of_mem among)
  cases node with
  | nullPointer | thisObject | integer | declRef | lambda | unsupported => exact nomatch mem
  | freeCall callee args | operatorCall callee args | construct callee args =>
    have inArgs : _ ≤ Json.nestingOfItems (Expr.listToJson args) := below mem
    simp only [Node.toJson, callJson, Json.tagged, Json.record, List.map_cons, List.map_nil,
      Json.nesting, Json.nestingOfMembers]
    omega
  | memberCall callee base isArrow args =>
    simp only [Node.toJson, callJson, Json.tagged, Json.record, List.map_cons, List.map_nil,
      Json.nesting, Json.nestingOfMembers]
    rcases List.mem_cons.mp mem with rfl | among
    · omega
    · have inArgs := below among
      omega
  | _ =>
    simp only [children, List.mem_cons, List.not_mem_nil, or_false] at mem
    simp only [Node.toJson, Json.tagged, Json.record, List.map_cons, List.map_nil,
      Json.nesting, Json.nestingOfMembers]
    rcases mem with rfl | rfl | rfl <;> omega

end Node

-- ============================================================ expressions

namespace Expr

/-- The numbers in the expression and everything below it fit their words. -/
def Representable (e : Expr) : Prop :=
  ∀ n ∈ e.nodes, n.location.Representable ∧ n.type.Representable ∧ n.node.Representable

instance : DecidablePred Representable := fun e => inferInstanceAs (Decidable (∀ n ∈ e.nodes, _))

/-- The nodes of a part are nodes of the whole. -/
theorem Representable.part {e part : Expr} (sized : e.Representable)
    (mem : part ∈ e.node.children) : part.Representable :=
  fun n below => sized n (mem_nodes.mpr (.inr ⟨part, mem, below⟩))

private theorem toJson_eq (e : Expr) :
    e.toJson = .record [("location", e.location.toJson), ("ty", e.type.toJson),
      ("kind", e.node.toJson)] := by
  cases e
  rw [Expr.toJson]
  rfl

/-- An expression is never written as `null`, so none is told apart from some. -/
private theorem toJson_ne_null (e : Expr) : e.toJson ≠ .null := by
  rw [e.toJson_eq]
  nofun

/-- An expression is read back with as many layers as its form is nested. -/
theorem encodesWithin {e : Expr} (sized : e.Representable) {layers : Nat}
    (deep : e.toJson.nesting ≤ layers) : Encodes (decoderWithin layers) e.toJson e := by
  induction e using Expr.induction_on_parts generalizing layers with
  | step e ih =>
    obtain ⟨location, type, node⟩ := e
    rw [toJson_eq] at deep ⊢
    obtain ⟨inner, rfl, all⟩ := Json.nesting_record_le_iff.mp deep
    have nodeDeep : node.toJson.nesting ≤ inner := all ("kind", _) (by simp [Expr.node])
    obtain ⟨locationSized, typeSized, nodeSized⟩ := sized _ (mem_nodes_self _)
    have location := Location.encodes locationSized
    have type := QualifiedType.encodes typeSized
    -- one layer is spent on this expression, and its own object is one container less for the parts
    have node : Encodes (Node.decoderWith (decoderWithin inner)) node.toJson node := by
      refine Node.encodes nodeSized fun part mem => ?_
      exact ih part mem (sized.part mem) (Nat.le_trans (Node.nesting_part_le mem) nodeDeep)
    refine .struct (by decide) rfl ⟨location.whole, type.whole, node.whole⟩ ?_
    exact .bind (.required rfl location) <| .bind (.required rfl type) <|
      .bind (.required rfl node) <| .pure

/-- An expression is read back. The nesting of its text is a bound on its layers. -/
theorem encodes {e : Expr} (sized : e.Representable) : Encodes decoder e.toJson e :=
  ⟨(encodesWithin sized (Nat.le_refl _)).whole,
    fun depth deep => (encodesWithin sized deep).reads depth deep⟩

/-- So is one that may be missing. -/
theorem optional_encodes {o : Option Expr} (sized : ∀ e ∈ o, e.Representable) :
    Encodes (.optional decoder) (.ofOption toJson o) o :=
  .optional (fun e isSome => encodes (sized e isSome)) toJson_ne_null

end Expr

-- ============================================================ statements

namespace StmtShape

/-- The slots that a statement lists, and the numbers in its expressions, fit their words. -/
def Representable : StmtShape → Prop
  | compound items => ∀ id ∈ items, id.index < UInt32.size
  | declare vars => ∀ id ∈ vars, id.index < UInt32.size
  | evaluate expr => expr.Representable
  | giveBack value => ∀ e ∈ value, e.Representable
  | branch condition thenBranch elseBranch =>
    condition.Representable ∧ thenBranch.index < UInt32.size
      ∧ ∀ id ∈ elseBranch, id.index < UInt32.size
  | whileLoop condition body => condition.Representable ∧ body.index < UInt32.size
  | forLoop first condition increment body =>
    (∀ id ∈ first, id.index < UInt32.size) ∧ (∀ e ∈ condition, e.Representable)
      ∧ (∀ e ∈ increment, e.Representable) ∧ body.index < UInt32.size
  | null => True

instance : DecidablePred Representable
  | compound items => inferInstanceAs (Decidable (∀ id ∈ items, id.index < UInt32.size))
  | declare vars => inferInstanceAs (Decidable (∀ id ∈ vars, id.index < UInt32.size))
  | evaluate expr => inferInstanceAs (Decidable expr.Representable)
  | giveBack value => inferInstanceAs (Decidable (∀ e ∈ value, e.Representable))
  | branch .. | whileLoop .. | forLoop .. => inferInstanceAs (Decidable (_ ∧ _))
  | null => inferInstanceAs (Decidable True)

/-- The form of a statement is read back, with expressions in place and statements by slot. -/
theorem encodes {shape : StmtShape} (sized : shape.Representable) :
    Encodes decoder shape.toJson shape := by
  have slot {id : StmtId} (sized : id.index < UInt32.size) :
      Encodes StmtId.decoder id.toJson id := .slot sized
  have slot? {o : Option StmtId} (sized : ∀ id ∈ o, id.index < UInt32.size) :
      Encodes (.optional StmtId.decoder) (.ofOption StmtId.toJson o) o :=
    .slot? (fun _ => rfl) sized
  cases shape with
  | compound items =>
    exact .tagged (fun _ => rfl) (.map _ (.list fun id mem => .slot (sized id mem)))
  | declare vars =>
    exact .tagged (fun _ => rfl) (.map _ (.list fun id mem => .slot (sized id mem)))
  | evaluate expr => exact .tagged (fun _ => rfl) (.map _ (Expr.encodes sized))
  | giveBack value => exact .tagged (fun _ => rfl) (.map _ (Expr.optional_encodes sized))
  | branch condition thenBranch elseBranch =>
    have condition := Expr.encodes sized.1
    have thenBranch := slot sized.2.1
    have elseBranch := slot? sized.2.2
    refine .tagged (fun _ => rfl)
      (.struct (by decide) rfl ⟨condition.whole, thenBranch.whole, elseBranch.whole⟩ ?_)
    exact .bind (.required rfl condition) <| .bind (.required rfl thenBranch) <|
      .bind (.withDefault rfl elseBranch) <| .pure
  | whileLoop condition body =>
    have condition := Expr.encodes sized.1
    have body := slot sized.2
    refine .tagged (fun _ => rfl) (.struct (by decide) rfl ⟨condition.whole, body.whole⟩ ?_)
    exact .bind (.required rfl condition) <| .bind (.required rfl body) <| .pure
  | forLoop first condition increment body =>
    have first := slot? sized.1
    have condition := Expr.optional_encodes sized.2.1
    have increment := Expr.optional_encodes sized.2.2.1
    have body := slot sized.2.2.2
    refine .tagged (fun _ => rfl) (.struct (by decide) rfl
      ⟨first.whole, condition.whole, increment.whole, body.whole⟩ ?_)
    exact .bind (.withDefault rfl first) <| .bind (.withDefault rfl condition) <|
      .bind (.withDefault rfl increment) <| .bind (.required rfl body) <| .pure
  | null => exact .name fun _ => rfl

end StmtShape

namespace Stmt

/-- The parent of a statement has a slot of 32 bits, and its place and form can be written. -/
def Representable (s : Stmt) : Prop :=
  (∀ id ∈ s.parent, id.index < UInt32.size) ∧ s.location.Representable ∧ s.shape.Representable

instance : DecidablePred Representable := fun _ => inferInstanceAs (Decidable (_ ∧ _))

/-- A statement is read back. -/
theorem encodes {s : Stmt} (sized : s.Representable) : Encodes decoder s.toJson s := by
  have parent : Encodes (.optional StmtId.decoder) (.ofOption StmtId.toJson s.parent) s.parent :=
    .slot? (fun _ => rfl) sized.1
  have location := Location.encodes sized.2.1
  have shape := StmtShape.encodes sized.2.2
  refine .struct (by decide) rfl ⟨parent.whole, location.whole, shape.whole⟩ ?_
  exact .bind (.withDefault rfl parent) <| .bind (.required rfl location) <|
    .bind (.required rfl shape) <| .pure

end Stmt

end SafeDialect
