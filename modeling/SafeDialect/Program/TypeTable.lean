/-
The type table: slots, synonyms and interning.

A type is *canonical* when its slot holds no synonym. Following synonyms ends at a canonical type
and gathers every `const` met on the way. Interning stores pointees, referents and elements
canonical, and hands out the slot that already holds a layer, so in a table grown by interning alone
the canonical slot identifies the type. A table that was read from outside may hold one layer twice;
then the last slot is the one handed out.

Slots are natural numbers and never run out. Where ids have 32 bits, a table stands for one of these
as long as it has at most 2 ^ 32 slots.
-/
import SafeDialect.Program.Type

namespace SafeDialect

/-- The layers of all types of a unit, by slot. -/
structure TypeTable where
  shapes : Array TypeShape
  deriving DecidableEq

namespace TypeTable

/-- The table without slots. -/
def empty : TypeTable := ⟨#[]⟩

instance : Inhabited TypeTable := ⟨empty⟩

/-- The number of slots. -/
def size (t : TypeTable) : Nat := t.shapes.size

/-- The layer at a slot. -/
def shape (t : TypeTable) (id : TypeId) : Result TypeShape := entry .types t.shapes id.index

/-- Follows synonyms, looking at no more than `steps` layers. -/
def resolve (t : TypeTable) : (steps : Nat) → QualifiedType → Result QualifiedType
  | 0, _ => .error .endless
  | steps + 1, q =>
    match t.shape q.id with
    | .error fault => .error fault
    | .ok (.synonym _ target) => t.resolve steps ⟨target.id, q.isConst || target.isConst⟩
    | .ok _ => .ok q

/-- The type with its synonyms followed, and each `const` on the way kept. A chain of synonyms that
visits more layers than there are slots comes back to itself. -/
def canonical (t : TypeTable) (q : QualifiedType) : Result QualifiedType :=
  t.resolve (t.size + 1) q

/-- Whether the slot itself holds no synonym. -/
def isCanonical (t : TypeTable) (q : QualifiedType) : Result Bool := do
  let shape ← t.shape q.id
  return !shape.isSynonym

/-- The layer of the canonical type. -/
def canonicalShape (t : TypeTable) (q : QualifiedType) : Result TypeShape := do
  let c ← t.canonical q
  t.shape c.id

-- ============================================================ interning

/-- The last slot below a bound that holds a layer. -/
def lastBelow (t : TypeTable) (shape : TypeShape) : (bound : Nat) → Option TypeId
  | 0 => none
  | n + 1 => if t.shapes[n]? = some shape then some ⟨n⟩ else t.lastBelow shape n

/-- The last slot that holds a layer. -/
def find? (t : TypeTable) (shape : TypeShape) : Option TypeId := t.lastBelow shape t.size

/-- The layer with its pointee, referent or element made canonical. -/
def normalize (t : TypeTable) : TypeShape → Result TypeShape
  | .pointer q => return .pointer (← t.canonical q)
  | .lvalueReference q => return .lvalueReference (← t.canonical q)
  | .rvalueReference q => return .rvalueReference (← t.canonical q)
  | .array element size => return .array (← t.canonical element) size
  | shape => return shape

/-- The slot of a layer, in a table extended by it if it is new. A new slot is an id of 32 bits as
long as there are fewer than 2 ^ 32 slots before it. -/
def intern (t : TypeTable) (shape : TypeShape) : Result (TypeTable × TypeId) := do
  let shape ← t.normalize shape
  match t.find? shape with
  | some id => return (t, id)
  | none => return (⟨t.shapes.push shape⟩, ⟨t.size⟩)

end TypeTable

end SafeDialect
