/-
Locations and types are read back.

A value is *representable* if its numbers fit the words that the format has for them: 32 bits for
slots, 64 bits for offsets, lengths and sizes.
-/
import SafeDialect.Proofs.Interchange.Encodes

namespace SafeDialect

-- ============================================================ places

/-- The file, the offset and the length fit their words. -/
def Location.Representable (loc : Location) : Prop :=
  (∀ file ∈ loc.file, file.index < UInt32.size) ∧ loc.span.start < UInt64.size
    ∧ loc.span.len < UInt64.size

instance : DecidablePred Location.Representable := fun _ => inferInstanceAs (Decidable (_ ∧ _))

/-- A file is read back. -/
theorem SourceFile.encodes (f : SourceFile) : Encodes SourceFile.decoder f.toJson f := by
  have path := Encodes.text f.path
  have isSystem := Encodes.bool f.isSystem
  refine .struct (by decide) rfl ⟨path.whole, isSystem.whole⟩ ?_
  exact .bind (.required rfl path) <| .bind (.withDefault rfl isSystem) <| .pure

/-- A span is read back if both of its numbers have 64 bits. -/
theorem Span.encodes {s : Span} (start : s.start < UInt64.size) (len : s.len < UInt64.size) :
    Encodes Span.decoder s.toJson s := by
  have start := Encodes.natBelow start
  have len := Encodes.natBelow len
  refine .struct (by decide) rfl ⟨start.whole, len.whole⟩ ?_
  exact .bind (.required rfl start) <| .bind (.required rfl len) <| .pure

/-- A place is read back, with or without a file. -/
theorem Location.encodes {loc : Location} (sized : loc.Representable) :
    Encodes Location.decoder loc.toJson loc := by
  obtain ⟨file, start, len⟩ := sized
  have file : Encodes (.optional FileId.decoder) (.ofOption FileId.toJson loc.file) loc.file :=
    .slot? (fun _ => rfl) file
  have span := Span.encodes start len
  refine .struct (by decide) rfl ⟨file.whole, span.whole⟩ ?_
  exact .bind (.withDefault rfl file) <| .bind (.withDefault rfl span) <| .pure

-- ============================================================ types

/-- A type has a slot of 32 bits. -/
def QualifiedType.Representable (t : QualifiedType) : Prop := t.id.index < UInt32.size

instance : DecidablePred QualifiedType.Representable := fun _ => inferInstanceAs (Decidable (_ < _))

/-- A type is read back with its `const`. -/
theorem QualifiedType.encodes {t : QualifiedType} (sized : t.Representable) :
    Encodes QualifiedType.decoder t.toJson t := by
  have id : Encodes TypeId.decoder t.id.toJson t.id := .slot sized
  have isConst := Encodes.bool t.isConst
  refine .struct (by decide) rfl ⟨id.whole, isConst.whole⟩ ?_
  exact .bind (.required rfl id) <| .bind (.withDefault rfl isConst) <| .pure

/-- Builtin types have names of their own. -/
theorem Builtin.encodes (b : Builtin) : Encodes Builtin.decoder b.toJson b :=
  .oneOf (by cases b <;> rfl)

namespace TypeShape

/-- The slots, the size of an array and the place of a template parameter fit their words. -/
def Representable : TypeShape → Prop
  | builtin _ | enum _ | dependent _ => True
  | pointer t | lvalueReference t | rvalueReference t | synonym _ t => t.Representable
  | array element size => element.Representable ∧ ∀ n ∈ size, n < UInt64.size
  | record id => id.index < UInt32.size
  | templateParam _ depth index => depth < UInt32.size ∧ index < UInt32.size
  | function ret params => ret.Representable ∧ ∀ t ∈ params, t.Representable

instance : DecidablePred Representable
  | builtin _ | enum _ | dependent _ => inferInstanceAs (Decidable True)
  | pointer t | lvalueReference t | rvalueReference t | synonym _ t =>
    inferInstanceAs (Decidable t.Representable)
  | array .. | templateParam .. | function .. => inferInstanceAs (Decidable (_ ∧ _))
  | record _ => inferInstanceAs (Decidable (_ < _))

/-- A layer is read back. -/
theorem encodes {shape : TypeShape} (sized : shape.Representable) :
    Encodes decoder shape.toJson shape := by
  cases shape with
  | builtin kind => exact .tagged (fun _ => rfl) (.map _ kind.encodes)
  | enum name => exact .tagged (fun _ => rfl) (.map _ (.text name))
  | pointer t => exact .tagged (fun _ => rfl) (.map _ (QualifiedType.encodes sized))
  | lvalueReference t => exact .tagged (fun _ => rfl) (.map _ (QualifiedType.encodes sized))
  | rvalueReference t => exact .tagged (fun _ => rfl) (.map _ (QualifiedType.encodes sized))
  | array element size =>
    have element := QualifiedType.encodes sized.1
    have size : Encodes (.optional .nat64) (.ofOption .ofNat size) size :=
      .optional (fun n isSize => .natBelow (sized.2 n isSize)) (fun _ => nofun)
    refine .tagged (fun _ => rfl) (.struct (by decide) rfl ⟨element.whole, size.whole⟩ ?_)
    exact .bind (.required rfl element) <| .bind (.nullable rfl size) <| .pure
  | record id => exact .tagged (fun _ => rfl) (.map _ (.slot sized))
  | templateParam name depth index =>
    have name := Encodes.text name
    have depth := Encodes.natBelow sized.1
    have index := Encodes.natBelow sized.2
    refine .tagged (fun _ => rfl)
      (.struct (by decide) rfl ⟨name.whole, depth.whole, index.whole⟩ ?_)
    exact .bind (.required rfl name) <| .bind (.required rfl depth) <|
      .bind (.required rfl index) <| .pure
  | synonym name target =>
    have name := Encodes.text name
    have target := QualifiedType.encodes sized
    refine .tagged (fun _ => rfl) (.struct (by decide) rfl ⟨name.whole, target.whole⟩ ?_)
    exact .bind (.required rfl name) <| .bind (.required rfl target) <| .pure
  | function ret params =>
    have ret := QualifiedType.encodes sized.1
    have params : Encodes (.list QualifiedType.decoder) (.ofList QualifiedType.toJson params)
        params :=
      .list fun t mem => QualifiedType.encodes (sized.2 t mem)
    refine .tagged (fun _ => rfl) (.struct (by decide) rfl ⟨ret.whole, params.whole⟩ ?_)
    exact .bind (.required rfl ret) <| .bind (.required rfl params) <| .pure
  | dependent spelling => exact .tagged (fun _ => rfl) (.map _ (.text spelling))

end TypeShape

/-- A table is read back slot by slot. Nothing is interned, so equal layers stay apart. -/
theorem TypeTable.encodes {t : TypeTable} (sized : ∀ shape ∈ t.shapes, shape.Representable) :
    Encodes TypeTable.decoder t.toJson t := by
  have shapes : Encodes (.list TypeShape.decoder) t.toJson t.shapes.toList :=
    .list fun shape mem => TypeShape.encodes (sized shape (Array.mem_toList_iff.mp mem))
  exact .map _ shapes

end SafeDialect
