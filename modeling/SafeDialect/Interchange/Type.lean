/-
The JSON form of locations and types.

Each type of data has an encoder `toJson` and a `decoder` that reads back what the encoder writes.
Encoders write every field; decoders fill in the fields that may be left out.
-/
import SafeDialect.Program.TypeTable
import SafeDialect.Text.Json.Decoder

namespace SafeDialect

/-- Reads the name of one of several values. -/
def Decoder.oneOf {α : Type} (all : List α) (name : α → String) : Decoder α :=
  enumeration fun text => all.find? (name · == text)

-- ============================================================ places

namespace Span

/-- A span of bytes. -/
def toJson (s : Span) : Json := .record [("start", .ofNat s.start), ("len", .ofNat s.len)]

/-- Reads a span, whose numbers have 64 bits. -/
def decoder : Decoder Span :=
  .struct ["start", "len"] fun fs => do
    return ⟨← fs.required "start" .nat64, ← fs.required "len" .nat64⟩

end Span

namespace FileId

/-- A file is referred to by its slot. -/
def toJson (id : FileId) : Json := .ofNat id.index

/-- Reads a slot of 32 bits. -/
def decoder : Decoder FileId := .map .mk .nat32

end FileId

namespace SourceFile

/-- A file with its path. -/
def toJson (f : SourceFile) : Json :=
  .record [("path", .ofString f.path), ("is_system", .bool f.isSystem)]

/-- Reads a file, which is one of user code unless it says otherwise. -/
def decoder : Decoder SourceFile :=
  .struct ["path", "is_system"] fun fs => do
    return ⟨← fs.required "path" .text, ← fs.withDefault "is_system" .bool false⟩

end SourceFile

namespace Location

/-- A place, with `null` for a file that there is not. -/
def toJson (loc : Location) : Json :=
  .record [("file", .ofOption FileId.toJson loc.file), ("span", loc.span.toJson)]

/-- Reads a place. Without a file it is nowhere, and without a span at the start. -/
def decoder : Decoder Location :=
  .struct ["file", "span"] fun fs => do
    return ⟨← fs.withDefault "file" (.optional FileId.decoder) none,
      ← fs.withDefault "span" Span.decoder ⟨0, 0⟩⟩

end Location

-- ============================================================ types

namespace TypeId

/-- A type is referred to by its slot. -/
def toJson (id : TypeId) : Json := .ofNat id.index

/-- Reads a slot of 32 bits. -/
def decoder : Decoder TypeId := .map .mk .nat32

end TypeId

namespace RecordId

/-- A record is referred to by its slot. -/
def toJson (id : RecordId) : Json := .ofNat id.index

/-- Reads a slot of 32 bits. -/
def decoder : Decoder RecordId := .map .mk .nat32

end RecordId

namespace QualifiedType

/-- A type with its `const`. -/
def toJson (t : QualifiedType) : Json :=
  .record [("ty", t.id.toJson), ("is_const", .bool t.isConst)]

/-- Reads a type. -/
def decoder : Decoder QualifiedType :=
  .struct ["ty", "is_const"] fun fs => do
    return ⟨← fs.required "ty" TypeId.decoder, ← fs.withDefault "is_const" .bool false⟩

end QualifiedType

namespace Builtin

/-- The builtin types. -/
def all : List Builtin :=
  [void, bool, char, wchar, char16, char32, short, int, long, longLong, uchar, ushort, uint, ulong,
    ulongLong, float, double, longDouble, nullPtr]

/-- The name of a built-in type in its JSON form. -/
def tag : Builtin → String
  | void => "Void"
  | bool => "Bool"
  | char => "Char"
  | wchar => "WChar"
  | char16 => "Char16"
  | char32 => "Char32"
  | short => "Short"
  | int => "Int"
  | long => "Long"
  | longLong => "LongLong"
  | uchar => "UChar"
  | ushort => "UShort"
  | uint => "UInt"
  | ulong => "ULong"
  | ulongLong => "ULongLong"
  | float => "Float"
  | double => "Double"
  | longDouble => "LongDouble"
  | nullPtr => "NullPtr"

def toJson (b : Builtin) : Json := .ofString b.tag

/-- Reads a builtin type by its name. -/
def decoder : Decoder Builtin := .oneOf all tag

end Builtin

/-- A variant with its content. -/
def Json.tagged (tag : String) (content : Json) : Json := .record [(tag, content)]

namespace TypeShape

/-- A layer, tagged with its kind. -/
def toJson : TypeShape → Json
  | builtin kind => .tagged "Builtin" kind.toJson
  | enum name => .tagged "Enum" (.ofString name)
  | pointer t => .tagged "Pointer" t.toJson
  | lvalueReference t => .tagged "LValueReference" t.toJson
  | rvalueReference t => .tagged "RValueReference" t.toJson
  | array element size =>
    .tagged "Array" (.record [("element", element.toJson), ("size", .ofOption .ofNat size)])
  | record id => .tagged "Record" id.toJson
  | templateParam name depth index =>
    .tagged "TemplateParam" (.record
      [("name", .ofString name), ("depth", .ofNat depth), ("index", .ofNat index)])
  | synonym name target =>
    .tagged "Typedef" (.record [("name", .ofString name), ("target", target.toJson)])
  | function ret params =>
    .tagged "Function" (.record
      [("ret", ret.toJson), ("params", .ofList QualifiedType.toJson params)])
  | dependent spelling => .tagged "Dependent" (.ofString spelling)

/-- Reads an array, whose size may be missing. -/
def arrayDecoder : Decoder TypeShape :=
  .struct ["element", "size"] fun fs => do
    return .array (← fs.required "element" QualifiedType.decoder) (← fs.nullable "size" .nat64)

/-- Reads a parameter of a template. -/
def templateParamDecoder : Decoder TypeShape :=
  .struct ["name", "depth", "index"] fun fs => do
    return .templateParam (← fs.required "name" .text) (← fs.required "depth" .nat32)
      (← fs.required "index" .nat32)

/-- Reads a synonym. -/
def synonymDecoder : Decoder TypeShape :=
  .struct ["name", "target"] fun fs => do
    return .synonym (← fs.required "name" .text) (← fs.required "target" QualifiedType.decoder)

/-- Reads the type of a function. -/
def functionDecoder : Decoder TypeShape :=
  .struct ["ret", "params"] fun fs => do
    return .function (← fs.required "ret" QualifiedType.decoder)
      (← fs.required "params" (.list QualifiedType.decoder))

/-- Reads a layer. -/
def decoder : Decoder TypeShape :=
  .variant fun name content =>
    match name with
    | "Builtin" => content.holding (.map builtin Builtin.decoder)
    | "Enum" => content.holding (.map enum .text)
    | "Pointer" => content.holding (.map pointer QualifiedType.decoder)
    | "LValueReference" => content.holding (.map lvalueReference QualifiedType.decoder)
    | "RValueReference" => content.holding (.map rvalueReference QualifiedType.decoder)
    | "Array" => content.holding arrayDecoder
    | "Record" => content.holding (.map record RecordId.decoder)
    | "TemplateParam" => content.holding templateParamDecoder
    | "Typedef" => content.holding synonymDecoder
    | "Function" => content.holding functionDecoder
    | "Dependent" => content.holding (.map dependent .text)
    | _ => none

end TypeShape

namespace TypeTable

/-- The layers of all slots, in order. -/
def toJson (t : TypeTable) : Json := .ofList TypeShape.toJson t.shapes.toList

/-- Reads the layers of a table. -/
def decoder : Decoder TypeTable :=
  .map (fun shapes => ⟨shapes.toArray⟩) (.list TypeShape.decoder)

end TypeTable

end SafeDialect
