/-
Attributes of declarations, and sets of them.

A set answers for each attribute whether it is present. Two sets with the same members are
therefore equal, and listing a set goes through the attributes in one fixed order.
-/

namespace SafeDialect

/-- The source-level attributes that the rules know. -/
inductive Attribute where
  | nakedStruct
  | deepConst
  /-- Deep const if all template arguments are. -/
  | deepConstWhenParams
  | memoryUnsafe
  | checkAsUserCode
  | nonDeterministic
  | noSideEffect
  | noSideEffectWhenConst
  | mayExtendToThis
  | awaitable
  deriving DecidableEq

namespace Attribute

/-- Every attribute, in the order in which sets are listed. -/
def all : List Attribute :=
  [nakedStruct, deepConst, deepConstWhenParams, memoryUnsafe, checkAsUserCode, nonDeterministic,
    noSideEffect, noSideEffectWhenConst, mayExtendToThis, awaitable]

/-- The attribute as it is written. -/
def name : Attribute → String
  | nakedStruct => "naked_struct"
  | deepConst => "deep_const"
  | deepConstWhenParams => "deep_const_when_params"
  | memoryUnsafe => "memory_unsafe"
  | checkAsUserCode => "check_as_user_code"
  | nonDeterministic => "non_deterministic"
  | noSideEffect => "no_side_effect"
  | noSideEffectWhenConst => "no_side_effect_when_const"
  | mayExtendToThis => "may_extend_to_this"
  | awaitable => "awaitable"

/-- The attribute with a written name. -/
def ofName? (text : String) : Option Attribute := all.find? (·.name == text)

end Attribute

/-- A set of attributes. -/
structure AttributeSet where
  contains : Attribute → Bool

namespace AttributeSet

def empty : AttributeSet := ⟨fun _ => false⟩

instance : Inhabited AttributeSet := ⟨empty⟩

def insert (s : AttributeSet) (a : Attribute) : AttributeSet :=
  ⟨fun b => if b = a then true else s.contains b⟩

def ofList (attributes : List Attribute) : AttributeSet := attributes.foldl insert empty

/-- The members, each once, in the fixed order. -/
def toList (s : AttributeSet) : List Attribute := Attribute.all.filter s.contains

end AttributeSet

end SafeDialect
