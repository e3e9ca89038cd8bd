/-
The library names with a meaning of their own.

Each family of library types and functions is a closed list of qualified names, matched exactly: no
user type takes over a meaning by resembling a name. The library exists in two generations with
different names; a vocabulary holds the lists of one of them.
-/

namespace SafeDialect

/-- The two generations of library names. -/
inductive NamingScheme where
  | safememory
  | nodecpp
  deriving DecidableEq

namespace NamingScheme

/-- Both schemes. -/
def all : List NamingScheme := [safememory, nodecpp]

/-- The name of a scheme in options. -/
def name : NamingScheme → String
  | safememory => "safememory"
  | nodecpp => "nodecpp"

end NamingScheme

/-- The names of one generation, by family. -/
structure Vocabulary where
  scheme : NamingScheme
  owningPtr : List String
  softPtr : List String
  nullablePtr : List String
  softPtrCast : List String
  stackOnlyIterator : List String
  vector : List String
  hashmap : List String
  basicString : List String
  /-- Functions that are safe to call whatever the library database says. -/
  builtinSafeFunctions : List String
  /-- The name of the nullable pointer in messages. -/
  nullableLabel : String
  /-- Whether hash maps are checked by rules of their own. -/
  hashmapRules : Bool
  deriving DecidableEq

namespace Vocabulary

/-- The names of the newer generation, with containers of its own. -/
def safememory : Vocabulary where
  scheme := .safememory
  owningPtr := ["safememory::owning_ptr", "safememory::detail::owning_ptr_impl",
    "safememory::detail::owning_ptr_base_impl"]
  softPtr := ["safememory::soft_ptr", "safememory::detail::soft_ptr_impl",
    "safememory::detail::soft_ptr_base_impl", "safememory::soft_this_ptr",
    "safememory::detail::soft_this_ptr_impl", "safememory::detail::soft_this_ptr_base_impl",
    "safememory::soft_this_ptr2", "safememory::detail::soft_this_ptr2_impl"]
  nullablePtr := ["safememory::nullable_ptr", "safememory::detail::nullable_ptr_impl",
    "safememory::detail::nullable_ptr_base_impl"]
  softPtrCast := ["safememory::soft_ptr_static_cast", "safememory::soft_ptr_reinterpret_cast",
    "safememory::nullable_cast"]
  stackOnlyIterator := ["eastl::node_iterator",
    "safememory::detail::hashtable_stack_only_iterator",
    "safememory::detail::array_stack_only_iterator"]
  vector := ["safememory::vector", "safememory::vector_safe"]
  hashmap := ["safememory::unordered_map", "safememory::unordered_map_safe",
    "safememory::unordered_multimap", "safememory::unordered_multimap_safe"]
  basicString := ["safememory::basic_string", "safememory::basic_string_safe"]
  builtinSafeFunctions := ["__builtin_coro_frame"]
  nullableLabel := "nullable_ptr"
  hashmapRules := true

/-- The names of the older generation, which has no containers. -/
def nodecpp : Vocabulary where
  scheme := .nodecpp
  owningPtr := ["nodecpp::safememory::owning_ptr", "nodecpp::safememory::owning_ptr_impl",
    "nodecpp::safememory::owning_ptr_no_checks"]
  softPtr := ["nodecpp::safememory::soft_ptr", "nodecpp::safememory::soft_ptr_impl",
    "nodecpp::safememory::soft_ptr_no_checks", "nodecpp::safememory::soft_this_ptr",
    "nodecpp::safememory::soft_this_ptr_impl", "nodecpp::safememory::soft_this_ptr_no_checks"]
  nullablePtr := ["nodecpp::safememory::naked_ptr", "nodecpp::safememory::naked_ptr_impl",
    "nodecpp::safememory::naked_ptr_no_checks", "nodecpp::safememory::const_naked_ptr"]
  softPtrCast := ["nodecpp::safememory::soft_ptr_static_cast",
    "nodecpp::safememory::soft_ptr_reinterpret_cast"]
  stackOnlyIterator := []
  vector := []
  hashmap := []
  basicString := []
  builtinSafeFunctions := ["__builtin_coro_frame", "nodecpp::safememory::make_owning",
    "nodecpp::wait_for_all"]
  nullableLabel := "naked_ptr"
  hashmapRules := false

/-- The vocabulary of a scheme. -/
def ofScheme : NamingScheme → Vocabulary
  | .safememory => safememory
  | .nodecpp => nodecpp

-- ============================================================ families shared by both generations

/-- Results that can be waited for. -/
def awaitable : List String := ["nodecpp::awaitable"]

/-- Waiting for several results at once. -/
def waitForAll : List String := ["nodecpp::wait_for_all"]

/-- What the parts of a distributed program derive from. -/
def nodeBase : List String := ["NodeBase", "nodecpp::NodeBase", "nodecpp::net::NodeBase"]

/-- Functions that only pass on what they are given. -/
def moveOrForward : List String :=
  ["std::move", "std::__1::move", "std::forward", "std::__1::forward"]

/-- Text that is fixed in the program. -/
def stringLiteral : List String := ["nodecpp::string_literal", "safememory::basic_string_literal"]

/-- Functions as values. -/
def stdFunction : List String := ["std::function", "std::__1::function"]

/-- Methods of smart pointers that are safe to call. -/
def safePtrMethods : List String :=
  ["operator*", "operator->", "operator=", "operator bool", "get"]

-- ============================================================ membership

/-- Pointers that own what they point to. -/
def isOwningPtr (v : Vocabulary) (name : String) : Bool := v.owningPtr.contains name

/-- Owning and soft pointers. -/
def isSafePtr (v : Vocabulary) (name : String) : Bool :=
  v.isOwningPtr name || v.softPtr.contains name

/-- Pointers that may be null and own nothing. -/
def isNullablePtr (v : Vocabulary) (name : String) : Bool := v.nullablePtr.contains name

/-- Names that keep their rules even if a database or a namespace vouches for them. -/
def isPrivileged (v : Vocabulary) (name : String) : Bool :=
  v.isSafePtr name || v.isNullablePtr name || awaitable.contains name

/-- The families that a name can belong to, in the order in which they are listed. -/
def families (v : Vocabulary) (name : String) : List (String × Bool) :=
  [("owning_ptr", v.isOwningPtr name),
    ("safe_ptr", v.isSafePtr name),
    ("nullable_ptr", v.isNullablePtr name),
    ("awaitable", awaitable.contains name),
    ("soft_ptr_cast", v.softPtrCast.contains name),
    ("wait_for_all", waitForAll.contains name),
    ("node_base", nodeBase.contains name),
    ("std_move_or_forward", moveOrForward.contains name),
    ("stack_only_iterator", v.stackOnlyIterator.contains name),
    ("vector", v.vector.contains name),
    ("hashmap", v.hashmap.contains name),
    ("string_literal", stringLiteral.contains name),
    ("basic_string", v.basicString.contains name),
    ("std_function", stdFunction.contains name),
    ("builtin_safe_function", v.builtinSafeFunctions.contains name),
    ("safe_ptr_method", safePtrMethods.contains name),
    ("privileged", v.isPrivileged name)]

/-- The families that a name belongs to. -/
def familiesOf (v : Vocabulary) (name : String) : List String :=
  (v.families name).filterMap fun (family, isMember) => if isMember then some family else none

end Vocabulary

end SafeDialect
