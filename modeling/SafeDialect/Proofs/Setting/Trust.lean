/-
Trusted namespaces.

Trust goes by the text that a name starts with, and that text is made from a path of scopes. Where
no name holds a colon, the text of a path is a start of a qualified name exactly if the path is a
start of the path around the name, so that texts can be forgotten and only paths remain.

What is left is the path that a tag stands for. A tagged namespace with a qualified name stands for
its own path. One without a name, or without a scope around it, has no qualified name. Its tag
stands for the path of an anonymous namespace at the top, wherever the tagged namespace is.
-/
import Mathlib.Data.List.Infix
import Mathlib.Tactic.IntervalCases
import SafeDialect.Proofs.Setting.Lookup

namespace SafeDialect

-- ============================================================ texts of paths

namespace Names

/-- A qualifier, character by character. -/
theorem toList_qualifier_cons (segment : String) (path : List String) :
    (qualifier (segment :: path)).toList =
      segment.toList ++ ':' :: ':' :: (qualifier path).toList := by
  simp [qualifier]

/-- The innermost scope comes last. -/
private theorem qualifier_concat (path : List String) (segment : String) :
    qualifier (path ++ [segment]) = qualifier path ++ segment ++ "::" := by
  induction path with
  | nil => simp [qualifier]
  | cons head tail ih =>
    simp only [qualifier, List.cons_append, List.foldr_cons] at ih ⊢
    rw [ih]
    simp only [String.append_assoc]

/-- Texts with a colon in them are compared up to their first colons and after them. -/
theorem append_colon_prefix_iff {x y rest rest' : List Char} (plainX : ':' ∉ x) (plainY : ':' ∉ y) :
    x ++ ':' :: rest <+: y ++ ':' :: rest' ↔ x = y ∧ rest <+: rest' := by
  induction x generalizing y with
  | nil =>
    cases y with
    | nil => simp [List.cons_prefix_cons]
    | cons b y =>
      have other : ':' ≠ b := fun same => plainY (same ▸ List.mem_cons_self)
      simp [List.cons_prefix_cons, other]
  | cons a x ih =>
    cases y with
    | nil =>
      have other : a ≠ ':' := fun same => plainX (same ▸ List.mem_cons_self)
      simp [List.cons_prefix_cons, other]
    | cons b y =>
      have tails := ih (fun mem => plainX (List.mem_cons_of_mem _ mem))
        fun mem => plainY (List.mem_cons_of_mem _ mem)
      simp [List.cons_prefix_cons, tails, and_assoc]

/-- The text of a path is a start of a name exactly if the path is a start of that around the
name. -/
theorem qualifier_prefix_iff {path around : List String} {name : String}
    (plainPath : ∀ segment ∈ path, ':' ∉ segment.toList)
    (plainAround : ∀ segment ∈ around, ':' ∉ segment.toList) (plainName : ':' ∉ name.toList) :
    (qualifier path).toList <+: (qualifier around ++ name).toList ↔ path <+: around := by
  rw [String.toList_append]
  induction path generalizing around with
  | nil => simp [qualifier]
  | cons segment path ih =>
    rw [toList_qualifier_cons]
    cases around with
    | nil =>
      constructor
      · intro start
        have colon : ':' ∈ name.toList := start.subset (by simp)
        exact absurd colon plainName
      · intro start
        cases List.prefix_nil.mp start
    | cons segment' around =>
      have here := plainPath segment List.mem_cons_self
      have here' := plainAround segment' List.mem_cons_self
      have tails := ih (fun s mem => plainPath s (List.mem_cons_of_mem _ mem))
        fun s mem => plainAround s (List.mem_cons_of_mem _ mem)
      rw [toList_qualifier_cons, List.append_assoc, List.cons_append,
        append_colon_prefix_iff here here', List.cons_append, List.cons_prefix_cons, tails,
        List.cons_prefix_cons, String.toList_inj]
      simp

end Names

-- ============================================================ paths of scopes

namespace TranslationUnit

variable {u : TranslationUnit}

/-- What lies outside is made of names of scopes, and it does not depend on what is put inside, nor
on steps that are not needed. -/
theorem pathFrom_outer {steps : Nat} {inner path : List String} {scope : Option ScopeId}
    (ends : u.pathFrom steps inner scope = .ok path) :
    ∃ outer, path = outer ++ inner ∧
      (∀ segment ∈ outer, ∃ id n, u.scope id = .ok n ∧ segment = n.name.getD "") ∧
      ∀ more inner', steps ≤ more → u.pathFrom more inner' scope = .ok (outer ++ inner') := by
  induction steps generalizing inner scope path with
  | zero =>
    cases scope with
    | none =>
      cases ends
      exact ⟨[], rfl, nofun, fun more inner' _ => by cases more <;> rfl⟩
    | some id => cases ends
  | succ steps ih =>
    cases scope with
    | none =>
      cases ends
      exact ⟨[], rfl, nofun, fun more inner' _ => by cases more <;> rfl⟩
    | some id =>
      unfold pathFrom at ends
      cases found : u.scope id with
      | error fault =>
        rw [found] at ends
        cases ends
      | ok n =>
        rw [found] at ends
        dsimp only at ends
        obtain ⟨outer, rfl, segments, again⟩ := ih ends
        -- a scope without a name of its own adds no segment
        refine ⟨if n.kind.isNamed then outer ++ [n.name.getD ""] else outer, ?_, ?_, ?_⟩
        · split <;> simp
        · intro segment mem
          split at mem
          · rcases List.mem_append.mp mem with mem | here
            · exact segments segment mem
            · exact ⟨id, n, found, List.mem_singleton.mp here⟩
          · exact segments segment mem
        · intro more inner' enough
          obtain ⟨more, rfl⟩ : ∃ k, more = k + 1 := ⟨more - 1, by omega⟩
          unfold pathFrom
          rw [found]
          dsimp only
          rw [again more _ (by omega)]
          split <;> simp

/-- The path of a scope ends, since enclosing scopes have smaller indices. -/
theorem Consistent.path_ends {π : Fault → Prop} (c : u.Consistent) {id : ScopeId}
    (inside : u.Holds .scopes id.index) : Ends π (u.path id) fun _ => True := by
  refine c.pathFrom_ends fun _ same => ?_
  cases same
  exact ⟨inside, Nat.lt_succ_of_lt inside⟩

/-- The path of a named scope is that of the scope around it and its name. -/
theorem path_of_parent {id parent : ScopeId} {n : Scope} {path : List String}
    (found : u.scope id = .ok n) (named : n.kind.isNamed = true) (around : n.parent = some parent)
    (ends : u.path id = .ok path) :
    ∃ outer, u.path parent = .ok outer ∧ path = outer ++ [n.name.getD ""] := by
  have walk : u.pathFrom u.scopes.size [n.name.getD ""] (some parent) = .ok path := by
    rw [← ends, TranslationUnit.path, pathFrom, found]
    dsimp only
    rw [if_pos named, around]
  obtain ⟨outer, rfl, -, again⟩ := pathFrom_outer walk
  refine ⟨outer, ?_, rfl⟩
  have same := again (u.scopes.size + 1) [] (Nat.le_succ _)
  rwa [List.append_nil] at same

-- ============================================================ names without colons

/-- No scope and no record has a colon in its name. -/
structure HasPlainNames (u : TranslationUnit) : Prop where
  scopes : ∀ n ∈ u.scopes.toList, ':' ∉ (n.name.getD "").toList
  records : ∀ r ∈ u.records.toList, ':' ∉ r.name.toList

/-- Where names are plain the segments of a path are. -/
theorem HasPlainNames.of_path (plain : u.HasPlainNames) {id : ScopeId} {path : List String}
    (ends : u.path id = .ok path) : ∀ segment ∈ path, ':' ∉ segment.toList := by
  obtain ⟨outer, rfl, segments, -⟩ := pathFrom_outer ends
  rw [List.append_nil]
  intro segment mem
  obtain ⟨id', n, found, rfl⟩ := segments segment mem
  exact plain.scopes n (Array.mem_toList_iff.mpr (Array.mem_of_getElem? (eq_of_entry found)))

theorem HasPlainNames.of_record (plain : u.HasPlainNames) {id : RecordId} {r : RecordDecl}
    (found : u.record id = .ok r) : ':' ∉ r.name.toList :=
  plain.records r (Array.mem_toList_iff.mpr (Array.mem_of_getElem? (eq_of_entry found)))

-- ============================================================ what a tag stands for

/-- A namespace tagged as memory unsafe. -/
structure Tags (u : TranslationUnit) (id : ScopeId) (n : Scope) : Prop where
  found : u.scope id = .ok n
  kind : n.kind = .nameSpace
  tagged : n.attributes.contains .memoryUnsafe = true

end TranslationUnit

/-- Whether a scope has a name and a scope around it, which make its qualified name. -/
def Scope.isQualified (n : Scope) : Bool := n.parent.isSome && n.name.getD "" != ""

namespace TranslationUnit

variable {u : TranslationUnit}

/-- The tagged names are those of the scopes that carry the tag. -/
private theorem mem_taggedNamespaces {names : List String} (all : u.taggedNamespaces = .ok names)
    {name : String} : name ∈ names ↔ ∃ id n, u.Tags id n ∧ u.scopeName id = .ok name := by
  rw [mem_of_mapM all]
  constructor
  · rintro ⟨id, mem, named⟩
    have tagged := (List.mem_filter.mp mem).2
    split at tagged
    · next n found =>
      simp only [Bool.and_eq_true, beq_iff_eq] at tagged
      refine ⟨id, n, ⟨?_, tagged.1, tagged.2⟩, named⟩
      rw [scope, entry, found]
    · cases tagged
  · rintro ⟨id, n, tags, named⟩
    have found := eq_of_entry tags.found
    refine ⟨id, List.mem_filter.mpr ⟨?_, ?_⟩, named⟩
    · exact List.mem_map.mpr ⟨id.index, List.mem_range.mpr (holds_of_entry tags.found), rfl⟩
    · rw [found]
      simp [tags.kind, tags.tagged]

/-- The path that a tag on a namespace stands for: its own if it has a qualified name, and that of
an anonymous namespace at the top otherwise. -/
def StandsFor (u : TranslationUnit) (id : ScopeId) (n : Scope) (path : List String) : Prop :=
  if n.isQualified then u.path id = .ok path else path = [""]

private theorem Tags.exists_standsFor (c : u.Consistent) {id : ScopeId} {n : Scope}
    (tags : u.Tags id n) : ∃ path, u.StandsFor id n path := by
  unfold StandsFor
  split
  · obtain ⟨path, ends, -⟩ := (c.path_ends (π := fun _ => False) (holds_of_entry tags.found)).answer
    exact ⟨path, ends⟩
  · exact ⟨[""], rfl⟩

/-- The names in a tagged namespace have to start with the text of the path that the tag stands
for. -/
theorem Tags.qualifier_eq {id : ScopeId} {n : Scope} {name : String} {path : List String}
    (tags : u.Tags id n) (named : u.scopeName id = .ok name) (stands : u.StandsFor id n path) :
    name ++ "::" = Names.qualifier path := by
  rw [scopeName, tags.found, ok_bind] at named
  unfold StandsFor Scope.isQualified at stands
  cases around : n.parent with
  | none =>
    rw [around] at named stands
    cases named
    cases stands
    rfl
  | some parent =>
    cases own : n.name with
    | none =>
      rw [around, own] at named stands
      cases named
      cases stands
      rfl
    | some text =>
      rw [around, own] at named stands
      dsimp only [qualifiedName] at named
      by_cases empty : text = ""
      · subst empty
        cases named
        cases stands
        rfl
      · have isNamed : n.kind.isNamed = true := by rw [tags.kind]; rfl
        have ends : u.path id = .ok path := by simpa [empty] using stands
        obtain ⟨outer, ofParent, rfl⟩ := path_of_parent tags.found isNamed around ends
        rw [if_neg (by simpa using empty), qualifier, ofParent] at named
        cases named
        rw [own, Names.qualifier_concat]
        rfl

/-- A path lies in a tagged namespace, one of those with a property. -/
def InTagged (u : TranslationUnit) (among : Scope → Bool) (path : List String) : Prop :=
  ∃ id n own, u.Tags id n ∧ among n = true ∧ u.path id = .ok own ∧ own <+: path

/-- Some namespace without a qualified name is tagged. -/
def HasUnqualifiedTag (u : TranslationUnit) : Prop := ∃ id n, u.Tags id n ∧ n.isQualified = false

/-- A tag is either among some or among the others. -/
private theorem inTagged_any_iff (among : Scope → Bool) {path : List String} :
    u.InTagged (fun _ => true) path ↔ u.InTagged among path ∨ u.InTagged (!among ·) path := by
  constructor
  · rintro ⟨id, n, own, tags, -, ends, isStart⟩
    cases which : among n with
    | true => exact .inl ⟨id, n, own, tags, which, ends, isStart⟩
    | false => exact .inr ⟨id, n, own, tags, by simp [which], ends, isStart⟩
  · rintro (⟨id, n, own, tags, -, rest⟩ | ⟨id, n, own, tags, -, rest⟩)
    · exact ⟨id, n, own, tags, rfl, rest⟩
    · exact ⟨id, n, own, tags, rfl, rest⟩

/-- The paths that some tag stands for, split by whether the tagged namespace has a qualified
name. -/
theorem exists_standsFor_iff {path : List String} :
    (∃ id n own, u.Tags id n ∧ u.StandsFor id n own ∧ own <+: path) ↔
      u.InTagged (·.isQualified) path ∨ (u.HasUnqualifiedTag ∧ [""] <+: path) := by
  unfold StandsFor
  constructor
  · rintro ⟨id, n, own, tags, stands, isStart⟩
    split at stands
    · next qualified => exact .inl ⟨id, n, own, tags, qualified, stands, isStart⟩
    · next unqualified =>
      subst stands
      exact .inr ⟨⟨id, n, tags, by simpa using unqualified⟩, isStart⟩
  · rintro (⟨id, n, own, tags, qualified, ends, isStart⟩ | ⟨⟨id, n, tags, unqualified⟩, isStart⟩)
    · exact ⟨id, n, own, tags, by rwa [if_pos qualified], isStart⟩
    · exact ⟨id, n, [""], tags, by simp [unqualified], isStart⟩

end TranslationUnit

-- ============================================================ trusted names

namespace Setting

variable {u : TranslationUnit} {config : Config} {s : Setting}

private theorem mem_foldl_insert {l init : List String} {a : String} :
    a ∈ l.foldl (fun acc start => acc.insert start) init ↔ a ∈ init ∨ a ∈ l := by
  induction l generalizing init with
  | nil => simp
  | cons head tail ih =>
    rw [List.foldl_cons, ih, List.mem_insert_iff, List.mem_cons, or_assoc, or_left_comm]

/-- Trust starts with the names of tagged namespaces and with those in the options. -/
theorem mem_trusted_iff (made : Setting.of u config = .ok s) {start : String} :
    start ∈ s.trusted ↔
      (∃ id n name, u.Tags id n ∧ u.scopeName id = .ok name ∧ start = name ++ "::") ∨
      ∃ name ∈ config.options.unsafeNamespaces, start = name ++ "::" := by
  obtain ⟨names, tagged, same⟩ := bind_eq_ok.mp made
  cases same
  rw [mem_foldl_insert, List.mem_map]
  simp only [List.not_mem_nil, false_or, List.mem_append, or_and_right, exists_or,
    TranslationUnit.mem_taggedNamespaces tagged, eq_comm (b := start)]
  constructor
  · rintro (⟨name, ⟨id, n, tags, named⟩, rfl⟩ | configured)
    · exact .inl ⟨id, n, name, tags, named, rfl⟩
    · exact .inr configured
  · rintro (⟨id, n, name, tags, named, rfl⟩ | configured)
    · exact .inl ⟨name, ⟨id, n, tags, named⟩, rfl⟩
    · exact .inr configured

/-- A name is trusted if it begins as one of these does. -/
theorem isTrustedName_iff {name : String} :
    s.isTrustedName name = true ↔ ∃ start ∈ s.trusted, start.toList <+: name.toList := by
  simp [isTrustedName]

/-- With no namespace configured a name is trusted because of a tag, if the path that the tag stands
for is a start of the path around the name. -/
theorem isTrustedName_iff_standsFor (c : u.Consistent) (plain : u.HasPlainNames)
    (unconfigured : config.options.unsafeNamespaces = []) (made : Setting.of u config = .ok s)
    {scope : ScopeId} {path : List String} {name : String} (around : u.path scope = .ok path)
    (plainName : ':' ∉ name.toList) :
    s.isTrustedName (Names.qualifier path ++ name) = true ↔
      ∃ id n own, u.Tags id n ∧ u.StandsFor id n own ∧ own <+: path := by
  have compare {id : ScopeId} {n : Scope} {own : List String} (stands : u.StandsFor id n own) :
      (Names.qualifier own).toList <+: (Names.qualifier path ++ name).toList ↔ own <+: path := by
    refine Names.qualifier_prefix_iff ?_ (plain.of_path around) plainName
    unfold TranslationUnit.StandsFor at stands
    split at stands
    · exact plain.of_path stands
    · subst stands
      simp
  rw [isTrustedName_iff]
  constructor
  · rintro ⟨start, mem, isStart⟩
    rcases (mem_trusted_iff made).mp mem with ⟨id, n, text, tags, named, rfl⟩ | ⟨_, mem, -⟩
    · obtain ⟨own, stands⟩ := tags.exists_standsFor c
      rw [tags.qualifier_eq named stands] at isStart
      exact ⟨id, n, own, tags, stands, (compare stands).mp isStart⟩
    · rw [unconfigured] at mem
      cases mem
  · rintro ⟨id, n, own, tags, stands, isStart⟩
    obtain ⟨text, named, -⟩ :=
      (c.scopeName_ends (π := fun _ => False) (TranslationUnit.holds_of_entry tags.found)).answer
    refine ⟨text ++ "::", (mem_trusted_iff made).mpr (.inl ⟨id, n, text, tags, named, rfl⟩), ?_⟩
    rw [tags.qualifier_eq named stands]
    exact (compare stands).mpr isStart

end Setting

namespace TranslationUnit

variable {u : TranslationUnit}

/-- A record is trusted if it lies in a tagged namespace that has a qualified name, or if some
tagged namespace has none and the outermost scope around the record has no name. That is the same as
lying in a tagged namespace exactly if the record lies in one that has a qualified name, or if the
second case holds just when the record lies in a tagged namespace without one. -/
theorem trusted_iff_in_tagged (consistent : u.inconsistency? = none) (plain : u.HasPlainNames)
    (config : Config) (unconfigured : config.options.unsafeNamespaces = []) (id : RecordId)
    {r : RecordDecl} (found : u.record id = .ok r) (named : r.name ≠ "") :
    ∃ s name path, Setting.of u config = .ok s ∧ u.recordName id = .ok name
      ∧ u.path r.scope = .ok path
      ∧ (s.isTrustedName name = true ↔
        u.InTagged (·.isQualified) path ∨ (u.HasUnqualifiedTag ∧ [""] <+: path))
      ∧ ((s.isTrustedName name = true ↔ u.InTagged (fun _ => true) path) ↔
        u.InTagged (·.isQualified) path ∨
          (u.HasUnqualifiedTag ∧ [""] <+: path ↔ u.InTagged (!·.isQualified) path)) := by
  have c := inconsistency?_eq_none_iff.mp consistent
  obtain ⟨s, made, -⟩ := (Setting.of_ends (π := fun _ => False) c config).answer
  obtain ⟨path, around, -⟩ :=
    (c.path_ends (π := fun _ => False) (c.fits_of_record found).scope).answer
  have name : u.recordName id = .ok (Names.qualifier path ++ r.name) := by
    rw [recordName, found, ok_bind, qualifiedName, if_neg (by simpa using named), qualifier, around]
    rfl
  have trusted := Setting.isTrustedName_iff_standsFor c plain unconfigured made around
    (plain.of_record found)
  rw [exists_standsFor_iff] at trusted
  refine ⟨s, _, path, made, name, around, trusted, ?_⟩
  rw [trusted, inTagged_any_iff (·.isQualified)]
  by_cases inside : u.InTagged (·.isQualified) path
  · simp [inside]
  · simp [inside]

/-- A unit with two tags. Namespace `a` holds an anonymous namespace that is tagged, with a record
`Buffer` in it. Another anonymous namespace, at the top, is not tagged and holds a record `Local`.
Namespace `legacy` is tagged and holds a record `Cache` inside an anonymous namespace. -/
def anonymousTags : TranslationUnit where
  files := #[⟨"main.cpp", false⟩]
  types := ⟨#[.builtin .int]⟩
  scopes := #[
    { name := none, kind := .translationUnit, parent := none, attributes := .empty },
    { name := some "a", kind := .nameSpace, parent := some ⟨0⟩, attributes := .empty },
    { name := none, kind := .nameSpace, parent := some ⟨1⟩,
      attributes := .ofList [.memoryUnsafe] },
    { name := none, kind := .nameSpace, parent := some ⟨0⟩, attributes := .empty },
    { name := some "legacy", kind := .nameSpace, parent := some ⟨0⟩,
      attributes := .ofList [.memoryUnsafe] },
    { name := none, kind := .nameSpace, parent := some ⟨4⟩, attributes := .empty }]
  records := #[
    { RecordDecl.declared "Buffer" ⟨2⟩ ⟨some ⟨0⟩, ⟨0, 1⟩⟩ with definition := some .empty },
    { RecordDecl.declared "Local" ⟨3⟩ ⟨some ⟨0⟩, ⟨2, 1⟩⟩ with definition := some .empty },
    { RecordDecl.declared "Cache" ⟨5⟩ ⟨some ⟨0⟩, ⟨4, 1⟩⟩ with definition := some .empty }]
  functions := #[]
  vars := #[]
  statements := #[]

/-- The setting of the tagged namespaces. -/
def anonymousTagsSetting : Setting := ⟨anonymousTags, .default, ["legacy::", "::"]⟩

private theorem anonymousTags_plain : anonymousTags.HasPlainNames := ⟨by decide, by decide⟩

/-- The tag of `legacy` reaches into the anonymous namespace in it, as stated. -/
theorem cache_trusted_iff_in_tagged : anonymousTags.inconsistency? = none
    ∧ anonymousTags.HasPlainNames
    ∧ Setting.of anonymousTags .default = .ok anonymousTagsSetting
    ∧ (anonymousTagsSetting.isTrustedName "legacy::::Cache" = true ↔
      anonymousTags.InTagged (·.isQualified) ["legacy", ""]
        ∨ (anonymousTags.HasUnqualifiedTag ∧ [""] <+: ["legacy", ""]))
    ∧ anonymousTagsSetting.isTrustedName "legacy::::Cache" = true := by
  have consistent : anonymousTags.inconsistency? = none := by decide
  obtain ⟨s, name, path, made, named, around, trusted, -⟩ :=
    trusted_iff_in_tagged consistent anonymousTags_plain .default rfl ⟨2⟩ rfl (by decide)
  obtain rfl : s = anonymousTagsSetting := Except.ok.inj (made.symm.trans rfl)
  obtain rfl : name = "legacy::::Cache" := Except.ok.inj (named.symm.trans rfl)
  obtain rfl : path = ["legacy", ""] := Except.ok.inj (around.symm.trans rfl)
  exact ⟨consistent, anonymousTags_plain, made, trusted, rfl⟩

/-- The tag of the anonymous namespace in `a` does not reach `Buffer`, which lies in it, and reaches
`Local`, which lies in no tagged namespace. -/
theorem nested_anonymous_tag_misplaced : anonymousTags.inconsistency? = none
    ∧ anonymousTags.HasPlainNames
    ∧ Setting.of anonymousTags .default = .ok anonymousTagsSetting
    ∧ anonymousTags.recordName ⟨0⟩ = .ok "a::::Buffer"
    ∧ anonymousTags.path ⟨2⟩ = .ok ["a", ""]
    ∧ anonymousTags.InTagged (fun _ => true) ["a", ""]
    ∧ anonymousTagsSetting.isTrustedName "a::::Buffer" = false
    ∧ anonymousTags.recordName ⟨1⟩ = .ok "::Local"
    ∧ anonymousTags.path ⟨3⟩ = .ok [""]
    ∧ ¬ anonymousTags.InTagged (fun _ => true) [""]
    ∧ anonymousTagsSetting.isTrustedName "::Local" = true := by
  refine ⟨by decide, anonymousTags_plain, rfl, rfl, rfl, ?_, rfl, rfl, rfl, ?_, rfl⟩
  · exact ⟨⟨2⟩, _, ["a", ""], ⟨rfl, rfl, rfl⟩, rfl, rfl, List.prefix_refl _⟩
  · rintro ⟨⟨index⟩, n, own, tags, -, ends, isStart⟩
    have inside : index < 6 := holds_of_entry tags.found
    interval_cases index
    all_goals cases tags.found
    -- the scopes that are no namespaces or not tagged go first
    any_goals cases tags.kind
    any_goals cases tags.tagged
    all_goals
      cases ends
      exact absurd isStart (by decide)

end TranslationUnit

end SafeDialect
