/-
Qualified names tell declarations apart.

A qualified name is one text, and what it was made from can be read off it again: where no segment
holds a colon, cutting the text at its separators gives back the path and the name. That holds for
empty segments in any place, so anonymous namespaces do not blur paths. Cutting a text and joining
the segments again gives the same text, whatever the text is. So a listed name is the name of
exactly those records whose path and name are its segments.
-/
import SafeDialect.Names.Segments
import SafeDialect.Names.Vocabulary
import SafeDialect.Proofs.Setting.Trust

namespace SafeDialect

-- ============================================================ cutting and joining

namespace Names

private theorem segmentsFrom_ne_nil (current text : List Char) :
    segmentsFrom current text ≠ [] := by
  fun_induction segmentsFrom current text with
  | case1 => simp
  | case2 _ _ _ _ ih => exact ih
  | case3 => simp

/-- Without a colon in it a text is one segment. -/
theorem segmentsFrom_plain {text : List Char} (plain : ':' ∉ text) (current : List Char) :
    segmentsFrom current text = [String.ofList (current.reverse ++ text)] := by
  induction text generalizing current with
  | nil => simp [segmentsFrom]
  | cons c text ih =>
    have other : c ≠ ':' := fun same => plain (same ▸ List.mem_cons_self)
    rw [segmentsFrom.eq_2 _ _ _ fun _ same _ => other same,
      ih fun mem => plain (List.mem_cons_of_mem _ mem)]
    simp

/-- A segment without a colon ends at the first separator. -/
theorem segmentsFrom_separator {segment : List Char} (plain : ':' ∉ segment)
    (current rest : List Char) :
    segmentsFrom current (segment ++ ':' :: ':' :: rest) =
      String.ofList (current.reverse ++ segment) :: segmentsFrom [] rest := by
  induction segment generalizing current with
  | nil => simp [segmentsFrom]
  | cons c segment ih =>
    have other : c ≠ ':' := fun same => plain (same ▸ List.mem_cons_self)
    rw [List.cons_append, segmentsFrom.eq_2 _ _ _ fun _ same _ => other same,
      ih fun mem => plain (List.mem_cons_of_mem _ mem)]
    simp

/-- Cutting undoes joining. -/
theorem segments_qualifier {path : List String} {name : String}
    (plainPath : ∀ segment ∈ path, ':' ∉ segment.toList) (plainName : ':' ∉ name.toList) :
    segments (qualifier path ++ name) = path ++ [name] := by
  unfold segments
  rw [String.toList_append]
  induction path with
  | nil => simp [qualifier, segmentsFrom_plain plainName]
  | cons segment path ih =>
    have tail := ih fun s mem => plainPath s (List.mem_cons_of_mem _ mem)
    rw [toList_qualifier_cons, List.append_assoc, List.cons_append, List.cons_append,
      segmentsFrom_separator (plainPath segment List.mem_cons_self), tail]
    simp

/-- Joining undoes cutting. -/
theorem eq_qualifier_of_segmentsFrom {current text : List Char} {path : List String} {name : String}
    (cut : segmentsFrom current text = path ++ [name]) :
    current.reverse ++ text = (qualifier path ++ name).toList := by
  fun_induction segmentsFrom current text generalizing path with
  | case1 current rest ih =>
    -- the segment that ends here is the first one of the path, because one more follows
    cases path with
    | nil =>
      rw [List.nil_append, List.cons.injEq] at cut
      exact absurd cut.2 (segmentsFrom_ne_nil [] rest)
    | cons segment path =>
      rw [List.cons_append, List.cons.injEq] at cut
      rw [String.toList_append, toList_qualifier_cons, ← cut.1]
      simpa using ih cut.2
  | case2 current c rest _ ih => simpa using ih cut
  | case3 current =>
    cases path with
    | nil =>
      rw [List.nil_append, List.cons.injEq] at cut
      rw [← cut.1]
      simp [qualifier]
    | cons segment path => simp at cut

/-- Where no segment holds a colon, the segments of a text are a path and a name exactly if the text
is what they make. -/
theorem segments_eq_iff {path : List String} {name text : String}
    (plainPath : ∀ segment ∈ path, ':' ∉ segment.toList) (plainName : ':' ∉ name.toList) :
    segments text = path ++ [name] ↔ text = qualifier path ++ name := by
  constructor
  · intro cut
    have same := eq_qualifier_of_segmentsFrom cut
    rwa [List.reverse_nil, List.nil_append, String.toList_inj] at same
  · intro made
    rw [made, segments_qualifier plainPath plainName]

end Names

-- ============================================================ paths of named scopes

namespace TranslationUnit

variable {u : TranslationUnit}

/-- The names of the named scopes around what is declared in a scope, outermost first. The unit
itself and linkage blocks are passed over, and a missing name counts as an empty one. -/
inductive NamedPath (u : TranslationUnit) : Option ScopeId → List String → Prop where
  | outside : NamedPath u none []
  | passedOver {id : ScopeId} {n : Scope} {path : List String} (found : u.scope id = .ok n)
      (kind : n.kind = .translationUnit ∨ n.kind = .linkageBlock)
      (around : NamedPath u n.parent path) : NamedPath u (some id) path
  | named {id : ScopeId} {n : Scope} {path : List String} (found : u.scope id = .ok n)
      (unit : n.kind ≠ .translationUnit) (linkage : n.kind ≠ .linkageBlock)
      (around : NamedPath u n.parent path) : NamedPath u (some id) (path ++ [n.name.getD ""])

private theorem isNamed_eq_false_iff {kind : ScopeKind} :
    kind.isNamed = false ↔ kind = .translationUnit ∨ kind = .linkageBlock := by
  cases kind <;> simp [ScopeKind.isNamed]

/-- The walk outwards collects the path, in front of what it starts with. -/
theorem NamedPath.of_pathFrom {steps : Nat} {inner path : List String} {scope : Option ScopeId}
    (ends : u.pathFrom steps inner scope = .ok path) :
    ∃ outer, path = outer ++ inner ∧ u.NamedPath scope outer := by
  induction steps generalizing inner scope with
  | zero =>
    cases scope with
    | none =>
      cases ends
      exact ⟨[], rfl, .outside⟩
    | some id => cases ends
  | succ steps ih =>
    cases scope with
    | none =>
      cases ends
      exact ⟨[], rfl, .outside⟩
    | some id =>
      unfold pathFrom at ends
      cases found : u.scope id with
      | error fault =>
        rw [found] at ends
        cases ends
      | ok n =>
        rw [found] at ends
        dsimp only at ends
        obtain ⟨outer, rfl, around⟩ := ih ends
        by_cases isNamed : n.kind.isNamed = true
        · have kind : ¬ (n.kind = .translationUnit ∨ n.kind = .linkageBlock) := by
            rw [← isNamed_eq_false_iff, isNamed]
            exact Bool.true_eq_false_eq_False
          rw [not_or] at kind
          exact ⟨outer ++ [n.name.getD ""], by simp [isNamed], .named found kind.1 kind.2 around⟩
        · rw [Bool.not_eq_true] at isNamed
          have kind := isNamed_eq_false_iff.mp isNamed
          exact ⟨outer, by simp [isNamed], .passedOver found kind around⟩

/-- A scope has one path. -/
theorem NamedPath.unique {scope : Option ScopeId} {path path' : List String}
    (around : u.NamedPath scope path) (around' : u.NamedPath scope path') : path = path' := by
  induction around generalizing path' with
  | outside =>
    cases around'
    rfl
  | passedOver found kind _ ih =>
    cases around' with
    | passedOver found' _ around' =>
      cases found.symm.trans found'
      exact ih around'
    | named found' unit linkage _ =>
      cases found.symm.trans found'
      exact absurd kind (not_or.mpr ⟨unit, linkage⟩)
  | named found unit linkage _ ih =>
    cases around' with
    | passedOver found' kind _ =>
      cases found.symm.trans found'
      exact absurd kind (not_or.mpr ⟨unit, linkage⟩)
    | named found' _ _ around' =>
      cases found.symm.trans found'
      rw [ih around']

/-- The path that is computed is the one that the scopes spell out. -/
theorem NamedPath.of_path {scope : ScopeId} {path : List String} (ends : u.path scope = .ok path) :
    u.NamedPath (some scope) path := by
  obtain ⟨outer, same, around⟩ := NamedPath.of_pathFrom ends
  rw [same, List.append_nil]
  exact around

/-- Every scope of a consistent unit has its path, and names are made with it. -/
theorem Consistent.exists_path (c : u.Consistent) {scope : ScopeId}
    (inside : u.Holds .scopes scope.index) :
    ∃ path, u.path scope = .ok path ∧ ∀ p, u.NamedPath (some scope) p ↔ p = path := by
  obtain ⟨path, ends, -⟩ := (c.path_ends (π := fun _ => False) inside).answer
  have around := NamedPath.of_path ends
  refine ⟨path, ends, fun p => ⟨fun around' => around'.unique around, ?_⟩⟩
  intro same
  rw [same]
  exact around

private theorem qualifiedName_of_path {scope : ScopeId} {path : List String} {name : String}
    (ends : u.path scope = .ok path) (filled : name ≠ "") :
    u.qualifiedName scope name = .ok (Names.qualifier path ++ name) := by
  rw [qualifiedName, if_neg (by simpa using filled), qualifier, ends]
  rfl

-- ============================================================ declarations

/-- No scope, no record and no function has a colon in its name. -/
structure HasPlainDeclarations (u : TranslationUnit) : Prop extends u.HasPlainNames where
  functions : ∀ f ∈ u.functions.toList, ':' ∉ f.name.toList

/-- Something is declared in a scope by a name: a scope, a record or a function. -/
inductive DeclaresIn (u : TranslationUnit) (scope : ScopeId) (name : String) : Prop where
  | scope {id : ScopeId} {n : Scope} (found : u.scope id = .ok n) (around : n.parent = some scope)
      (named : n.name = some name)
  | record {id : RecordId} {r : RecordDecl} (found : u.record id = .ok r) (around : r.scope = scope)
      (named : r.name = name)
  | function {id : FunctionId} {f : FunctionDecl} (found : u.function id = .ok f)
      (around : f.scope = scope) (named : f.name = name)

/-- What is declared in a scope says so in an entry, and entries are consistent. -/
theorem DeclaresIn.inside (c : u.Consistent) {scope : ScopeId} {name : String}
    (declares : u.DeclaresIn scope name) : u.Holds .scopes scope.index := by
  cases declares with
  | scope found around named =>
    have fits := c.scope_ends (π := fun _ => False) (holds_of_entry found)
    rw [found] at fits
    exact (fits scope around).1
  | record found around named =>
    rw [← around]
    exact (c.fits_of_record found).scope
  | function found around named =>
    have fits := c.function_ends (π := fun _ => False) (holds_of_entry found)
    rw [found] at fits
    rw [← around]
    exact fits.scope

/-- A plain unit has no colon in the name of anything that it declares. -/
theorem DeclaresIn.plain (plain : u.HasPlainDeclarations) {scope : ScopeId} {name : String}
    (declares : u.DeclaresIn scope name) : ':' ∉ name.toList := by
  cases declares with
  | @scope id n found around named =>
    have plainScope := plain.scopes n
      (Array.mem_toList_iff.mpr (Array.mem_of_getElem? (eq_of_entry found)))
    rwa [named] at plainScope
  | record found around named =>
    rw [← named]
    exact plain.of_record found
  | @function id f found around named =>
    rw [← named]
    exact plain.functions f (Array.mem_toList_iff.mpr (Array.mem_of_getElem? (eq_of_entry found)))

/-- A text is the qualified name of a declaration exactly if its segments are the path around the
declaration and its name. -/
theorem qualifiedName_eq_iff (plain : u.HasPlainDeclarations) {scope : ScopeId} {path : List String}
    {name text : String} (ends : u.path scope = .ok path) (filled : name ≠ "")
    (plainName : ':' ∉ name.toList) :
    u.qualifiedName scope name = .ok text ↔ Names.segments text = path ++ [name] := by
  rw [qualifiedName_of_path ends filled, Names.segments_eq_iff (plain.of_path ends) plainName,
    Except.ok.injEq, eq_comm]

/-- No name that a vocabulary lists is empty. -/
theorem ne_empty_of_listed {scheme : NamingScheme} {family name : String}
    (listed : family ∈ (Vocabulary.ofScheme scheme).familiesOf name) : name ≠ "" := by
  rintro rfl
  have none : (Vocabulary.ofScheme scheme).familiesOf "" = [] := by cases scheme <;> decide
  rw [none] at listed
  cases listed

/-- Two declarations have the same qualified name exactly if they have the same name and the same
path of named scopes around them. A text that is not empty, as no name is that a vocabulary lists,
is the name of a record exactly if its segments are the path around the record and the name of the
record. -/
theorem qualified_names_identify (consistent : u.inconsistency? = none)
    (plain : u.HasPlainDeclarations) :
    (∀ scope scope' name name', u.DeclaresIn scope name → u.DeclaresIn scope' name' →
      name ≠ "" → name' ≠ "" →
      ∃ path path' text text',
        (∀ p, u.NamedPath (some scope) p ↔ p = path)
        ∧ (∀ p, u.NamedPath (some scope') p ↔ p = path')
        ∧ u.qualifiedName scope name = .ok text ∧ u.qualifiedName scope' name' = .ok text'
        ∧ (text = text' ↔ name = name' ∧ path = path'))
    ∧ (∀ id r, u.record id = .ok r →
      ∃ path, (∀ p, u.NamedPath (some r.scope) p ↔ p = path)
        ∧ ∀ listed, listed ≠ "" → (u.recordName id = .ok listed ↔
          r.name ≠ "" ∧ Names.segments listed = path ++ [r.name]))
    ∧ ∀ scheme family listed,
      family ∈ (Vocabulary.ofScheme scheme).familiesOf listed → listed ≠ "" := by
  have c := inconsistency?_eq_none_iff.mp consistent
  refine ⟨?_, ?_, fun scheme family listed isListed => ne_empty_of_listed isListed⟩
  · intro scope scope' name name' declares declares' filled filled'
    obtain ⟨path, ends, around⟩ := c.exists_path (declares.inside c)
    obtain ⟨path', ends', around'⟩ := c.exists_path (declares'.inside c)
    have made := qualifiedName_of_path ends filled
    have made' := qualifiedName_of_path ends' filled'
    refine ⟨path, path', _, _, around, around', made, made', ?_⟩
    -- both texts are told by their segments
    rw [← Names.segments_eq_iff (plain.of_path ends') (declares'.plain plain),
      Names.segments_qualifier (plain.of_path ends) (declares.plain plain),
      List.append_singleton_inj, and_comm]
  · intro id r found
    obtain ⟨path, ends, around⟩ := c.exists_path (c.fits_of_record found).scope
    refine ⟨path, around, fun listed notEmpty => ?_⟩
    rw [recordName, found, ok_bind]
    by_cases filled : r.name = ""
    · -- a record without a name has the empty one
      rw [filled]
      constructor
      · intro made
        cases made
        exact absurd rfl notEmpty
      · intro known
        exact absurd rfl known.1
    · rw [qualifiedName_eq_iff plain ends filled (plain.of_record found), and_iff_right filled]

/-- A unit with two records `owning_ptr`. The first is the smart pointer of the library, declared in
a linkage block of namespace `safememory`. The second is declared in a namespace of the same name
that lies in an anonymous one. -/
def homonyms : TranslationUnit where
  files := #[⟨"main.cpp", false⟩]
  types := ⟨#[.builtin .int]⟩
  scopes := #[
    { name := none, kind := .translationUnit, parent := none, attributes := .empty },
    { name := some "safememory", kind := .nameSpace, parent := some ⟨0⟩, attributes := .empty },
    { name := none, kind := .linkageBlock, parent := some ⟨1⟩, attributes := .empty },
    { name := none, kind := .nameSpace, parent := some ⟨0⟩, attributes := .empty },
    { name := some "safememory", kind := .nameSpace, parent := some ⟨3⟩, attributes := .empty }]
  records := #[
    .declared "owning_ptr" ⟨2⟩ ⟨some ⟨0⟩, ⟨0, 1⟩⟩,
    .declared "owning_ptr" ⟨4⟩ ⟨some ⟨0⟩, ⟨2, 1⟩⟩]
  functions := #[]
  vars := #[]
  statements := #[]

private theorem homonyms_plain :
    homonyms.HasPlainDeclarations := ⟨⟨by decide, by decide⟩, by decide⟩

/-- The anonymous namespace keeps the second record from passing for the first. -/
theorem homonyms_identified : homonyms.inconsistency? = none ∧ homonyms.HasPlainDeclarations
    ∧ homonyms.DeclaresIn ⟨2⟩ "owning_ptr" ∧ homonyms.DeclaresIn ⟨4⟩ "owning_ptr"
    ∧ homonyms.qualifiedName ⟨2⟩ "owning_ptr" = .ok "safememory::owning_ptr"
    ∧ homonyms.qualifiedName ⟨4⟩ "owning_ptr" = .ok "::safememory::owning_ptr"
    ∧ ("safememory::owning_ptr" = "::safememory::owning_ptr" ↔
      "owning_ptr" = "owning_ptr" ∧ ["safememory"] = ["", "safememory"])
    ∧ (homonyms.recordName ⟨1⟩ = .ok "safememory::owning_ptr" ↔
      "owning_ptr" ≠ ""
        ∧ Names.segments "safememory::owning_ptr" = ["", "safememory"] ++ ["owning_ptr"]) := by
  have consistent : homonyms.inconsistency? = none := by decide
  obtain ⟨apart, listed, -⟩ := qualified_names_identify consistent homonyms_plain
  have first : homonyms.DeclaresIn ⟨2⟩ "owning_ptr" := @DeclaresIn.record _ _ _ ⟨0⟩ _ rfl rfl rfl
  have second : homonyms.DeclaresIn ⟨4⟩ "owning_ptr" := @DeclaresIn.record _ _ _ ⟨1⟩ _ rfl rfl rfl
  have library : homonyms.NamedPath (some ⟨2⟩) ["safememory"] := .of_path rfl
  have hidden : homonyms.NamedPath (some ⟨4⟩) ["", "safememory"] := .of_path rfl
  obtain ⟨path, path', text, text', around, around', made, made', same⟩ :=
    apart ⟨2⟩ ⟨4⟩ "owning_ptr" "owning_ptr" first second (by decide) (by decide)
  obtain rfl := (around _).mp library
  obtain rfl := (around' _).mp hidden
  obtain rfl : text = "safememory::owning_ptr" := Except.ok.inj (made.symm.trans rfl)
  obtain rfl : text' = "::safememory::owning_ptr" := Except.ok.inj (made'.symm.trans rfl)
  obtain ⟨path, around, matched⟩ := listed ⟨1⟩ _ rfl
  obtain rfl := (around _).mp hidden
  refine ⟨consistent, homonyms_plain, first, second, made, made', same, ?_⟩
  exact matched "safememory::owning_ptr" (by decide)

end TranslationUnit

end SafeDialect
