/-
Which locals outlive each other in a unit that was loaded.

A statement lists its children, and loading sets the parents from the lists. Where every statement
is listed at most once, and has a parent only if it is listed, the two views agree: the statement
around another one is the one that lists it. The walk outwards from a declaration then goes up
through the lists, and a local may be put into another one exactly if the statement that lists its
declaration lies above the declaration of the other.
-/
import Mathlib.Data.List.Nodup
import SafeDialect.Proofs.Interchange.TranslationUnit
import SafeDialect.Proofs.Lifetime.Order
import SafeDialect.Proofs.Program.Parents

namespace SafeDialect

open Relation

-- ============================================================ loading

/-- What loading makes of the text of a file. -/
theorem FileAccess.loadUnit_of_readText {fs : FileAccess Id} {path text : String}
    (read : fs.readText path = some text) :
    (fs.loadUnit path).run.run =
      match TranslationUnit.ofText? text with
      | none => .error (.malformedUnit path)
      | some original =>
        match original.inconsistency? with
        | some cause => .error (.inconsistentUnit path cause)
        | none =>
          match original.link with
          | .ok linked => .ok linked
          | .error fault => .error (.stopped fault) := by
  unfold FileAccess.loadUnit
  rw [read]
  show (require (m := Id) (.malformedUnit path) (TranslationUnit.ofText? text) >>= _).run.run = _
  cases TranslationUnit.ofText? text with
  | none => rfl
  | some original =>
    show ExceptT.run _ = _
    dsimp only
    show (match original.inconsistency? with
      | some cause => _
      | none => _ : FileAccess.Load Id TranslationUnit).run = _
    cases original.inconsistency? with
    | some cause => rfl
    | none =>
      dsimp only
      cases original.link with
      | ok linked => rfl
      | error fault => rfl

/-- A unit that was loaded is a consistent unit that has been linked. -/
theorem FileAccess.exists_of_loadUnit {fs : FileAccess Id} {path : String} {u : TranslationUnit}
    (loaded : (fs.loadUnit path).run.run = .ok u) :
    ∃ original : TranslationUnit, original.inconsistency? = none ∧ original.link = .ok u := by
  cases read : fs.readText path with
  | none =>
    unfold FileAccess.loadUnit at loaded
    rw [read] at loaded
    cases loaded
  | some text =>
    rw [loadUnit_of_readText read] at loaded
    split at loaded
    · cases loaded
    · next original _ =>
      split at loaded
      · cases loaded
      · next consistent =>
        split at loaded
        · next linked link =>
          cases loaded
          exact ⟨original, consistent, link⟩
        · cases loaded

-- ============================================================ lists and parents

namespace TranslationUnit

variable {u v : TranslationUnit}

/-- No statement is listed twice, neither by two statements nor by one. -/
def ListsOnce (u : TranslationUnit) : Prop :=
  (u.statements.toList.flatMap Stmt.children).Nodup

instance : Decidable u.ListsOnce :=
  inferInstanceAs (Decidable (u.statements.toList.flatMap Stmt.children).Nodup)

theorem ListsOnce.unique (once : u.ListsOnce) {outer outer' inner : StmtId}
    (lists : u.Lists outer inner) (lists' : u.Lists outer' inner) : outer = outer' := by
  obtain ⟨s, look, child⟩ := lists
  obtain ⟨s', look', child'⟩ := lists'
  rw [statement_eq_ok_iff, ← Array.getElem?_toList] at look look'
  obtain ⟨inside, here⟩ := List.getElem?_eq_some_iff.mp look
  obtain ⟨inside', here'⟩ := List.getElem?_eq_some_iff.mp look'
  have apart (i j : Nat) (hi : i < u.statements.toList.length) (hj : j < u.statements.toList.length)
      (before : i < j) :
      List.Disjoint (u.statements.toList[i]).children (u.statements.toList[j]).children :=
    List.pairwise_iff_getElem.mp (List.nodup_flatMap.mp once).2 i j hi hj before
  apply StmtId.index_injective
  rcases Nat.lt_trichotomy outer.index outer'.index with before | same | after
  · have disjoint := apart outer.index outer'.index inside inside' before
    rw [here, here'] at disjoint
    exact absurd child' (disjoint child)
  · exact same
  · have disjoint := apart outer'.index outer.index inside' inside after
    rw [here, here'] at disjoint
    exact absurd child (disjoint child')

/-- Linking leaves the lists as they are. -/
theorem lists_link_iff (link : u.link = .ok v) {outer inner : StmtId} :
    v.Lists outer inner ↔ u.Lists outer inner := by
  unfold Lists
  simp only [statement_eq_ok_iff]
  rw [adopted_of_link link outer.index]
  cases u.statements[outer.index]? with
  | none => simp
  | some s => simp [Stmt.children]

/-- Only listed statements have a parent. -/
def UnlistedAreRoots (u : TranslationUnit) : Prop :=
  ∀ inner, u.Unlisted inner → ∀ outer, ¬ u.Within inner outer

/-- The statement around another one is the one that lists it: what is stored below agrees with
what is listed above. -/
theorem within_iff_lists (link : u.link = .ok v) (same : u.SameSizes v) (once : v.ListsOnce)
    (roots : v.UnlistedAreRoots) {inner outer : StmtId}
    (inside : v.Holds .statements inner.index) : v.Within inner outer ↔ v.Lists outer inner := by
  have unlisted_iff : v.Unlisted inner ↔ u.Unlisted inner :=
    forall_congr' fun other => not_congr (lists_link_iff link)
  rw [within_link_iff link (same.holds_iff.mp inside), lists_link_iff link]
  constructor
  · rintro (last | ⟨unlisted, stored⟩)
    · exact last.1
    -- a stored parent stays where nobody lists the statement, and such statements have none
    · have within : v.Within inner outer :=
        (within_link_iff link (same.holds_iff.mp inside)).mpr (.inr ⟨unlisted, stored⟩)
      exact absurd within (roots inner (unlisted_iff.mpr unlisted) outer)
  · intro lists
    refine .inl ⟨lists, fun other ofOther => ?_⟩
    have unique := once.unique ((lists_link_iff link).mpr ofOther) ((lists_link_iff link).mpr lists)
    rw [unique]

/-- A loaded unit in which every statement is listed at most once, and has a parent only if it is
listed. -/
structure Nested (u : TranslationUnit) : Prop where
  consistent : u.Consistent
  within_iff : ∀ {inner outer}, u.Within inner outer ↔ u.Lists outer inner

private theorem nested_of_link (c : u.Consistent) (link : u.link = .ok v) (once : v.ListsOnce)
    (roots : v.UnlistedAreRoots) : v.Nested := by
  obtain ⟨_, link', kept⟩ := (link_ends c).answer
  cases link.symm.trans link'
  refine ⟨kept.consistent, fun {inner outer} => ⟨fun within => ?_, fun lists => ?_⟩⟩
  · exact (within_iff_lists link kept.sizes once roots within.inside).mp within
  · obtain ⟨s, look, child⟩ := lists
    have fits := kept.consistent.statement_ends (π := fun _ => False) (holds_of_entry look)
    rw [look] at fits
    have inside := (fits.children inner child).1
    exact (within_iff_lists link kept.sizes once roots inside).mpr ⟨s, look, child⟩

namespace Nested

variable (nested : u.Nested) {a b : StmtId}
include nested

/-- A chain outwards is a chain of lists, read from its other end. -/
theorem transGen_within_iff : TransGen u.Within a b ↔ TransGen u.Lists b a := by
  have same : u.Within = Function.swap u.Lists := by
    funext inner outer
    exact propext nested.within_iff
  rw [same, transGen_swap]

/-- What lies above stands later in the table. -/
theorem index_lt (above : TransGen u.Lists b a) : a.index < b.index := by
  induction above with
  | single lists => exact nested.consistent.index_lt_of_lists lists
  | tail _ lists ih => exact Nat.lt_trans (nested.consistent.index_lt_of_lists lists) ih

theorem parentsFounded : u.ParentsFounded := by
  intro s circle
  exact Nat.lt_irrefl _ (nested.index_lt (nested.transGen_within_iff.mp circle))

end Nested

-- ============================================================ locals

/-- A statement declares a local that does not extend to the object. -/
def DeclaresLocal (u : TranslationUnit) (stmt : StmtId) (id : VariableId) : Prop :=
  ∃ v, u.variableDecl id = .ok v ∧ v.kind = .localVar ∧ v.has .mayExtendToThis = false
    ∧ v.declStmt = some stmt

/-- The statement that lists the first lies strictly above the second. -/
def BlockAbove (u : TranslationUnit) (first second : StmtId) : Prop :=
  ∃ block, u.Lists block first ∧ TransGen u.Lists block second

variable {source target : VariableId} {ofSource ofTarget : StmtId}

private theorem Nested.outlives_iff_blockAbove (nested : u.Nested)
    (declares : u.DeclaresLocal ofSource source) (declares' : u.DeclaresLocal ofTarget target) :
    u.outlives source target = .ok true ↔ u.BlockAbove ofSource ofTarget := by
  obtain ⟨v, look, -, -, declared⟩ := declares
  obtain ⟨w, look', -, -, declared'⟩ := declares'
  rw [outlives_iff nested.parentsFounded]
  constructor
  · rintro ⟨_, _, block, ⟨_, lookV, isSource⟩, ⟨_, lookW, isTarget⟩, around, chain⟩
    cases look.symm.trans lookV
    cases look'.symm.trans lookW
    cases declared.symm.trans isSource
    cases declared'.symm.trans isTarget
    exact ⟨block, nested.within_iff.mp around, nested.transGen_within_iff.mp chain⟩
  · rintro ⟨block, lists, above⟩
    exact ⟨ofSource, ofTarget, block, ⟨v, look, declared⟩, ⟨w, look', declared'⟩,
      nested.within_iff.mpr lists, nested.transGen_within_iff.mpr above⟩

variable {first second third : StmtId}

/-- The block of the first is the block of the second or lies above it. -/
theorem BlockAbove.exists_block (above : u.BlockAbove first second) :
    ∃ block block', u.Lists block first ∧ u.Lists block' second
      ∧ ReflTransGen u.Lists block block' := by
  obtain ⟨block, lists, chain⟩ := above
  obtain ⟨block', chain', lists'⟩ := TransGen.tail'_iff.mp chain
  exact ⟨block, block', lists, lists', chain'⟩

section

variable (nested : u.Nested)
include nested

/-- One statement at most lists another one. -/
theorem Nested.unique {outer outer' inner : StmtId} (lists : u.Lists outer inner)
    (lists' : u.Lists outer' inner) : outer = outer' := by
  have within := nested.within_iff.mpr lists
  have within' := nested.within_iff.mpr lists'
  unfold Within at within within'
  cases within.symm.trans within'
  rfl

theorem BlockAbove.trans (above : u.BlockAbove first second) (above' : u.BlockAbove second third) :
    u.BlockAbove first third := by
  obtain ⟨block, middle, lists, listsMiddle, chain⟩ := above.exists_block
  obtain ⟨middle', listsMiddle', chain'⟩ := above'
  rw [nested.unique listsMiddle' listsMiddle] at chain'
  exact ⟨block, lists, chain'.trans_right chain⟩

/-- The blocks of two statements lie above each other's statements only if they are one block. -/
theorem blockAbove_both_iff : u.BlockAbove first second ∧ u.BlockAbove second first ↔
    ∃ block, u.Lists block first ∧ u.Lists block second := by
  constructor
  · rintro ⟨above, above'⟩
    obtain ⟨block, block', lists, lists', chain⟩ := above.exists_block
    obtain ⟨other', other, listsOther', listsOther, chain'⟩ := above'.exists_block
    rw [nested.unique listsOther lists, nested.unique listsOther' lists'] at chain'
    rcases reflTransGen_iff_eq_or_transGen.mp chain with same | strict
    · exact ⟨block, lists, same ▸ lists'⟩
    · have circle : TransGen u.Lists block block := strict.trans_left chain'
      exact absurd (nested.index_lt circle) (Nat.lt_irrefl _)
  · rintro ⟨block, lists, lists'⟩
    exact ⟨⟨block, lists, .single lists'⟩, ⟨block, lists', .single lists⟩⟩

end

/-- Whether a reference to a local may flow into another local is told by the lists, silently. -/
theorem Nested.mayFlow_local {s : Setting} (nested : s.unit.Nested)
    (declares : s.unit.DeclaresLocal ofSource source)
    (declares' : s.unit.DeclaresLocal ofTarget target) :
    ∃ accepted : Bool, (accepted = true ↔ s.unit.BlockAbove ofSource ofTarget)
      ∧ ∀ location type voice,
        (s.mayFlow (.localVar target)
          (.mk location type (.declRef (.variableRef source)))).run voice
            = .ok (accepted, voice) := by
  have isAbove := nested.outlives_iff_blockAbove declares declares'
  obtain ⟨v, look, isLocal, plain, -⟩ := declares
  obtain ⟨w, look', -⟩ := declares'
  obtain ⟨stmtRank, ranked⟩ := nested.consistent.exists_stmtsRanked nested.parentsFounded
  obtain ⟨accepted, outlives, -⟩ := (outlives_ends (π := fun _ => False) nested.consistent
    (fun _ => ranked) (holds_of_entry look) (holds_of_entry look')).answer
  have variableFlows : s.unit.variableFlows (.localVar target) source = .ok accepted := by
    unfold variableFlows
    rw [look, ok_bind]
    simp only [VariableDecl.isParam, VariableDecl.hasGlobalStorage, isLocal, plain]
    exact outlives
  refine ⟨accepted, ?_, fun location type voice => ?_⟩
  · rw [← isAbove, outlives]
    simp
  · show StateT.run (liftM (s.unit.variableFlows (.localVar target) source)) voice = _
    rw [variableFlows]
    rfl

/-- References to a local are accepted for another local. -/
def AcceptsLocal (s : Setting) (source target : VariableId) : Prop :=
  ∀ location type, s.Accepts (.localVar target) (.mk location type (.declRef (.variableRef source)))

private theorem Nested.acceptsLocal_iff {s : Setting} (nested : s.unit.Nested)
    (declares : s.unit.DeclaresLocal ofSource source)
    (declares' : s.unit.DeclaresLocal ofTarget target) :
    AcceptsLocal s source target ↔ s.unit.BlockAbove ofSource ofTarget := by
  obtain ⟨accepted, isAbove, flows⟩ := nested.mayFlow_local declares declares'
  rw [← isAbove]
  constructor
  · intro accepts
    obtain ⟨voice, voice', run⟩ := accepts .unknown ⟨⟨0⟩, false⟩
    rw [flows] at run
    cases run
    rfl
  · rintro rfl location type
    exact ⟨.silent, .silent, flows location type .silent⟩

/-- In a loaded unit that lists each statement at most once, and in which only listed statements
have a parent, a reference to a local is accepted for another local if the statement that lists the
declaration of the first lies above the declaration of the second, and refused otherwise. So
acceptance goes on from local to local, and between two locals it goes both ways only if one
statement lists the declarations of both. -/
theorem local_accepted_iff_block_above {fs : FileAccess Id} {path : String} {u : TranslationUnit}
    (loaded : (fs.loadUnit path).run.run = .ok u) (once : u.ListsOnce) (roots : u.UnlistedAreRoots)
    (config : Config) :
    ∃ s, Setting.of u config = .ok s
      ∧ (∀ source target ofSource ofTarget, u.DeclaresLocal ofSource source →
        u.DeclaresLocal ofTarget target →
          ∃ accepted : Bool,
            (accepted = true ↔ ∃ block, u.Lists block ofSource ∧ TransGen u.Lists block ofTarget)
            ∧ ∀ location type voice,
              (s.mayFlow (.localVar target)
                (.mk location type (.declRef (.variableRef source)))).run voice
                  = .ok (accepted, voice))
      ∧ (∀ a b d ofA ofB ofD, u.DeclaresLocal ofA a → u.DeclaresLocal ofB b →
        u.DeclaresLocal ofD d → AcceptsLocal s a b → AcceptsLocal s b d → AcceptsLocal s a d)
      ∧ (∀ a b ofA ofB, u.DeclaresLocal ofA a → u.DeclaresLocal ofB b →
        (AcceptsLocal s a b ∧ AcceptsLocal s b a ↔
          ∃ block, u.Lists block ofA ∧ u.Lists block ofB)) := by
  obtain ⟨original, consistent, link⟩ := FileAccess.exists_of_loadUnit loaded
  have nested := nested_of_link (inconsistency?_eq_none_iff.mp consistent) link once roots
  obtain ⟨s, setting, rfl, -⟩ := (Setting.of_ends nested.consistent config).answer
  refine ⟨s, setting, fun _ _ _ _ => nested.mayFlow_local, ?_, ?_⟩
  · intro a b d ofA ofB ofD declaresA declaresB declaresD first second
    rw [nested.acceptsLocal_iff declaresA declaresB] at first
    rw [nested.acceptsLocal_iff declaresB declaresD] at second
    rw [nested.acceptsLocal_iff declaresA declaresD]
    exact first.trans nested second
  · intro a b ofA ofB declaresA declaresB
    rw [nested.acceptsLocal_iff declaresA declaresB, nested.acceptsLocal_iff declaresB declaresA]
    exact blockAbove_both_iff nested

/-- Whether only listed statements have a parent is seen slot by slot. -/
theorem unlistedAreRoots {u : TranslationUnit}
    (each : ∀ slot < u.statements.size, (u.statements[slot]?.bind (·.parent)) = none
      ∨ ∃ outer < u.statements.size, u.listsAt outer ⟨slot⟩ = true) : u.UnlistedAreRoots := by
  intro inner unlisted outer within
  obtain ⟨s, look, isParent⟩ := bind_eq_ok.mp within
  have known : s.parent = some outer := Except.ok.inj isParent
  rcases each inner.index within.inside with none | ⟨other, -, lists⟩
  · rw [statement_eq_ok_iff.mp look, Option.bind_some, known] at none
    cases none
  · exact unlisted ⟨other⟩ (listsAt_iff.mp lists)

/-- A body with locals before a loop, in its head and in its body, as it is written down:

    int outer;
    for (int counter;;) { int inner; }
-/
def loopWritten : TranslationUnit where
  files := #[]
  types := ⟨#[.builtin .int]⟩
  scopes := #[{ name := none, kind := .translationUnit, parent := none, attributes := .empty }]
  records := #[]
  functions := #[]
  vars := #[
    .declared "outer" ⟨⟨0⟩, false⟩ .unknown .localVar,
    .declared "counter" ⟨⟨0⟩, false⟩ .unknown .localVar,
    .declared "inner" ⟨⟨0⟩, false⟩ .unknown .localVar]
  statements := #[
    ⟨none, .unknown, .declare [⟨0⟩]⟩,
    ⟨none, .unknown, .declare [⟨1⟩]⟩,
    ⟨none, .unknown, .declare [⟨2⟩]⟩,
    ⟨none, .unknown, .compound [⟨2⟩]⟩,
    ⟨none, .unknown, .forLoop (some ⟨1⟩) none none ⟨3⟩⟩,
    ⟨none, .unknown, .compound [⟨0⟩, ⟨4⟩]⟩]

/-- The same body, linked. -/
def loop : TranslationUnit where
  files := #[]
  types := ⟨#[.builtin .int]⟩
  scopes := #[{ name := none, kind := .translationUnit, parent := none, attributes := .empty }]
  records := #[]
  functions := #[]
  vars := #[
    { VariableDecl.declared "outer" ⟨⟨0⟩, false⟩ .unknown .localVar with declStmt := some ⟨0⟩ },
    { VariableDecl.declared "counter" ⟨⟨0⟩, false⟩ .unknown .localVar with declStmt := some ⟨1⟩ },
    { VariableDecl.declared "inner" ⟨⟨0⟩, false⟩ .unknown .localVar with declStmt := some ⟨2⟩ }]
  statements := #[
    ⟨some ⟨5⟩, .unknown, .declare [⟨0⟩]⟩,
    ⟨some ⟨4⟩, .unknown, .declare [⟨1⟩]⟩,
    ⟨some ⟨3⟩, .unknown, .declare [⟨2⟩]⟩,
    ⟨some ⟨4⟩, .unknown, .compound [⟨2⟩]⟩,
    ⟨some ⟨5⟩, .unknown, .forLoop (some ⟨1⟩) none none ⟨3⟩⟩,
    ⟨none, .unknown, .compound [⟨0⟩, ⟨4⟩]⟩]

/-- The only file holds the written body. -/
def loopFile : FileAccess Id where
  readText path := if path = "loop.json" then some loopWritten.toJson.compact else none
  isFile path := path == "loop.json"

private theorem loop_loaded : (loopFile.loadUnit "loop.json").run.run = .ok loop := by
  have read : loopFile.readText "loop.json" = some loopWritten.toJson.compact := by rfl
  have written : ofText? loopWritten.toJson.compact = some loopWritten :=
    ofText?_compact (by decide +kernel) (by decide +kernel)
  have consistent : loopWritten.inconsistency? = none := by decide +kernel
  have linked : loopWritten.link = .ok loop := by rfl
  rw [FileAccess.loadUnit_of_readText read, written]
  dsimp only
  rw [consistent]
  dsimp only
  rw [linked]

private theorem loop_listsOnce : loop.ListsOnce := by decide +kernel

private theorem loop_unlistedAreRoots : loop.UnlistedAreRoots :=
  unlistedAreRoots (by decide +kernel)

/-- What is declared before the loop may go into its head and on into its body, and what is declared
in the head may go into the body but not back. -/
theorem loop_accepts_inwards :
    (loopFile.loadUnit "loop.json").run.run = .ok loop ∧ loop.ListsOnce ∧ loop.UnlistedAreRoots
      ∧ ∃ s, Setting.of loop .default = .ok s ∧ AcceptsLocal s ⟨0⟩ ⟨1⟩ ∧ AcceptsLocal s ⟨1⟩ ⟨2⟩
        ∧ AcceptsLocal s ⟨0⟩ ⟨2⟩ ∧ ¬ AcceptsLocal s ⟨2⟩ ⟨1⟩ := by
  obtain ⟨s, setting, flows, onwards, bothWays⟩ := local_accepted_iff_block_above loop_loaded
    loop_listsOnce loop_unlistedAreRoots .default
  have outer : loop.DeclaresLocal ⟨0⟩ ⟨0⟩ := ⟨_, rfl, rfl, rfl, rfl⟩
  have counter : loop.DeclaresLocal ⟨1⟩ ⟨1⟩ := ⟨_, rfl, rfl, rfl, rfl⟩
  have inner : loop.DeclaresLocal ⟨2⟩ ⟨2⟩ := ⟨_, rfl, rfl, rfl, rfl⟩
  have body_outer : loop.Lists ⟨5⟩ ⟨0⟩ := listsAt_iff.mp (by decide)
  have body_head : loop.Lists ⟨5⟩ ⟨4⟩ := listsAt_iff.mp (by decide)
  have head_counter : loop.Lists ⟨4⟩ ⟨1⟩ := listsAt_iff.mp (by decide)
  have head_block : loop.Lists ⟨4⟩ ⟨3⟩ := listsAt_iff.mp (by decide)
  have block_inner : loop.Lists ⟨3⟩ ⟨2⟩ := listsAt_iff.mp (by decide)
  have intoHead : AcceptsLocal s ⟨0⟩ ⟨1⟩ := by
    obtain ⟨_, isAbove, run⟩ := flows ⟨0⟩ ⟨1⟩ ⟨0⟩ ⟨1⟩ outer counter
    cases isAbove.mpr ⟨⟨5⟩, body_outer, (TransGen.single body_head).tail head_counter⟩
    exact fun location type => ⟨.silent, .silent, run location type .silent⟩
  have intoBlock : AcceptsLocal s ⟨1⟩ ⟨2⟩ := by
    obtain ⟨_, isAbove, run⟩ := flows ⟨1⟩ ⟨2⟩ ⟨1⟩ ⟨2⟩ counter inner
    cases isAbove.mpr ⟨⟨4⟩, head_counter, (TransGen.single head_block).tail block_inner⟩
    exact fun location type => ⟨.silent, .silent, run location type .silent⟩
  refine ⟨loop_loaded, loop_listsOnce, loop_unlistedAreRoots, s, setting, intoHead, intoBlock,
    onwards _ _ _ _ _ _ outer counter inner intoHead intoBlock, fun back => ?_⟩
  obtain ⟨block, listsCounter, listsInner⟩ :=
    (bothWays _ _ _ _ counter inner).mp ⟨intoBlock, back⟩
  have atHead := loop_listsOnce.unique listsCounter head_counter
  have atBlock := loop_listsOnce.unique listsInner block_inner
  exact absurd (atHead.symm.trans atBlock) (by decide)

end TranslationUnit

end SafeDialect
