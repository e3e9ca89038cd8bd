/-
Which statement is around which, once a unit is linked.

Linking goes through the statements in the order of their slots, and each becomes the parent of its
children, so the last statement that lists a child stands. Children precede the statement that lists
them, hence along such links the slots rise and no circle closes. But a statement that nobody lists
keeps the parent that it came with, which may lie anywhere in the table. Circles through such a
statement are the only ones: without them every walk outwards comes to a statement that has nothing
around it.
-/
import SafeDialect.Proofs.Lifetime.Flow
import SafeDialect.Proofs.Program.Linked

namespace SafeDialect

open Relation

namespace TranslationUnit

variable {u v w : TranslationUnit}

-- ============================================================ the last that lists

/-- A statement lists another one as a child. -/
def Lists (u : TranslationUnit) (outer inner : StmtId) : Prop :=
  ∃ s, u.statement outer = .ok s ∧ inner ∈ s.children

/-- No statement lists it as a child. -/
def Unlisted (u : TranslationUnit) (inner : StmtId) : Prop := ∀ outer, ¬ u.Lists outer inner

/-- The last statement of the table that lists a statement as a child. -/
def ListsLast (u : TranslationUnit) (outer inner : StmtId) : Prop :=
  u.Lists outer inner ∧ ∀ other, u.Lists other inner → other.index ≤ outer.index

/-- Whether the statement at a slot lists another one as a child. -/
def listsAt (u : TranslationUnit) (slot : Nat) (inner : StmtId) : Bool :=
  match u.statements[slot]? with
  | some s => s.children.contains inner
  | none => false

/-- The parent of a statement when the statements below a slot have been gone through. -/
def parentBelow (u : TranslationUnit) (inner : StmtId) (stored : Option StmtId) :
    (slots : Nat) → Option StmtId
  | 0 => stored
  | slots + 1 =>
    if u.listsAt slots inner then some ⟨slots⟩ else u.parentBelow inner stored slots

private theorem parentBelow_succ {inner : StmtId} {stored : Option StmtId} {slots : Nat} :
    u.parentBelow inner stored (slots + 1) =
      if u.listsAt slots inner then some ⟨slots⟩ else u.parentBelow inner stored slots := rfl

/-- A statement is looked up in its slot. -/
theorem statement_eq_ok_iff {id : StmtId} {s : Stmt} :
    u.statement id = .ok s ↔ u.statements[id.index]? = some s := by
  constructor
  · exact eq_of_entry
  · intro found
    unfold statement entry
    rw [found]

/-- What can be computed of listing is what is said of it. -/
theorem listsAt_iff {slot : Nat} {inner : StmtId} :
    u.listsAt slot inner = true ↔ u.Lists ⟨slot⟩ inner := by
  unfold listsAt Lists
  simp only [statement_eq_ok_iff]
  cases u.statements[slot]? with
  | none => simp
  | some s => simp

/-- Only a statement that is there lists something. -/
theorem Lists.index_lt_size {outer inner : StmtId} (lists : u.Lists outer inner) :
    outer.index < u.statements.size := by
  obtain ⟨s, look, -⟩ := lists
  exact holds_of_entry look

/-- The parent below a slot is the last that lists the statement, or else the stored one. -/
theorem parentBelow_eq_some_iff {inner outer : StmtId} {stored : Option StmtId} {slots : Nat} :
    u.parentBelow inner stored slots = some outer ↔
      (u.Lists outer inner ∧ outer.index < slots
        ∧ ∀ other, u.Lists other inner → other.index < slots → other.index ≤ outer.index)
      ∨ ((∀ other, u.Lists other inner → slots ≤ other.index) ∧ stored = some outer) := by
  induction slots with
  | zero => simp [parentBelow]
  | succ slots ih =>
    rw [parentBelow_succ]
    by_cases lists : u.Lists ⟨slots⟩ inner
    · rw [if_pos (listsAt_iff.mpr lists)]
      constructor
      · intro same
        cases same
        refine .inl ⟨lists, Nat.lt_succ_self slots, fun other _ below => ?_⟩
        exact Nat.lt_succ_iff.mp below
      · rintro (⟨-, below, last⟩ | ⟨none, -⟩)
        · have reaches : slots ≤ outer.index := last ⟨slots⟩ lists (Nat.lt_succ_self slots)
          have same : outer.index = slots := by omega
          rw [← same]
        · have outside : slots + 1 ≤ slots := none ⟨slots⟩ lists
          omega
    · rw [if_neg (mt listsAt_iff.mp lists), ih]
      -- the slot that was looked at lists nothing, so the bound may include it
      have other_ne (other : StmtId) (h : u.Lists other inner) : other.index ≠ slots := by
        intro same
        apply lists
        rw [← same]
        exact h
      constructor
      · rintro (⟨h, below, last⟩ | ⟨none, same⟩)
        · refine .inl ⟨h, by omega, fun other ofOther below' => last other ofOther ?_⟩
          have := other_ne other ofOther
          omega
        · refine .inr ⟨fun other ofOther => ?_, same⟩
          have := none other ofOther
          have := other_ne other ofOther
          omega
      · rintro (⟨h, below, last⟩ | ⟨none, same⟩)
        · have := other_ne outer h
          exact .inl ⟨h, by omega, fun other ofOther below' => last other ofOther (by omega)⟩
        · refine .inr ⟨fun other ofOther => ?_, same⟩
          have := none other ofOther
          omega

-- ============================================================ what linking does to statements

/-- A run of steps that leave the statements alone leaves them alone. -/
theorem statements_of_foldlM {α : Type} {step : TranslationUnit → α → Result TranslationUnit}
    (each : ∀ v a w, step v a = .ok w → w.statements = v.statements) {l : List α}
    (run : l.foldlM step v = .ok w) : w.statements = v.statements := by
  induction l generalizing v with
  | nil =>
    cases run
    rfl
  | cons a l ih =>
    rw [List.foldlM_cons] at run
    obtain ⟨v', step, rest⟩ := bind_eq_ok.mp run
    rw [ih rest, each v a v' step]

private theorem eq_of_modifyEntry {α : Type} {table : Table} {entries entries' : Array α}
    {index : Nat}
    {change : α → α} (changed : modifyEntry table entries index change = .ok entries') :
    entries' = entries.modify index change := by
  unfold modifyEntry at changed
  split at changed
  · cases changed
    rfl
  · cases changed

private theorem statements_of_setDeclStmt {stmt : StmtId} {id : VariableId}
    (run : setDeclStmt stmt v id = .ok w) : w.statements = v.statements := by
  obtain ⟨vars, -, same⟩ := bind_eq_ok.mp run
  cases same
  rfl

private theorem statements_of_own {id : FunctionId} (run : v.own id = .ok w) :
    w.statements = v.statements := by
  obtain ⟨f, -, rest⟩ := bind_eq_ok.mp run
  refine statements_of_foldlM (fun v' param w' step => ?_) rest
  obtain ⟨vars, -, same⟩ := bind_eq_ok.mp step
  cases same
  rfl

/-- Setting the parent of several statements. -/
theorem getElem?_of_setParents {parent : StmtId} {children : List StmtId}
    (run : children.foldlM (setParent parent) v = .ok w) (slot : Nat) :
    w.statements[slot]? = v.statements[slot]?.map fun s =>
      if ⟨slot⟩ ∈ children then { s with parent := some parent } else s := by
  induction children generalizing v with
  | nil =>
    cases run
    simp
  | cons child children ih =>
    rw [List.foldlM_cons] at run
    obtain ⟨v', step, rest⟩ := bind_eq_ok.mp run
    obtain ⟨statements, changed, same⟩ := bind_eq_ok.mp step
    cases same
    rw [ih rest, eq_of_modifyEntry changed, Array.getElem?_modify]
    by_cases here : child.index = slot
    · have named : (⟨slot⟩ : StmtId) = child := by rw [← here]
      rw [if_pos here, Option.map_map, named]
      congr 1
      funext s
      by_cases again : child ∈ children
      · simp [again]
      · simp [again]
    · have other : (⟨slot⟩ : StmtId) ≠ child := by
        intro same
        apply here
        rw [← same]
      rw [if_neg here]
      simp [other]

/-- The statements are those of `u`, with the parents that the first of them have set. -/
def Adopted (u : TranslationUnit) (slots : Nat) (v : TranslationUnit) : Prop :=
  ∀ slot : Nat, v.statements[slot]? = u.statements[slot]?.map fun s =>
    { s with parent := u.parentBelow ⟨slot⟩ s.parent slots }

/-- Nothing has been adopted before the first statement. -/
theorem Adopted.zero : u.Adopted 0 u := by
  intro slot
  unfold parentBelow
  simp

/-- The step: the next statement is the last so far, so what it lists has it for a parent now, and
all else is as before. -/
theorem Adopted.step {slots : Nat} (adopted : u.Adopted slots v)
    (run : v.adopt ⟨slots⟩ = .ok w) : u.Adopted (slots + 1) w := by
  obtain ⟨s', look, run⟩ := bind_eq_ok.mp run
  obtain ⟨v', setParents, rest⟩ := bind_eq_ok.mp run
  have kept := statements_of_foldlM (fun _ _ _ => statements_of_setDeclStmt) rest
  -- only parents have changed so far, so the children are those that `u` lists
  obtain ⟨s, found, same⟩ :=
    Option.map_eq_some_iff.mp ((adopted slots).symm.trans (eq_of_entry look))
  have children : s'.children = s.children := by
    rw [← same]
    rfl
  intro slot
  rw [kept, getElem?_of_setParents setParents, adopted slot, Option.map_map]
  congr 1
  funext a
  have listed : u.listsAt slots ⟨slot⟩ = true ↔ (⟨slot⟩ : StmtId) ∈ s'.children := by
    unfold listsAt
    rw [found, children]
    simp
  rw [parentBelow_succ]
  by_cases lists : (⟨slot⟩ : StmtId) ∈ s'.children
  · rw [if_pos (listed.mpr lists)]
    simp [lists]
  · rw [if_neg (mt listed.mp lists)]
    simp [lists]

/-- The run: by induction on the slots that have been gone through. -/
theorem Adopted.run {slots : Nat}
    (run : ((List.range slots).map StmtId.mk).foldlM adopt u = .ok v) : u.Adopted slots v := by
  induction slots generalizing v with
  | zero =>
    cases run
    exact .zero
  | succ slots ih =>
    rw [List.range_succ, List.map_append, List.foldlM_append] at run
    obtain ⟨v', before, last⟩ := bind_eq_ok.mp run
    obtain ⟨w, step, same⟩ := bind_eq_ok.mp last
    cases same
    exact (ih before).step step

/-- After linking all statements have adopted what they list. Owners of parameters come later and
touch no statement. -/
theorem adopted_of_link (link : u.link = .ok v) : u.Adopted u.statements.size v := by
  obtain ⟨w, adopts, owns⟩ := bind_eq_ok.mp link
  have kept := statements_of_foldlM (fun _ _ _ => statements_of_own) owns
  intro slot
  rw [kept]
  exact Adopted.run adopts slot

/-- In a linked unit a statement is around another one if it is the last that lists it, or if no
statement lists it and it was stored as its parent. -/
theorem within_link_iff (link : u.link = .ok v) {inner outer : StmtId}
    (inside : u.Holds .statements inner.index) :
    v.Within inner outer ↔
      u.ListsLast outer inner ∨ (u.Unlisted inner ∧ u.Within inner outer) := by
  have adopted := adopted_of_link link inner.index
  rw [Array.getElem?_eq_getElem inside, Option.map_some] at adopted
  have linked := statement_eq_ok_iff.mpr adopted
  have original := statement_eq_ok_iff.mpr (Array.getElem?_eq_getElem inside)
  unfold Within parentStmt
  rw [linked, original, ok_bind, ok_bind]
  show Except.ok _ = Except.ok _ ↔ _ ∨ _ ∧ Except.ok _ = Except.ok _
  rw [Except.ok.injEq, Except.ok.injEq, parentBelow_eq_some_iff]
  refine or_congr ?_ (and_congr_left fun _ => ?_)
  · constructor
    · rintro ⟨lists, -, last⟩
      exact ⟨lists, fun other ofOther => last other ofOther ofOther.index_lt_size⟩
    · rintro ⟨lists, last⟩
      exact ⟨lists, lists.index_lt_size, fun other ofOther _ => last other ofOther⟩
  · constructor
    · intro none other lists
      exact absurd lists.index_lt_size (Nat.not_lt.mpr (none other lists))
    · intro unlisted other lists
      exact absurd lists (unlisted other)

-- ============================================================ circles

/-- The walk outwards from a statement comes to one that has nothing around it. -/
def ReachesRoot (u : TranslationUnit) (s : StmtId) : Prop :=
  ∃ root, ReflTransGen u.Within s root ∧ u.parentStmt root = .ok none

/-- From a circle the walk outwards never leaves it: a statement has one parent. -/
theorem circle_of_reached {s r : StmtId} (circle : TransGen u.Within s s)
    (chain : ReflTransGen u.Within s r) : TransGen u.Within r r := by
  induction chain with
  | refl => exact circle
  | @tail a b _ step ih =>
    obtain ⟨b', step', back⟩ := TransGen.head'_iff.mp ih
    have same : b' = b := by
      unfold Within at step step'
      rw [step] at step'
      cases step'
      rfl
    rw [same] at back
    exact TransGen.tail' back step

/-- From a statement on a circle every walk goes round. -/
private theorem not_reachesRoot_of_circle {s : StmtId} (circle : TransGen u.Within s s) :
    ¬ u.ReachesRoot s := by
  rintro ⟨root, chain, isRoot⟩
  obtain ⟨outer, step, -⟩ := TransGen.head'_iff.mp (circle_of_reached circle chain)
  unfold Within at step
  rw [isRoot] at step
  cases step

/-- Walks outwards come to an end if and only if there are no circles. -/
theorem Consistent.parentsFounded_iff (c : u.Consistent) :
    u.ParentsFounded ↔ ∀ s : StmtId, u.Holds .statements s.index → u.ReachesRoot s := by
  constructor
  · intro founded s inside
    obtain ⟨stmtRank, ranked⟩ := c.exists_stmtsRanked founded
    induction rank : stmtRank s using Nat.strongRecOn generalizing s with
    | _ n ih =>
      obtain ⟨parent, look, -⟩ := (c.parentStmt_ends inside).answer
      cases parent with
      | none => exact ⟨s, .refl, look⟩
      | some outer =>
        have falls := ranked.parent s outer look
        obtain ⟨root, chain, isRoot⟩ :=
          ih (stmtRank outer) (by omega) outer (c.holds_of_within look) rfl
        exact ⟨root, .head look chain, isRoot⟩
  · intro reaches s circle
    obtain ⟨outer, step, -⟩ := TransGen.head'_iff.mp circle
    exact not_reachesRoot_of_circle circle (reaches s step.inside)

/-- Children come before the statement that lists them. -/
theorem Consistent.index_lt_of_lists (c : u.Consistent) {outer inner : StmtId}
    (lists : u.Lists outer inner) : inner.index < outer.index := by
  obtain ⟨s, look, child⟩ := lists
  have fits := c.statement_ends (π := fun _ => False) (holds_of_entry look)
  rw [look] at fits
  exact (fits.children inner child).2

/-- Along a chain of a linked unit the slots rise, unless it passes through a statement that nobody
lists. -/
theorem unlisted_or_rises (c : u.Consistent) (link : u.link = .ok v) (same : u.SameSizes v)
    {a b : StmtId} (chain : TransGen v.Within a b) :
    (∃ m, u.Unlisted m ∧ ReflTransGen v.Within a m ∧ TransGen v.Within m b)
      ∨ a.index < b.index := by
  have rises {inner outer : StmtId} (step : v.Within inner outer) :
      u.Unlisted inner ∨ inner.index < outer.index := by
    rcases (within_link_iff link (same.holds_iff.mp step.inside)).mp step with last | stored
    · exact .inr (c.index_lt_of_lists last.1)
    · exact .inl stored.1
  induction chain with
  | @single b step =>
    rcases rises step with unlisted | rise
    · exact .inl ⟨a, unlisted, .refl, .single step⟩
    · exact .inr rise
  | @tail b d chain step ih =>
    rcases ih with ⟨m, unlisted, before, after⟩ | below
    · exact .inl ⟨m, unlisted, before, after.tail step⟩
    · rcases rises step with unlisted | rise
      · exact .inl ⟨b, unlisted, chain.to_reflTransGen, .single step⟩
      · exact .inr (Nat.lt_trans below rise)

/-- A linked unit has no circles if none passes through a statement that nobody lists. -/
theorem parentsFounded_link_iff (c : u.Consistent) (link : u.link = .ok v) (same : u.SameSizes v) :
    v.ParentsFounded ↔ ∀ s, u.Unlisted s → ¬ TransGen v.Within s s := by
  constructor
  · exact fun founded s _ => founded s
  · intro noCircle s circle
    rcases unlisted_or_rises c link same circle with ⟨m, unlisted, before, after⟩ | rise
    · exact noCircle m unlisted (TransGen.trans_left after before)
    · exact Nat.lt_irrefl _ rise

-- ============================================================ linked units

/-- In a linked unit the statement around another one is the last that lists it, and where none does
the one that was stored. Every walk outwards ends at a statement with nothing around it if and only
if no statement that nobody lists stands inside itself, and then every question whether one local
outlives another has an answer. -/
theorem link_reaches_roots_iff (consistent : u.inconsistency? = none) :
    ∃ linked, u.link = .ok linked ∧ linked.inconsistency? = none
      ∧ (∀ inner outer, u.Holds .statements inner.index →
        (linked.Within inner outer ↔
          u.ListsLast outer inner ∨ (u.Unlisted inner ∧ u.Within inner outer)))
      ∧ ((∀ s : StmtId, u.Holds .statements s.index → linked.ReachesRoot s) ↔
        ∀ s, u.Unlisted s → ¬ TransGen linked.Within s s)
      ∧ ((∀ s, u.Unlisted s → ¬ TransGen linked.Within s s) →
        ∀ source target : VariableId, u.Holds .vars source.index → u.Holds .vars target.index →
          ∃ answer, linked.outlives source target = .ok answer) := by
  have c := inconsistency?_eq_none_iff.mp consistent
  obtain ⟨linked, link, kept⟩ := (link_ends c).answer
  have founded_iff := parentsFounded_link_iff c link kept.sizes
  refine ⟨linked, link, inconsistency?_eq_none_iff.mpr kept.consistent, ?_, ?_, ?_⟩
  · intro inner outer inside
    exact within_link_iff link inside
  · rw [← founded_iff, kept.consistent.parentsFounded_iff]
    exact forall_congr' fun s => imp_congr_left kept.sizes.holds_iff.symm
  · intro noCircle source target inSource inTarget
    obtain ⟨stmtRank, ranked⟩ := kept.consistent.exists_stmtsRanked (founded_iff.mpr noCircle)
    obtain ⟨answer, outlives, -⟩ := (outlives_ends kept.consistent (fun _ => ranked)
      (kept.sizes.holds_iff.mpr inSource) (kept.sizes.holds_iff.mpr inTarget)).answer
    exact ⟨answer, outlives⟩

/-- In the unit with two nested blocks every walk outwards ends. -/
theorem nestedBlocks_reaches_roots :
    nestedBlocks.inconsistency? = none
    ∧ ∃ linked, nestedBlocks.link = .ok linked
      ∧ (∀ s : StmtId, nestedBlocks.Holds .statements s.index → linked.ReachesRoot s)
      ∧ ∃ answer, linked.outlives ⟨0⟩ ⟨1⟩ = .ok answer := by
  have consistent : nestedBlocks.inconsistency? = none := by decide
  obtain ⟨linked, link, consistent', -, reaches, answers⟩ := link_reaches_roots_iff consistent
  have follow : nestedBlocks.link.map parentsFollow = .ok true := rfl
  rw [link] at follow
  have c := inconsistency?_eq_none_iff.mp consistent'
  have founded := c.parentsFounded (Except.ok.inj follow)
  have noCircle (s : StmtId) (_ : nestedBlocks.Unlisted s) : ¬ TransGen linked.Within s s :=
    founded s
  refine ⟨consistent, linked, link, reaches.mpr noCircle, ?_⟩
  exact answers noCircle ⟨0⟩ ⟨1⟩ (by decide) (by decide)

/-- Two declarations that no statement lists, each stored as its own parent. -/
def selfAround : TranslationUnit where
  files := #[⟨"self.cpp", false⟩]
  types := ⟨#[.builtin .int]⟩
  scopes := #[
    { name := none, kind := .translationUnit, parent := none, attributes := .empty }]
  records := #[]
  functions := #[]
  vars := #[
    .declared "a" ⟨⟨0⟩, false⟩ .unknown .localVar,
    .declared "b" ⟨⟨0⟩, false⟩ .unknown .localVar]
  statements := #[
    { parent := some ⟨0⟩, location := .unknown, shape := .declare [⟨0⟩] },
    { parent := some ⟨1⟩, location := .unknown, shape := .declare [⟨1⟩] }]

/-- A consistent unit may have circles after linking, and then a walk outwards need not end. -/
theorem selfAround_walk_is_endless :
    selfAround.inconsistency? = none ∧ ∃ linked, selfAround.link = .ok linked
      ∧ ¬ linked.ReachesRoot ⟨0⟩ ∧ ¬ linked.ReachesRoot ⟨1⟩
      ∧ linked.outlives ⟨0⟩ ⟨1⟩ = .error .endless :=
  ⟨by decide, _, rfl, not_reachesRoot_of_circle (.single rfl),
    not_reachesRoot_of_circle (.single rfl), rfl⟩

end TranslationUnit

end SafeDialect
