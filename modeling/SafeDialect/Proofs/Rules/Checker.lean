/-
A check of a consistent unit stays inside the tables.

Every rule completes from any state of a run, and so do several of them, one after the other. With
running out of depth permitted that says that no index is followed outside its table; with no fault
permitted it says that there is a journal, and that takes a founded unit. Linking keeps the unit
consistent, so the same holds of the linked unit.
-/
import SafeDialect.Proofs.Program.Linked
import SafeDialect.Proofs.Rules.Declarations
import SafeDialect.Proofs.Rules.Flows
import SafeDialect.Rules.Checker

namespace SafeDialect

variable {π : Fault → Prop} {s : Setting}

namespace Rule

private theorem run_completes (c : s.unit.Consistent) (g : Grounds π s.unit) (rule : Rule) :
    Completes π (rule.run s) fun _ => True := by
  cases rule with
  | recordDecl => exact Setting.checkRecords_completes c g.toDepths
  | varDecl => exact Setting.checkVariables_completes c g.toDepths
  | rawPointerAssignment => exact Setting.checkAssignments_completes c g
  | returnValue => exact Setting.checkReturns_completes c g
  | mayExtend => exact Setting.checkExtensions_completes c g
  | determinism => exact Setting.checkDeterminism_completes c g.toDepths

/-- Rules run one after the other, each from whatever the one before it leaves. -/
private theorem runAll_completes (c : s.unit.Consistent) (g : Grounds π s.unit)
    (rules : List Rule) : Completes π (runAll s rules) fun _ => True := by
  induction rules with
  | nil => exact .pure trivial
  | cons rule rest ih =>
    exact .bind .modify fun _ _ => .bind (rule.run_completes c g) fun _ _ => ih

end Rule

namespace TranslationUnit

variable {u : TranslationUnit} {config : Config} {rules : List Rule}

/-- A check of a consistent unit ends, in a journal or in a fault that is permitted. -/
private theorem Consistent.check_ends (c : u.Consistent) (g : Grounds π u) :
    Ends π (u.check config rules) fun _ => True := by
  refine .bind (Setting.of_ends c config) fun s isSetting => ?_
  obtain ⟨rfl, -⟩ := isSetting
  exact .bind (Rule.runAll_completes c g rules .start) fun _ _ => .pure trivial

/-- It never misses an entry. -/
private theorem Consistent.check_ne_missing (c : u.Consistent) (table : Table) (index : Nat) :
    u.check config rules ≠ .error (.missing table index) :=
  (c.check_ends (π := (· = .endless)) (.none rfl)).ne_error nofun

/-- If nothing in the unit contains itself, it ends in a journal. -/
theorem Consistent.exists_journal (c : u.Consistent) (founded : u.Founded) :
    ∃ journal, u.check config rules = .ok journal := by
  obtain ⟨g⟩ := founded.grounds c
  obtain ⟨journal, answer, -⟩ := (c.check_ends g).answer
  exact ⟨journal, answer⟩

/-- A check of a consistent unit follows no index outside its table, and it ends if nothing in the
unit contains itself. Linking a consistent unit succeeds and leaves it consistent, so the same holds
of the linked unit. -/
theorem check_stays_inside (consistent : u.inconsistency? = none) (config : Config)
    (rules : List Rule) :
    (∀ table index, u.check config rules ≠ .error (.missing table index))
    ∧ (u.Founded → ∃ journal, u.check config rules = .ok journal)
    ∧ ∃ linked, u.link = .ok linked ∧ linked.inconsistency? = none
      ∧ (∀ table index, linked.check config rules ≠ .error (.missing table index))
      ∧ (linked.Founded → ∃ journal, linked.check config rules = .ok journal) := by
  have c := inconsistency?_eq_none_iff.mp consistent
  obtain ⟨linked, link, kept⟩ := (link_ends c).answer
  have cLinked := kept.consistent
  refine ⟨c.check_ne_missing, c.exists_journal, linked, link, ?_, cLinked.check_ne_missing,
    cLinked.exists_journal⟩
  exact inconsistency?_eq_none_iff.mpr cLinked

/-- A unit that every rule has something to look at in:

    struct [[naked_struct]] Span { int* first; };
    struct Base {};
    struct Widget : Base {
      safememory::owning_ptr<int> data;
      void keep([[may_extend_to_this]] int* callback);
      int* first(Widget& other) { int local; int* p; p = &local; other.keep([this] {}); return p; }
    };

Its statements and variables are not linked yet. -/
def widget : TranslationUnit where
  files := #[⟨"widget.cpp", false⟩]
  types := ⟨#[.builtin .int, .pointer ⟨⟨0⟩, false⟩, .record ⟨0⟩, .record ⟨1⟩, .record ⟨2⟩,
    .record ⟨3⟩, .lvalueReference ⟨⟨5⟩, false⟩, .builtin .void]⟩
  scopes := #[
    { name := none, kind := .translationUnit, parent := none, attributes := .empty },
    { name := some "safememory", kind := .nameSpace, parent := some ⟨0⟩, attributes := .empty },
    { name := some "Widget", kind := .record ⟨3⟩, parent := some ⟨0⟩, attributes := .empty }]
  records :=
    let place : Location := ⟨some ⟨0⟩, ⟨0, 0⟩⟩
    #[{ RecordDecl.declared "owning_ptr" ⟨1⟩ .unknown with
        templateArgs := [.type ⟨⟨0⟩, false⟩] },
      { RecordDecl.declared "Span" ⟨0⟩ place with
        definition := some ⟨[⟨"first", ⟨⟨1⟩, false⟩, place, false⟩], [], []⟩
        attributes := .ofList [.nakedStruct] },
      { RecordDecl.declared "Base" ⟨0⟩ place with definition := some .empty },
      { RecordDecl.declared "Widget" ⟨0⟩ place with
        definition := some ⟨[⟨"data", ⟨⟨2⟩, false⟩, place, false⟩], [⟨⟨⟨4⟩, false⟩, place⟩],
          [⟨0⟩, ⟨1⟩]⟩ }]
  functions :=
    let place : Location := ⟨some ⟨0⟩, ⟨0, 0⟩⟩
    #[{ FunctionDecl.declared "keep" ⟨2⟩ place .method ⟨⟨7⟩, false⟩ with
        parent := some ⟨3⟩
        params := [⟨0⟩] },
      { FunctionDecl.declared "first" ⟨2⟩ place .method ⟨⟨1⟩, false⟩ with
        parent := some ⟨3⟩
        params := [⟨1⟩]
        body := some ⟨5⟩ }]
  vars :=
    let place : Location := ⟨some ⟨0⟩, ⟨0, 0⟩⟩
    #[{ VariableDecl.declared "callback" ⟨⟨1⟩, false⟩ place .param with
        attributes := .ofList [.mayExtendToThis] },
      .declared "other" ⟨⟨6⟩, false⟩ place .param,
      .declared "local" ⟨⟨0⟩, false⟩ place .localVar,
      .declared "p" ⟨⟨1⟩, false⟩ place .localVar]
  statements :=
    let place : Location := ⟨some ⟨0⟩, ⟨0, 0⟩⟩
    let name (slot type : Nat) : Expr := .mk place ⟨⟨type⟩, false⟩ (.declRef (.variableRef ⟨slot⟩))
    let pointer (node : Node) : Expr := .mk place ⟨⟨1⟩, false⟩ node
    let stmt (shape : StmtShape) : Stmt := ⟨none, place, shape⟩
    #[stmt (.declare [⟨2⟩]),
      stmt (.declare [⟨3⟩]),
      stmt (.evaluate (pointer (.binary .assign (name 3 1)
        (pointer (.unary .addressOf (name 2 0)))))),
      stmt (.evaluate (.mk place ⟨⟨7⟩, false⟩ (.memberCall (some ⟨0⟩) (name 1 5) false
        [pointer (.lambda ⟨none, [⟨.thisPointer, place⟩]⟩)]))),
      stmt (.giveBack (some (name 3 1))),
      stmt (.compound [⟨0⟩, ⟨1⟩, ⟨2⟩, ⟨3⟩, ⟨4⟩])]

/-- All rules end on the widget and on the linked widget, with every index inside its table. -/
theorem widget_check_stays_inside :
    widget.inconsistency? = none ∧ widget.Founded
    ∧ (∀ table index, widget.check .default Rule.all ≠ .error (.missing table index))
    ∧ (∃ journal, widget.check .default Rule.all = .ok journal)
    ∧ ∃ linked, widget.link = .ok linked ∧ linked.inconsistency? = none ∧ linked.Founded
      ∧ (∀ table index, linked.check .default Rule.all ≠ .error (.missing table index))
      ∧ ∃ journal, linked.check .default Rule.all = .ok journal := by
  have consistent : widget.inconsistency? = none := by decide
  have founded := (inconsistency?_eq_none_iff.mp consistent).founded (by decide)
  obtain ⟨inside, ends, linked, link, consistent', inside', ends'⟩ :=
    check_stays_inside consistent .default Rule.all
  -- linking adds parents, so the linked widget has to be looked at again
  have layered : widget.link.map isLayered = .ok true := rfl
  rw [link] at layered
  have founded' := (inconsistency?_eq_none_iff.mp consistent').founded (Except.ok.inj layered)
  exact ⟨consistent, founded, inside, ends founded, linked, link, consistent', founded', inside',
    ends' founded'⟩

end TranslationUnit

end SafeDialect
