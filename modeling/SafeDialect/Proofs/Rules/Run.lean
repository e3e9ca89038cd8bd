/-
The steps of a run on a consistent unit.

A rule asks for verdicts, goes through bodies and follows flows. Each of these completes: every
index that is followed leads to an entry, and if the unit is founded there is an answer. What the
verdicts rest on is collected in `Depths`, what the rules rest on in `Grounds`.
-/
import SafeDialect.Proofs.Classifier.Judge
import SafeDialect.Proofs.Lifetime.Flow
import SafeDialect.Proofs.Program.Body
import SafeDialect.Rules.Run

namespace SafeDialect

variable {π : Fault → Prop}

-- ============================================================ grounds

/-- What verdicts rest on: ranks that fall along the parts of types and the naked members, unless
running out of depth is permitted. -/
structure Depths (π : Fault → Prop) (u : TranslationUnit) extends Bound π u where
  naked : ¬ π .endless → u.NakedRanked nakedRank

/-- What runs rest on: ranks that fall along everything that a rule follows. -/
structure Grounds (π : Fault → Prop) (u : TranslationUnit) extends Depths π u where
  stmtRank : StmtId → Nat
  stmts : ¬ π .endless → u.StmtsRanked stmtRank
  baseRank : RecordId → Nat
  bases : ¬ π .endless → u.BasesRanked baseRank

/-- Where running out of depth is permitted nothing has to fall. -/
def Grounds.none {u : TranslationUnit} (permitted : π .endless) : Grounds π u where
  toDepths := ⟨.none permitted, absurd permitted⟩
  stmtRank _ := 0
  stmts := absurd permitted
  baseRank _ := 0
  bases := absurd permitted

/-- Verdicts rest on no more than the parts of types and the naked members. -/
theorem TranslationUnit.Consistent.depths {u : TranslationUnit} (c : u.Consistent)
    (types : u.TypesFounded) (naked : u.NakedFounded) : Nonempty (Depths π u) := by
  obtain ⟨typeRank, types⟩ := c.exists_ranked types
  obtain ⟨nakedRank, naked⟩ := exists_nakedRanked naked
  exact ⟨⟨typeRank, nakedRank, fun _ => types⟩, fun _ => naked⟩

/-- A founded unit has grounds. -/
theorem TranslationUnit.Founded.grounds {u : TranslationUnit} (c : u.Consistent)
    (founded : u.Founded) : Nonempty (Grounds π u) := by
  obtain ⟨depths⟩ := c.depths founded.types founded.naked
  obtain ⟨stmtRank, stmts⟩ := c.exists_stmtsRanked founded.parents
  obtain ⟨baseRank, bases⟩ := c.exists_basesRanked founded.bases
  exact ⟨depths, stmtRank, fun _ => stmts, baseRank, fun _ => bases⟩

variable {s : Setting} (c : s.unit.Consistent)

-- ============================================================ the ledger

namespace Ledger

variable {a : Aspect} {t : QualifiedType} (g : Depths π s.unit)
  (inside : s.unit.Holds .types t.id.index)
include c g inside

/-- A classification ends, at the depth of the inspector. -/
theorem classify_ends {voice : Voice} : Ends π (classify s voice a t) fun _ => True := by
  have answers := Inspector.judge_yields (i := ⟨s, false⟩) c g.toBound a inside
    fun strict _ => g.naked strict
  exact Ends.bind (answers (.start voice) ⟨rfl, rfl⟩) fun _ _ => .pure trivial

private theorem verdictOn_ends {l : Ledger} : Ends π (verdictOn s l a t) fun _ => True := by
  unfold verdictOn
  split
  · exact .pure trivial
  · exact .bind (classify_ends c g inside) fun _ _ => .pure trivial

/-- A verdict is found in the ledger or classified. -/
private theorem verdict_ends {l : Ledger} : Ends π (l.verdict s a t) fun _ => True := by
  refine .bind (c.canonical_ends inside) fun t' ⟨inside', _⟩ => ?_
  exact verdictOn_ends c g inside'

/-- Reasons are given by another classification, if they are given. -/
theorem explain_ends {l : Ledger} : Ends π (l.explain s a t) fun _ => True := by
  refine .bind (c.canonical_ends inside) fun t' ⟨inside', _⟩ => ?_
  refine .bind (verdictOn_ends c g inside') fun ⟨verdict, l⟩ _ => ?_
  dsimp only
  split
  · exact .bind (classify_ends c g inside') fun _ _ => .pure trivial
  · exact .pure trivial

end Ledger

-- ============================================================ steps

namespace Check

variable {α : Type}

theorem error_completes {location : Location} {message : String} :
    Completes π (error location message) fun _ => True := .modify

theorem note_completes {location : Location} {message : String} :
    Completes π (note location message) fun _ => True := .modify

/-- A question, and an error if the answer is bad. -/
theorem orError_completes {act : Check α} {post : α → Prop} {passes : α → Bool}
    {location : Location} {message : String} (h : Completes π act post) :
    Completes π (do
      if passes (← act) then return ⟨⟩
      else error location message) fun _ => True := by
  refine .bind h fun answer _ => ?_
  split
  · exact .pure trivial
  · exact error_completes

/-- A quiet inspection starts from a fresh session, so it only has to end from there. -/
theorem quiet_completes {act : Inspect α} {post : α → Prop} (h : Yields π [] false act post) :
    Completes π (quiet act) fun _ => True :=
  fun _ => .lift_bind (h (.start .silent) ⟨rfl, rfl⟩) fun _ _ _ => .pure trivial

/-- And so has one that gives reasons. -/
theorem errorExplainedBy_completes {act : Inspect α} {post : α → Prop} {location : Location}
    {message : String} (h : Yields π [] false act post) :
    Completes π (errorExplainedBy location message act) fun _ => True :=
  fun _ => .lift_bind (h (.start _) ⟨rfl, rfl⟩) fun _ _ _ => .modify trivial

/-- A question that is asked quietly, and once more for the reasons if the answer is bad. -/
theorem passesOrError_completes {act : Inspect α} {post : α → Prop} {passes : α → Bool}
    {location : Location} {message : String} (h : Yields π [] false act post) :
    Completes π (do
      if passes (← quiet act) then return ⟨⟩
      else errorExplainedBy location message act) fun _ => True := by
  refine .bind (quiet_completes h) fun answer _ => ?_
  split
  · exact .pure trivial
  · exact errorExplainedBy_completes h

/-- What is spoken starts from a voice of its own. -/
theorem speak_completes {act : Speak α} {post : α → Prop} (h : Completes π act post) :
    Completes π (speak act) fun _ => True :=
  fun _ => .lift_bind (h (.speaking .note)) fun _ _ _ => .modify_bind (.pure trivial)

variable {a : Aspect} {t : QualifiedType} (g : Depths π s.unit)
  (inside : s.unit.Holds .types t.id.index)
include c g inside

/-- A verdict can be taken from every ledger. -/
theorem verdict_completes : Completes π (verdict s a t) fun _ => True :=
  fun _ => .get_bind (.lift_bind (Ledger.verdict_ends c g inside) fun _ _ _ =>
    .set_bind (.pure trivial))

/-- Reasons can be taken from every ledger. -/
theorem explain_completes : Completes π (explain s a t) fun _ => True :=
  fun _ => .get_bind (.lift_bind (Ledger.explain_ends c g inside) fun _ _ _ =>
    .set_bind (.modify trivial))

end Check

-- ============================================================ user code

namespace Setting

include c

/-- The records of user code are in the unit. -/
theorem userRecords_ends :
    Ends π s.userRecords fun ids => ∀ id ∈ ids, s.unit.Holds .records id.index := by
  have inside {id : RecordId} (mem : id ∈ s.unit.recordIds) : s.unit.Holds .records id.index :=
    TranslationUnit.index_lt_of_mem_slots RecordId.index (fun _ => rfl) mem
  refine Ends.mono (ends_filterM fun id mem => ?_) fun ids sub id mem => inside (sub mem)
  refine .bind (c.record_ends (inside mem)) fun r fits => ?_
  split
  · exact isUserCode_ends c fits.scope
  · exact .pure trivial

/-- And so are its functions. -/
theorem userFunctions_ends :
    Ends π s.userFunctions fun ids => ∀ id ∈ ids, s.unit.Holds .functions id.index := by
  have inside {id : FunctionId} (mem : id ∈ s.unit.functionIds) :
      s.unit.Holds .functions id.index :=
    TranslationUnit.index_lt_of_mem_slots FunctionId.index (fun _ => rfl) mem
  refine Ends.mono (ends_filterM fun id mem => ?_) fun ids sub id mem => inside (sub mem)
  refine .bind (c.function_ends (inside mem)) fun f fits => ?_
  split
  · exact isUserCode_ends c fits.scope
  · exact .pure trivial

/-- And its variables. -/
theorem userVariables_ends :
    Ends π s.userVariables fun ids => ∀ id ∈ ids, s.unit.Holds .vars id.index := by
  have inside {id : VariableId} (mem : id ∈ s.unit.variableIds) : s.unit.Holds .vars id.index :=
    TranslationUnit.index_lt_of_mem_slots VariableId.index (fun _ => rfl) mem
  refine Ends.mono (ends_filterM fun id mem => ?_) fun ids sub id mem => inside (sub mem)
  refine .bind (c.variable_ends (inside mem)) fun v fits => ?_
  split
  · next owner known =>
    refine .bind (c.function_ends (fits.function owner known)) fun f fitsF => ?_
    exact isUserCode_ends c fitsF.scope
  · exact .pure trivial

end Setting

end SafeDialect
