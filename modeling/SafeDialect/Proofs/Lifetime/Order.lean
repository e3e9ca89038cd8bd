/-
The longer a place lives, the fewer values may flow into it.

Only variables look at the extent. So if every variable that is accepted for one extent is accepted
for another, the same holds of every value: the two checks go through an expression side by side,
and an accepted value is accepted without a word. Between two locals this is the transitivity of the
walk outwards through nested blocks.

Nothing here asks the unit to be consistent: what one check has looked up successfully is there for
the other.
-/
import SafeDialect.Proofs.Lifetime.Flow

namespace SafeDialect

open Relation

-- ============================================================ two checks side by side

/-- If the first step answers yes, so does the second, wherever it is started and silently. -/
def Admits (act act' : Speak Bool) : Prop :=
  ∀ voice voice', act.run voice = .ok (true, voice') →
    ∀ other, act'.run other = .ok (true, other)

namespace Admits

variable {α : Type} {act act' next next' : Speak Bool}

/-- A yes admits whatever the other says. -/
theorem yes : Admits act (pure true) := fun _ _ _ _ => rfl

/-- A no is admitted by everything. -/
theorem no : Admits (pure false) act' := by
  intro voice voice' accepts
  cases accepts

/-- And so is a complaint, which comes with a no. -/
theorem complaint {location : Location} :
    Admits (do Speak.internalError location; return false) act' := by
  intro voice voice' accepts
  cases accepts

/-- Look-ups that have a yes in common. -/
theorem lift {x y : Result Bool} (h : x = .ok true → y = .ok true) :
    Admits (liftM x) (liftM y) := by
  intro voice voice' accepts other
  cases x with
  | error fault => cases accepts
  | ok answer =>
    cases accepts
    rw [h rfl]
    rfl

/-- Both steps start with the same look-up. -/
theorem look {x : Result α} {f g : α → Speak Bool}
    (h : ∀ a, x = .ok a → Admits (f a) (g a)) : Admits (liftM x >>= f) (liftM x >>= g) := by
  cases x with
  | error fault =>
    intro voice voice' accepts
    cases accepts
  | ok a => exact h a rfl

/-- Two checks admit what they admit one by one. -/
theorem and (first : Admits act act') (second : Admits next next') :
    Admits (do if ← act then next else return false)
      (do if ← act' then next' else return false) := by
  intro voice voice' accepts other
  obtain ⟨⟨answer, between⟩, run, rest⟩ := bind_eq_ok.mp accepts
  cases answer with
  | false => cases rest
  | true =>
    have run' := first voice between run other
    have rest' := second between voice' rest other
    show (act'.run other >>= fun p => (if p.1 then next' else pure false).run p.2) = _
    rw [run']
    exact rest'

end Admits

-- ============================================================ expressions

section Expressions

variable {s : Setting} {x y : Extent}

private theorem allFlow_admits {l : List Expr}
    (each : ∀ e ∈ l, Admits (e.flows s x) (e.flows s y)) :
    Admits (Expr.allFlow s x l) (Expr.allFlow s y l) := by
  induction l with
  | nil => exact .yes
  | cons head tail ih =>
    unfold Expr.allFlow
    refine .and (each head List.mem_cons_self) (ih fun e mem => ?_)
    exact each e (List.mem_cons_of_mem _ mem)

private theorem argsFlow_admits {args : List Expr} {params : List VariableId}
    (each : ∀ e ∈ args, Admits (e.flows s x) (e.flows s y)) :
    Admits (Expr.argsFlow s x args params) (Expr.argsFlow s y args params) := by
  induction args generalizing params with
  | nil =>
    cases params with
    | nil => exact .yes
    | cons => exact .no
  | cons arg args ih =>
    cases params with
    | nil => exact .no
    | cons param params =>
      unfold Expr.argsFlow
      refine .look fun _ _ => .and (each arg List.mem_cons_self) (ih fun e mem => ?_)
      exact each e (List.mem_cons_of_mem _ mem)

/-- A call on a receiver: both checks stop at a smart pointer. -/
theorem onReceiver_admits {receiver : Expr} {args : List Expr} {params : List VariableId}
    (ofReceiver : Admits (receiver.flows s x) (receiver.flows s y))
    (each : ∀ e ∈ args, Admits (e.flows s x) (e.flows s y)) :
    Admits (do
        if ← s.isSafePtr receiver.type then return true
        else if ← receiver.flows s x then Expr.argsFlow s x args params
        else return false)
      (do
        if ← s.isSafePtr receiver.type then return true
        else if ← receiver.flows s y then Expr.argsFlow s y args params
        else return false) := by
  refine .look fun isPointer _ => ?_
  cases isPointer with
  | true => exact .yes
  | false => exact .and ofReceiver (argsFlow_admits each)

/-- A value is accepted for an extent if it is accepted for another one for which no more variables
are accepted. -/
theorem Expr.flows_admits
    (ofVariable : ∀ id, s.unit.variableFlows x id = .ok true → s.unit.variableFlows y id = .ok true)
    (e : Expr) : Admits (e.flows s x) (e.flows s y) := by
  induction e using Expr.induction_on_parts with
  | step e ih =>
    cases e with
    | mk location type node =>
      have part (p : Expr) (mem : p ∈ node.children) : Admits (p.flows s x) (p.flows s y) :=
        ih p mem
      unfold Expr.flows
      cases node with
      | nullPointer | integer | thisObject => exact .yes
      | lambda => exact .no
      | unsupported => exact .complaint
      | declRef target =>
        cases target with
        -- nothing else in an expression looks at the extent
        | variableRef id => exact .lift (ofVariable id)
        | functionRef => exact .no
        | fieldRef => exact .complaint
      | member inner | unary _ inner | cast _ inner | paren inner | defaultArgument inner
      | materializeTemporary inner | bindTemporary inner | withCleanups inner =>
        exact part inner List.mem_cons_self
      | binary op lhs rhs =>
        exact .and (part lhs (by simp [Node.children])) (part rhs (by simp [Node.children]))
      | conditional condition thenExpr elseExpr =>
        exact .and (part thenExpr (by simp [Node.children]))
          (part elseExpr (by simp [Node.children]))
      | construct callee args => exact allFlow_admits part
      | freeCall callee args =>
        cases callee with
        | none => exact .no
        | some callee => exact .look fun _ _ => argsFlow_admits part
      | memberCall callee base isArrow args =>
        cases callee with
        | none => exact .no
        | some callee =>
          refine .look fun _ _ => onReceiver_admits (part base List.mem_cons_self) fun e mem => ?_
          exact part e (List.mem_cons_of_mem _ mem)
      | operatorCall callee args =>
        cases callee with
        | none => exact .no
        | some callee =>
          refine .look fun f _ => ?_
          cases f.isInstanceMethod with
          | false => exact argsFlow_admits part
          | true =>
            cases args with
            | nil => exact .complaint
            | cons receiver args =>
              refine onReceiver_admits (part receiver List.mem_cons_self) fun e mem => ?_
              exact part e (List.mem_cons_of_mem _ mem)

end Expressions

-- ============================================================ nested blocks

namespace TranslationUnit

variable {u : TranslationUnit}

/-- A variable is declared by a statement. -/
def DeclaredBy (u : TranslationUnit) (id : VariableId) (stmt : StmtId) : Prop :=
  ∃ v, u.variableDecl id = .ok v ∧ v.declStmt = some stmt

/-- A walk outwards that finds a statement has gone along a chain to it. -/
theorem reached_of_isAround {outer id : StmtId} {steps : Nat}
    (found : u.isAround outer steps (some id) = .ok true) : ReflTransGen u.Within id outer := by
  induction steps generalizing id with
  | zero => cases found
  | succ steps ih =>
    unfold isAround at found
    by_cases here : id = outer
    · rw [here]
    · rw [if_neg here] at found
      cases look : u.parentStmt id with
      | error fault =>
        rw [look] at found
        cases found
      | ok parent =>
        rw [look] at found
        cases parent with
        | none =>
          unfold isAround at found
          cases found
        | some next => exact .head look (ih found)

/-- A walk outwards with enough steps left finds what a chain leads to. A statement at the end of
the chain may lie outside the table: it is compared before it is looked up. -/
theorem isAround_of_reached {stmtRank : StmtId → Nat}
    (falls : ∀ a b, u.Within a b ∧ u.Holds .statements b.index → stmtRank b < stmtRank a)
    {outer id : StmtId} (chain : ReflTransGen u.Within id outer) {steps : Nat}
    (positive : 0 < steps) (enough : u.Holds .statements id.index → stmtRank id + 1 < steps) :
    u.isAround outer steps (some id) = .ok true := by
  induction chain using ReflTransGen.head_induction_on generalizing steps with
  | refl =>
    cases steps with
    | zero => omega
    | succ steps =>
      unfold isAround
      rw [if_pos rfl]
  | @head id next step _ ih =>
    cases steps with
    | zero => omega
    | succ steps =>
      have bound := enough step.inside
      unfold isAround
      by_cases here : id = outer
      · rw [if_pos here]
      · rw [if_neg here, show u.parentStmt id = .ok (some next) from step]
        refine ih (by omega) fun inside => ?_
        have fall := falls id next ⟨step, inside⟩
        omega

private theorem isAround_iff (founded : u.ParentsFounded) {outer id : StmtId} :
    u.isAround outer (u.statements.size + 1) (some id) = .ok true ↔
      ReflTransGen u.Within id outer := by
  constructor
  · exact reached_of_isAround
  · intro chain
    have acyclic (a : StmtId) :
        ¬ TransGen (fun a b => u.Within a b ∧ u.Holds .statements b.index) a a := by
      intro circle
      exact founded a (TransGen.mono (fun _ _ step => step.1) _ _ circle)
    obtain ⟨stmtRank, falls, below⟩ :=
      exists_rank u.statements.size StmtId.index_injective (fun _ _ step => step.2) acyclic
    refine isAround_of_reached falls chain (Nat.succ_pos _) fun inside => ?_
    have := below id inside
    omega

/-- A local outlives another one if the statement around its declaration is around the declaration
of the other, however far out. -/
theorem outlives_iff (founded : u.ParentsFounded) {source target : VariableId} :
    u.outlives source target = .ok true ↔
      ∃ sourceStmt targetStmt block, u.DeclaredBy source sourceStmt
        ∧ u.DeclaredBy target targetStmt ∧ u.Within sourceStmt block
        ∧ TransGen u.Within targetStmt block := by
  constructor
  · intro outlives
    obtain ⟨v, lookV, outlives⟩ := bind_eq_ok.mp outlives
    obtain ⟨w, lookW, outlives⟩ := bind_eq_ok.mp outlives
    dsimp only at outlives
    split at outlives
    · next sourceStmt targetStmt declared declared' =>
      obtain ⟨block?, around, outlives⟩ := bind_eq_ok.mp outlives
      cases block? with
      | none => cases outlives
      | some block =>
        obtain ⟨start?, around', outlives⟩ := bind_eq_ok.mp outlives
        cases start? with
        | none =>
          unfold isAround at outlives
          cases outlives
        | some start =>
          have chain := (isAround_iff founded).mp outlives
          exact ⟨sourceStmt, targetStmt, block, ⟨v, lookV, declared⟩, ⟨w, lookW, declared'⟩, around,
            .head' around' chain⟩
    · cases outlives
  · rintro ⟨sourceStmt, targetStmt, block, ⟨v, lookV, declared⟩, ⟨w, lookW, declared'⟩, around,
      chain⟩
    obtain ⟨start, around', chain⟩ := TransGen.head'_iff.mp chain
    unfold Within at around around'
    unfold outlives
    rw [lookV, lookW, ok_bind, ok_bind]
    dsimp only
    rw [declared, declared']
    dsimp only
    rw [around, around', ok_bind]
    exact (isAround_iff founded).mpr chain

/-- What outlives a local that outlives another one outlives that one. -/
theorem outlives_trans (founded : u.ParentsFounded) {a b d : VariableId}
    (first : u.outlives a b = .ok true) (second : u.outlives b d = .ok true) :
    u.outlives a d = .ok true := by
  obtain ⟨ofA, ofB, block, declaredA, ⟨v, look, isB⟩, around, chain⟩ :=
    (outlives_iff founded).mp first
  obtain ⟨ofB', ofD, block', ⟨v', look', isB'⟩, declaredD, around', chain'⟩ :=
    (outlives_iff founded).mp second
  -- both name the statement that declares `b`, and the chain from it starts with its parent
  rw [look] at look'
  cases look'
  rw [isB] at isB'
  cases isB'
  obtain ⟨next, step, rest⟩ := TransGen.head'_iff.mp chain
  unfold Within at step around'
  rw [around'] at step
  cases step
  exact (outlives_iff founded).mpr
    ⟨ofA, ofD, block, declaredA, declaredD, around, chain'.trans_left rest⟩

end TranslationUnit

-- ============================================================ longer and shorter extents

/-- A value is accepted for an extent: the check answers yes. -/
def Setting.Accepts (s : Setting) (x : Extent) (e : Expr) : Prop :=
  ∃ voice voice', (s.mayFlow x e).run voice = .ok (true, voice')

variable {s : Setting} {x y : Extent}

/-- Nothing is accepted for an extent that is not understood. -/
theorem mayFlow_unknown {e : Expr} {voice : Voice} :
    (s.mayFlow .unknown e).run voice = .ok (false, voice) := rfl

/-- Nothing is accepted for an extent that is not known. -/
theorem Setting.Accepts.known {e : Expr} (accepts : s.Accepts x e) : x ≠ .unknown := by
  obtain ⟨voice, voice', run⟩ := accepts
  intro unknown
  rw [unknown, mayFlow_unknown] at run
  cases run

/-- Acceptance goes over to an extent for which no fewer variables are accepted, and there it is
silent. -/
theorem Setting.Accepts.run {e : Expr} (accepts : s.Accepts x e) (known : y ≠ .unknown)
    (ofVariable : ∀ id, s.unit.VariableFlows x id → s.unit.VariableFlows y id) (voice : Voice) :
    (s.mayFlow y e).run voice = .ok (true, voice) := by
  have known' := accepts.known
  obtain ⟨before, after, run⟩ := accepts
  unfold mayFlow at run ⊢
  rw [if_neg known'] at run
  rw [if_neg known]
  refine Expr.flows_admits (fun id flows => ?_) e before after run voice
  rw [variableFlows_iff known'] at flows
  rw [variableFlows_iff known]
  exact ofVariable id flows

/-- What is accepted for one extent is accepted for another that takes all variables that flow into
it. -/
theorem Setting.Accepts.mono {e : Expr} (accepts : s.Accepts x e) (known : y ≠ .unknown)
    (ofVariable : ∀ id, s.unit.VariableFlows x id → s.unit.VariableFlows y id) : s.Accepts y e :=
  ⟨.silent, .silent, accepts.run known ofVariable .silent⟩

/-- What lives as long as the program or may extend to the object flows into every extent. So only
parameters and locals are to be compared. -/
theorem TranslationUnit.VariableFlows.mono {u : TranslationUnit} {id : VariableId}
    (flows : u.VariableFlows x id) (param : x ≠ .object → y ≠ .object)
    (ofLocal : ∀ target, x = .localVar target → u.outlives id target = .ok true →
      ∃ target', y = .localVar target' ∧ u.outlives id target' = .ok true) :
    u.VariableFlows y id := by
  obtain ⟨v, look, flows⟩ := flows
  rcases flows with shared | extends_ | ⟨isParam, notObject⟩ | ⟨notParam, target, isLocal, outlives⟩
  · exact ⟨v, look, .inl shared⟩
  · exact ⟨v, look, .inr (.inl extends_)⟩
  · exact ⟨v, look, .inr (.inr (.inl ⟨isParam, param notObject⟩))⟩
  · exact ⟨v, look, .inr (.inr (.inr ⟨notParam, ofLocal target isLocal outlives⟩))⟩

/-- The longer a place lives the fewer values are accepted for it: what is accepted for the object
is accepted for the parameters, what is accepted for those is accepted for every local, and what is
accepted for a local is accepted for every local that it outlives. An accepted value is accepted
from every voice and without a word. Nothing is accepted for an extent that is not understood. -/
theorem accepts_of_longer_lived (s : Setting) (founded : s.unit.ParentsFounded) (e : Expr) :
    (s.Accepts .object e → s.Accepts .parameter e)
    ∧ (∀ a, s.Accepts .parameter e → s.Accepts (.localVar a) e)
    ∧ (∀ a b, s.unit.outlives a b = .ok true → s.Accepts (.localVar a) e →
      s.Accepts (.localVar b) e)
    ∧ (∀ x, s.Accepts x e → ∀ voice, (s.mayFlow x e).run voice = .ok (true, voice))
    ∧ ∀ voice, (s.mayFlow .unknown e).run voice = .ok (false, voice) := by
  refine ⟨?_, ?_, ?_, ?_, fun voice => mayFlow_unknown⟩
  · intro accepts
    exact accepts.mono nofun fun _ flows => flows.mono (absurd rfl) nofun
  · intro a accepts
    exact accepts.mono nofun fun _ flows => flows.mono nofun nofun
  · intro a b outlives accepts
    refine accepts.mono nofun fun id flows => flows.mono nofun fun target same longer => ?_
    cases same
    exact ⟨b, rfl, TranslationUnit.outlives_trans founded longer outlives⟩
  · intro x accepts voice
    exact accepts.run accepts.known (fun _ flows => flows) voice

open TranslationUnit in
/-- The address of the outer local is accepted for the outer local itself, and so for the inner one,
which it outlives. -/
theorem outer_accepted_for_inner :
    let s : Setting := ⟨nestedBlocks, .default, []⟩
    let outer : Expr := .mk .unknown ⟨⟨1⟩, false⟩
      (.unary .addressOf (.mk .unknown ⟨⟨0⟩, false⟩ (.declRef (.variableRef ⟨0⟩))))
    nestedBlocks.ParentsFounded ∧ nestedBlocks.outlives ⟨0⟩ ⟨1⟩ = .ok true
      ∧ s.Accepts (.localVar ⟨0⟩) outer ∧ s.Accepts (.localVar ⟨1⟩) outer := by
  intro s outer
  have c := inconsistency?_eq_none_iff.mp (show nestedBlocks.inconsistency? = none by decide)
  have founded := c.parentsFounded (by decide)
  have outlives : nestedBlocks.outlives ⟨0⟩ ⟨1⟩ = .ok true := rfl
  have accepts : s.Accepts (.localVar ⟨0⟩) outer := ⟨.silent, .silent, rfl⟩
  exact ⟨founded, outlives, accepts,
    (accepts_of_longer_lived s founded outer).2.2.1 ⟨0⟩ ⟨1⟩ outlives accepts⟩

end SafeDialect
