/-
Calls on a receiver.

The receiver of a call is the base of a member call, or the first argument of an operator that is an
instance method. Where it is a smart pointer the check stops there: the call is accepted whatever
its arguments are and however many there are. So a pointer to a local that may not flow by itself
does flow through any method of a smart pointer. On every other receiver the arguments count.
-/
import SafeDialect.Proofs.Lifetime.Order

namespace SafeDialect

/-- A call of a known function on a receiver, with its remaining arguments. -/
inductive Setting.CallsOn (s : Setting) : Node → FunctionDecl → Expr → List Expr → Prop
  | member {callee : FunctionId} {f : FunctionDecl} {base : Expr} {isArrow : Bool}
    {args : List Expr} (look : s.unit.function callee = .ok f) :
    s.CallsOn (.memberCall (some callee) base isArrow args) f base args
  | operator {callee : FunctionId} {f : FunctionDecl} {receiver : Expr} {args : List Expr}
    (look : s.unit.function callee = .ok f) (isInstance : f.isInstanceMethod) :
    s.CallsOn (.operatorCall (some callee) (receiver :: args)) f receiver args

variable {s : Setting} {x : Extent} {e receiver : Expr} {f : FunctionDecl} {args : List Expr}

namespace Setting.CallsOn

/-- Both kinds of call pass alike. -/
theorem passes_iff (calls : s.CallsOn e.node f receiver args) :
    s.Passes x e ↔ s.isSafePtr receiver.type = .ok true ∨ s.isSafePtr receiver.type ≠ .ok true
      ∧ s.Passes x receiver ∧ args.length = f.params.length ∧ ∀ arg ∈ args, s.Passes x arg := by
  obtain ⟨location, type, node⟩ := e
  cases calls with
  | member look => exact passes_memberCall_iff look
  | operator look isInstance => exact passes_instanceOperator_iff look isInstance

private theorem mem_children (calls : s.CallsOn e.node f receiver args) :
    ∀ part ∈ receiver :: args, part ∈ e.node.children := by
  obtain ⟨location, type, node⟩ := e
  intro part mem
  cases calls <;> exact mem

end Setting.CallsOn

/-- Acceptance for an extent that is known is told by the nodes that carry the value. -/
theorem Setting.accepts_iff_passes (c : s.unit.Consistent) (known : x ≠ .unknown)
    (fits : e.Fits s.unit) : s.Accepts x e ↔ s.Passes x e := by
  have decides : Decides (fun _ => True) (e.flows s x) (s.Passes x e) :=
    Expr.flows_decides c known fits fun id _ => Ends.always (s.unit.variableFlows x id)
  unfold Accepts mayFlow
  rw [if_neg known]
  constructor
  · rintro ⟨voice, accepts⟩
    exact (decides.true_iff voice).mp accepts
  · intro passes
    exact ⟨.silent, (decides.true_iff .silent).mpr passes⟩

/-- A call on a smart pointer is accepted, silently, for every extent that is known: neither the
receiver nor any argument is looked at, and their number does not matter. A call on any other
receiver is accepted if and only if the receiver is accepted, the remaining arguments are as many as
the parameters and each of them is accepted. -/
theorem receiver_call_accepted_iff {u : TranslationUnit} (consistent : u.inconsistency? = none)
    (config : Config) :
    ∃ s, Setting.of u config = .ok s ∧ ∀ (x : Extent) (e : Expr) (f : FunctionDecl)
      (receiver : Expr) (args : List Expr),
      x ≠ .unknown → e.Fits u → s.CallsOn e.node f receiver args →
      (s.isSafePtr receiver.type = .ok true →
        ∀ voice, (s.mayFlow x e).run voice = .ok (true, voice))
      ∧ (s.isSafePtr receiver.type = .ok false →
        (s.Accepts x e ↔ s.Accepts x receiver ∧ args.length = f.params.length
          ∧ ∀ arg ∈ args, s.Accepts x arg))
      ∧ ∃ isPointer, s.isSafePtr receiver.type = .ok isPointer := by
  have c := TranslationUnit.inconsistency?_eq_none_iff.mp consistent
  obtain ⟨s, setting, rfl, -⟩ := (Setting.of_ends c config).answer
  refine ⟨s, setting, fun x e f receiver args known fits calls => ?_⟩
  have fitsParts : ∀ part ∈ receiver :: args, part.Fits s.unit := fun part mem =>
    (Expr.fits_iff.mp fits).2.2 part (calls.mem_children part mem)
  have accepts_iff {part : Expr} (mem : part ∈ receiver :: args) :
      s.Accepts x part ↔ s.Passes x part :=
    Setting.accepts_iff_passes c known (fitsParts part mem)
  refine ⟨fun pointer voice => ?_, fun plain => ?_, ?_⟩
  · have accepts : s.Accepts x e :=
      (Setting.accepts_iff_passes c known fits).mpr (calls.passes_iff.mpr (.inl pointer))
    exact accepts.run known (fun _ flows => flows) voice
  · rw [Setting.accepts_iff_passes c known fits, calls.passes_iff, accepts_iff List.mem_cons_self]
    have each : (∀ arg ∈ args, s.Accepts x arg) ↔ ∀ arg ∈ args, s.Passes x arg :=
      forall₂_congr fun arg mem => accepts_iff (List.mem_cons_of_mem _ mem)
    simp [plain, each]
  · obtain ⟨isPointer, known, -⟩ := (Setting.isSafePtr_ends c
      (Expr.fits_iff.mp (fitsParts receiver List.mem_cons_self)).1).answer
    exact ⟨isPointer, known⟩

/-- A unit with a smart pointer `owner` that has a method `pick` of one parameter, and a local. -/
def TranslationUnit.pickOfOwner : TranslationUnit where
  files := #[⟨"pick.cpp", false⟩]
  types := ⟨#[.builtin .int, .pointer ⟨⟨0⟩, false⟩, .record ⟨0⟩]⟩
  scopes := #[
    { name := none, kind := .translationUnit, parent := none, attributes := .empty },
    { name := some "safememory", kind := .nameSpace, parent := some ⟨0⟩, attributes := .empty }]
  records := #[{ RecordDecl.declared "owning_ptr" ⟨1⟩ .unknown with
    templateArgs := [.type ⟨⟨0⟩, false⟩] }]
  functions := #[{ FunctionDecl.declared "pick" ⟨1⟩ .unknown .method ⟨⟨1⟩, false⟩ with
    parent := some ⟨0⟩, params := [⟨0⟩] }]
  vars := #[
    { VariableDecl.declared "candidate" ⟨⟨1⟩, false⟩ .unknown .param with function := some ⟨0⟩ },
    .declared "owner" ⟨⟨2⟩, false⟩ .unknown .param,
    { VariableDecl.declared "local" ⟨⟨0⟩, false⟩ .unknown .localVar with declStmt := some ⟨0⟩ }]
  statements := #[{ parent := none, location := .unknown, shape := .declare [⟨2⟩] }]

namespace Expr

/-- The smart pointer `owner`. -/
def owner : Expr := .mk .unknown ⟨⟨2⟩, false⟩ (.declRef (.variableRef ⟨1⟩))

/-- The value `&local`. -/
def localAddress : Expr :=
  .mk .unknown ⟨⟨1⟩, false⟩
    (.unary .addressOf (.mk .unknown ⟨⟨0⟩, false⟩ (.declRef (.variableRef ⟨2⟩))))

/-- The call of `pick` on a receiver, with `&local` for its argument. -/
def pickLocalOf (receiver : Expr) : Expr :=
  .mk .unknown ⟨⟨1⟩, false⟩ (.memberCall (some ⟨0⟩) receiver false [localAddress])

end Expr

open TranslationUnit in
/-- What `owner.pick(&local)` gives is accepted for the object, and what `(&local).pick(&local)`
gives is accepted if and only if `&local` is. -/
theorem pick_accepted_iff :
    pickOfOwner.inconsistency? = none
    ∧ (Expr.pickLocalOf .owner).Fits pickOfOwner ∧ (Expr.pickLocalOf .localAddress).Fits pickOfOwner
    ∧ ∃ s, Setting.of pickOfOwner .default = .ok s ∧ s.isSafePtr Expr.owner.type = .ok true
      ∧ s.isSafePtr Expr.localAddress.type = .ok false
      ∧ (∀ voice, (s.mayFlow .object (.pickLocalOf .owner)).run voice = .ok (true, voice))
      ∧ (s.Accepts .object (.pickLocalOf .localAddress) ↔ s.Accepts .object .localAddress) := by
  have consistent : pickOfOwner.inconsistency? = none := by decide
  have fits (e : Expr) (resolves : ∀ r ∈ e.references (.statement 0), pickOfOwner.flaw? r = none) :
      e.Fits pickOfOwner :=
    fits_of_expr fun r mem => flaw?_eq_none_iff.mp (resolves r mem)
  have fitsOwner := fits (.pickLocalOf .owner) (by decide)
  have fitsAddress := fits (.pickLocalOf .localAddress) (by decide)
  obtain ⟨s, setting, all⟩ := receiver_call_accepted_iff consistent .default
  cases setting
  have ofOwner := all .object (.pickLocalOf .owner) _ _ _ nofun fitsOwner (.member rfl)
  have ofAddress := all .object (.pickLocalOf .localAddress) _ _ _ nofun fitsAddress (.member rfl)
  refine ⟨consistent, fitsOwner, fitsAddress, _, rfl, rfl, rfl, ofOwner.1 rfl, ?_⟩
  rw [ofAddress.2.1 rfl]
  simp [pickOfOwner]

open TranslationUnit in
/-- The argument of `owner.pick(&local)` is not accepted for the object, and the call is. -/
theorem pick_accepted_of_rejected_argument :
    pickOfOwner.inconsistency? = none ∧ ∃ s f, Setting.of pickOfOwner .default = .ok s
      ∧ s.CallsOn (Expr.pickLocalOf .owner).node f .owner [.localAddress]
      ∧ s.isSafePtr Expr.owner.type = .ok true ∧ [Expr.localAddress].length = f.params.length
      ∧ (s.mayFlow .object .localAddress).run .silent = .ok (false, .silent)
      ∧ (s.mayFlow .object (.pickLocalOf .owner)).run .silent = .ok (true, .silent) :=
  ⟨by decide, _, _, rfl, .member rfl, rfl, rfl, rfl, rfl⟩

end SafeDialect
