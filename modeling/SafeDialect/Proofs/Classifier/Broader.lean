/-
More trust makes no verdict worse.

One configuration may trust more names than another and be the same otherwise. The tables read trust
at one place, where a record is accepted for its name. So with more trust a question is decided as
before or accepted outright, and a chain of questions that fails, fails with less trust as well. Of
which kind a type is does not depend on trust, except that a type may count as deep const for being
so.
-/
import SafeDialect.Proofs.Classifier.Kinds
import SafeDialect.Proofs.Setting.Trust

namespace SafeDialect

/-- A configuration that trusts all that another does, and is the same otherwise. -/
structure Config.Broadens (config config' : Config) : Prop where
  vocabulary : config'.vocabulary = config.vocabulary
  options : config'.options =
    { config.options with unsafeNamespaces := config'.options.unsafeNamespaces }
  namespaces : config.options.unsafeNamespaces ⊆ config'.options.unsafeNamespaces
  types : config.library.types ⊆ config'.library.types
  functions : config.library.functions ⊆ config'.library.functions

/-- A setting of the same unit that trusts all the types that another does. -/
structure Setting.Broadens (s s' : Setting) : Prop where
  same : ∃ options library trusted, s' = ⟨s.unit, ⟨options, library, s.names⟩, trusted⟩
  pointers : s'.config.options.disableRawPointers = s.config.options.disableRawPointers
  trusts : ∀ name, s.isSafeTypeName name = true → s'.isSafeTypeName name = true

variable {u : TranslationUnit} {config config' : Config} {s s' : Setting}

private theorem Setting.eq_of_made (made : Setting.of u config = .ok s) :
    s.unit = u ∧ s.config = config := by
  obtain ⟨tagged, -, same⟩ := bind_eq_ok.mp made
  cases same
  exact ⟨rfl, rfl⟩

namespace Config.Broadens

/-- What lies in a trusted namespace still does with more of them. -/
theorem isTrustedName (broadens : config.Broadens config') (made : Setting.of u config = .ok s)
    (made' : Setting.of u config' = .ok s') {name : String}
    (trusted : s.isTrustedName name = true) : s'.isTrustedName name = true := by
  rw [Setting.isTrustedName_iff] at trusted ⊢
  obtain ⟨start, mem, isStart⟩ := trusted
  refine ⟨start, (Setting.mem_trusted_iff made').mpr ?_, isStart⟩
  rcases (Setting.mem_trusted_iff made).mp mem with tagged | ⟨name, configured, same⟩
  · exact .inl tagged
  · exact .inr ⟨name, broadens.namespaces configured, same⟩

/-- What is trusted in a configuration is trusted in the setting that it makes. -/
theorem setting (broadens : config.Broadens config') (made : Setting.of u config = .ok s)
    (made' : Setting.of u config' = .ok s') : s.Broadens s' := by
  have trusts (name : String) : s.isTrustedName name = true → s'.isTrustedName name = true :=
    broadens.isTrustedName made made'
  obtain ⟨sameUnit, sameConfig⟩ := Setting.eq_of_made made
  obtain ⟨sameUnit', sameConfig'⟩ := Setting.eq_of_made made'
  refine ⟨⟨config'.options, config'.library, s'.trusted, ?_⟩, ?_, fun name safe => ?_⟩
  · unfold Setting.names
    rw [sameUnit, sameConfig, ← broadens.vocabulary, ← sameUnit', ← sameConfig']
  · rw [sameConfig, sameConfig', broadens.options]
  · have listed (mem : config.library.isSafeType name = true) :
        config'.library.isSafeType name = true := by
      unfold SafeLibrary.isSafeType at mem ⊢
      rw [List.contains_iff_mem] at mem ⊢
      exact broadens.types mem
    unfold Setting.isSafeTypeName Setting.names at safe ⊢
    rw [sameConfig] at safe
    rw [sameConfig', broadens.vocabulary]
    simp only [Bool.and_eq_true, Bool.or_eq_true] at safe ⊢
    exact ⟨safe.1, safe.2.imp (trusts name) listed⟩

end Config.Broadens

namespace Setting.Broadens

variable {P : List (Aspect × RecordId)} {t : QualifiedType} {d : RecordId} {a : Aspect}
  (broadens : s.Broadens s') (mode : Bool)

-- ============================================================ chains of questions

/-- Rulings that are the same, unless the second is to accept. -/
def SameOrAccepted (x y : Result Ruling) : Prop := y = .ok .accepted ∨ y = x

/-- Looking something up first makes no difference, as both sides find the same. -/
theorem SameOrAccepted.bind {α : Type} {z : Result α} {f g : α → Result Ruling}
    (h : ∀ a, SameOrAccepted (f a) (g a)) : SameOrAccepted (z >>= f) (z >>= g) := by
  cases z with
  | ok a => exact h a
  | error fault => exact .inr rfl

include broadens

/-- What reads nothing but the unit and the vocabulary is the same with more trust. -/
theorem reads {α : Type} (f : Setting → α)
    (same : ∀ options library trusted, f ⟨s.unit, ⟨options, library, s.names⟩, trusted⟩ = f s) :
    f s' = f s := by
  obtain ⟨options, library, trusted, rfl⟩ := broadens.same
  exact same options library trusted

/-- Both settings are of one unit. -/
theorem unit : s'.unit = s.unit := broadens.reads (·.unit) fun _ _ _ => rfl

/-- Trust does not decide what user code is. -/
theorem isUserCode (location : Location) (scope : ScopeId) :
    s'.isUserCode location scope = s.isUserCode location scope := by
  refine broadens.reads (·.isUserCode location scope) fun _ _ _ => ?_
  unfold Setting.isUserCode Setting.inUserCodeScope
  delta Setting.isTaggedUserCode
  rfl

/-- Nor does it decide what library code is. -/
theorem isSystemRecord (id : RecordId) : s'.isSystemRecord id = s.isSystemRecord id := by
  unfold Setting.isSystemRecord
  simp only [broadens.unit, broadens.isUserCode]

/-- With more trust a question is decided as before, or accepted outright. -/
theorem ruling (q : Question) :
    SameOrAccepted ((Inspector.mk s mode).ruling q) ((Inspector.mk s' mode).ruling q) := by
  have trusts := broadens.trusts
  have sameSystem := broadens.isSystemRecord
  obtain ⟨options, library, trusted, rfl⟩ := broadens.same
  -- only where the name is not trusted the table goes on
  have unless_trusted (name : String) (x : Result Ruling) : SameOrAccepted
      (if s.isSafeTypeName name = true then return .accepted else x)
      (if Setting.isSafeTypeName ⟨s.unit, ⟨options, library, s.names⟩, trusted⟩ name = true
        then return .accepted else x) := by
    split
    · next safe => exact .inl (if_pos (trusts name safe))
    · split
      · exact .inl rfl
      · exact .inr rfl
  cases q with
  | type a t sys => exact .inr rfl
  | record a id sys =>
    refine .bind fun defined? => ?_
    cases defined? with
    | none => exact .inr rfl
    | some defined =>
      cases a with
      | heapSafe =>
        refine .bind fun r => .bind fun name => ?_
        dsimp only
        rw [sameSystem]
        exact .bind fun isSystem => unless_trusted name _
      | deterministic =>
        refine .bind fun r => .bind fun name => ?_
        dsimp only
        rw [sameSystem]
        exact .bind fun isSystem => unless_trusted name _
      | deepConst =>
        refine .bind fun r => .bind fun used => .inr ?_
        dsimp only
        rw [sameSystem]
        rfl
      | stackOnly | nullablePtr | nakedStruct => exact .inr rfl

/-- A chain that fails with more trust fails with less. -/
theorem fails {q : Question} (h : (Inspector.mk s' mode).Fails P q) :
    (Inspector.mk s mode).Fails P q := by
  have sameKey (q : Question) : (Inspector.mk s' mode).key? q = (Inspector.mk s mode).key? q := by
    obtain ⟨options, library, trusted, rfl⟩ := broadens.same
    rfl
  induction h with
  | @rejects P q rejected free =>
    rw [sameKey] at free
    unfold Inspector.Rejects at rejected
    rcases broadens.ruling mode q with accepted | same
    · rw [accepted] at rejected
      cases rejected
    · exact .rejects (same.symm.trans rejected) free
  | @step P q q' leads free _ ih =>
    rw [sameKey] at free ih
    obtain ⟨on, ruled, mem⟩ := leads
    rcases broadens.ruling mode q with accepted | same
    · rw [accepted] at ruled
      cases ruled
      cases mem
    · exact .step ⟨on, same.symm.trans ruled, mem⟩ free ih

-- ============================================================ kinds

private theorem isGoodNullable (good : (Inspector.mk s mode).IsGoodNullable t) :
    (Inspector.mk s' mode).IsGoodNullable t := by
  have narrow {q : Question} := broadens.fails mode (P := []) (q := q)
  obtain ⟨options, library, trusted, rfl⟩ := broadens.same
  exact ⟨good.1, fun points => good.2 fun pointee found => narrow (points pointee found)⟩

/-- A record that has not the form of a naked struct for the more trusting does not have it for the
less trusting. -/
theorem misshapen (h : (Inspector.mk s' mode).Misshapen d) : (Inspector.mk s mode).Misshapen d := by
  have sound {t : QualifiedType} := broadens.isGoodNullable mode (t := t)
  have narrow {q : Question} := broadens.fails mode (P := []) (q := q)
  obtain ⟨options, library, trusted, rfl⟩ := broadens.same
  induction h with
  | base look derives => exact .base look derives
  | method look mem found bad => exact .method look mem found bad
  | field look mem bad noNullable noNaked =>
    exact .field look mem (narrow bad) (mt sound noNullable) noNaked
  | naked look mem bad noNullable isNaked _ ih =>
    exact .naked look mem (narrow bad) (mt sound noNullable) isNaked ih

/-- Whether a type is a naked struct is no matter of trust. -/
theorem isNaked_iff : (Inspector.mk s' mode).IsNaked t d ↔ (Inspector.mk s mode).IsNaked t d := by
  obtain ⟨options, library, trusted, rfl⟩ := broadens.same
  rfl

/-- What is sound stays so with more trust. -/
theorem good (h : (Inspector.mk s mode).Good a t) : (Inspector.mk s' mode).Good a t := by
  cases a with
  | heapSafe | deterministic | deepConst => exact mt (broadens.fails mode) h
  | nullablePtr => exact broadens.isGoodNullable mode h
  | nakedStruct =>
    obtain ⟨d, isNaked, wellShaped⟩ := h
    exact ⟨d, (broadens.isNaked_iff mode).mpr isNaked, mt (broadens.misshapen mode) wellShaped⟩
  | stackOnly =>
    obtain ⟨options, library, trusted, rfl⟩ := broadens.same
    exact h

/-- What is of a kind without being sound is so with less trust. -/
theorem malformed (kind : (Inspector.mk s' mode).Kind a t)
    (bad : ¬ (Inspector.mk s' mode).Good a t) :
    (Inspector.mk s mode).Kind a t ∧ ¬ (Inspector.mk s mode).Good a t := by
  refine ⟨?_, mt (broadens.good mode) bad⟩
  cases a with
  | heapSafe | deterministic | stackOnly => exact absurd kind bad
  | nullablePtr =>
    obtain ⟨options, library, trusted, rfl⟩ := broadens.same
    exact kind
  | nakedStruct =>
    obtain ⟨d, isNaked⟩ := kind
    exact ⟨d, (broadens.isNaked_iff mode).mp isNaked⟩
  | deepConst =>
    obtain ⟨id, shape, noPtr, noNullable, r, decl, known, look, user, tagged⟩ :=
      kind.resolve_left bad
    rw [show (Inspector.mk s' mode).setting.isSystemRecord r = _
      from broadens.isSystemRecord r] at user
    obtain ⟨options, library, trusted, rfl⟩ := broadens.same
    exact .inr ⟨id, shape, noPtr, noNullable, r, decl, known, look, user, tagged⟩

end Setting.Broadens

end SafeDialect
