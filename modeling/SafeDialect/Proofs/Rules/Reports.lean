/-
What a step of a run reports.

On a coherent ledger a verdict is that of a fresh classification, so what a step answers and reports
can be said without a ledger. `Reports s m post` says so of one step: whatever verdicts and
explanations earlier steps have left behind, if the step ends then it adds remarks to the journal,
leaves a coherent ledger, and `post` holds of the answer and the remarks. Whether an error gets the
notes that explain it does depend on the past, so of those it is only said that they are notes.
-/
import SafeDialect.Proofs.Classifier.ByParams
import SafeDialect.Proofs.Rules.Indifferent

namespace SafeDialect

variable {s : Setting}

/-- A fresh classification gives a verdict. -/
def Setting.Judges (s : Setting) (a : Aspect) (t : QualifiedType) (v : Verdict) : Prop :=
  Ledger.classify s .silent a t = .ok (v, [])

/-- A type is judged in one way. -/
theorem Setting.Judges.unique {a : Aspect} {t : QualifiedType} {v v' : Verdict}
    (judges : s.Judges a t v) (judges' : s.Judges a t v') : v = v' := by
  unfold Judges at judges judges'
  rw [judges] at judges'
  cases judges'
  rfl

/-- A fresh classification is a question in a fresh session. -/
theorem Setting.Judges.returns {a : Aspect} {t : QualifiedType} {v : Verdict}
    (judges : s.Judges a t v) : ((Inspector.mk s false).judge a t).Returns .silent v := by
  obtain ⟨⟨w, session⟩, answer, same⟩ := bind_eq_ok.mp judges
  obtain rfl : w = v := congrArg Prod.fst (Except.ok.inj same)
  exact ⟨session, answer⟩

/-- From every coherent ledger a step that ends adds remarks to the journal and leaves a coherent
ledger, and its answer and remarks have a property. -/
def Reports {α : Type} (s : Setting) (m : Check α) (post : α → List Remark → Prop) : Prop :=
  ∀ l j, l.Coherent s → ∀ a r, m ⟨l, j⟩ = .ok (a, r) →
    ∃ after said, r = ⟨after, j.reportAll said⟩ ∧ after.Coherent s ∧ post a said

namespace Reports

variable {α β : Type} {m : Check α} {post post' : α → List Remark → Prop}

/-- What is at hand is not reported. -/
theorem pure {a : α} (h : post a []) : Reports s (Pure.pure a : Check α) post := by
  intro l j coherent a' r run
  cases run
  exact ⟨l, [], rfl, coherent, h⟩

/-- What the second step reports comes after what the first one did. -/
theorem bind {f : α → Check β} {last : β → List Remark → Prop} (first : Reports s m post)
    (next : ∀ a said, post a said → Reports s (f a) fun b more => last b (said ++ more)) :
    Reports s (m >>= f) last := by
  intro l j coherent b r run
  obtain ⟨⟨a, _⟩, ofFirst, ofNext⟩ := bind_eq_ok.mp run
  obtain ⟨after, said, rfl, coherent', holds⟩ := first l j coherent a _ ofFirst
  obtain ⟨after', more, rfl, coherent'', holds'⟩ :=
    next a said holds after _ coherent' b r ofNext
  exact ⟨after', said ++ more, by rw [Journal.reportAll_append], coherent'', holds'⟩

/-- What is known of a report may be weakened. -/
theorem mono (h : Reports s m post) (weaker : ∀ a said, post a said → post' a said) :
    Reports s m post' := by
  intro l j coherent a r run
  obtain ⟨after, said, same, coherent', holds⟩ := h l j coherent a r run
  exact ⟨after, said, same, coherent', weaker a said holds⟩

/-- A look-up at the start of a step. -/
theorem look {x : Result α} {f : α → Check β} {last : β → List Remark → Prop}
    (next : ∀ a, x = .ok a → Reports s (f a) last) : Reports s (liftM x >>= f) last := by
  cases x with
  | error fault =>
    intro l j coherent b r run
    cases run
  | ok a => exact next a rfl

/-- A step that says nothing, before another one. -/
theorem ask {f : α → Check β} {holds : α → Prop} {last : β → List Remark → Prop}
    (first : Reports s m fun a said => said = [] ∧ holds a)
    (next : ∀ a, holds a → Reports s (f a) last) : Reports s (m >>= f) last := by
  refine bind first fun a said ⟨silent, known⟩ => ?_
  subst silent
  exact next a known

/-- A loop that is never left early reports what its passes report, one after the other. -/
theorem forInSteps (each : α → List Remark → Prop) {l : List α}
    {f : α → PUnit → Check (ForInStep PUnit)} {init : PUnit}
    (passes : ∀ a ∈ l, ∀ b, Reports s (f a b) fun pass said => pass = .yield ⟨⟩ ∧ each a said) :
    Reports s (ForIn.forIn l init f)
      fun _ said => ∃ parts, List.Forall₂ each l parts ∧ said = parts.flatten := by
  induction l generalizing init with
  | nil => exact pure ⟨[], .nil, rfl⟩
  | cons head tail ih =>
    rw [List.forIn_cons]
    refine bind (passes head List.mem_cons_self init) fun pass said ⟨goesOn, here⟩ => ?_
    subst goesOn
    refine mono (ih fun a mem => passes a (List.mem_cons_of_mem _ mem)) fun _ more there => ?_
    obtain ⟨parts, each, rfl⟩ := there
    exact ⟨said :: parts, .cons here each, rfl⟩

/-- Each turn reports its part, and the parts come one after the other. -/
theorem forIn {l : List α} {f : α → Check PUnit} {each : α → List Remark → Prop}
    (passes : ∀ a ∈ l, Reports s (f a) fun _ => each a) :
    Reports s (ForIn.forIn l PUnit.unit fun a _ => do f a; return .yield PUnit.unit)
      fun _ said => ∃ parts, List.Forall₂ each l parts ∧ said = parts.flatten := by
  refine forInSteps each fun a mem _ => bind (passes a mem) fun _ said here => pure ⟨rfl, ?_⟩
  rwa [List.append_nil]

-- ============================================================ remarks

theorem reportAll {remarks : List Remark} :
    Reports s (Check.reportAll remarks) fun _ said => said = remarks := by
  intro l j coherent a r run
  cases run
  exact ⟨l, remarks, rfl, coherent, rfl⟩

/-- An error is reported as such. -/
theorem error {location : Location} {message : String} :
    Reports s (Check.error location message) fun _ said =>
      said = [⟨location, message, .error⟩] :=
  reportAll

/-- A question that is asked quietly gets the answer of a fresh session. -/
theorem quiet {act : Inspect α} :
    Reports s (Check.quiet act) fun a said => said = [] ∧ act.Returns .silent a := by
  refine look fun ⟨a, session⟩ returns => pure ⟨rfl, session, ?_⟩
  exact returns

/-- An error that a classification explains comes first, and all else is notes. -/
theorem errorExplainedBy {location : Location} {message : String} {act : Inspect α}
    (scripted : Scripted act) :
    Reports s (Check.errorExplainedBy location message act) fun _ said =>
      ∃ notes, said = ⟨location, message, .error⟩ :: notes ∧ ∀ r ∈ notes, r.severity = .note := by
  refine look fun ⟨a, session⟩ returns => mono reportAll fun _ said same => ?_
  subst same
  obtain ⟨script, same⟩ := scripted [] false
  have spoken : act ⟨[], false, (Voice.speaking .error).say location message⟩ = .ok (a, session) :=
    returns
  rw [same] at spoken
  cases script with
  | error fault => cases spoken
  | ok k =>
    cases spoken
    refine ⟨k.lines.map fun line => ⟨line.1, line.2, .note⟩, ?_, ?_⟩
    · show (Voice.sayAll ⟨some .note, _⟩ k.lines).said = _
      rw [Voice.sayAll_of_note]
      rfl
    · intro r mem
      obtain ⟨line, -, rfl⟩ := List.mem_map.mp mem
      rfl

/-- What is spoken is reported as it was said, from notes on. -/
theorem speak {act : Speak α} :
    Reports s (Check.speak act) fun a said =>
      ∃ voice, act (.speaking .note) = .ok (a, voice) ∧ said = voice.said := by
  refine look fun ⟨a, voice⟩ answer => ?_
  refine bind reportAll fun _ said same => pure ⟨voice, answer, ?_⟩
  rw [List.append_nil]
  exact same

-- ============================================================ the ledger

variable {a : Aspect} {t : QualifiedType}

/-- A verdict is not reported, and it is the judgement of a fresh classification. -/
theorem verdict :
    Reports s (Check.verdict s a t) fun v said => said = [] ∧ s.Judges a t v := by
  intro l j coherent v r run
  rw [Indifferent.verdict_run] at run
  cases given : l.verdict s a t with
  | error fault =>
    rw [given] at run
    cases run
  | ok _ =>
    obtain ⟨c, v', remarks, canonical, tells⟩ := coherent.tells_of_verdict given
    rw [Ledger.verdict_of_tells coherent canonical tells] at run
    cases run
    have tellsC := tells.congr (Setting.alike_canonical canonical)
    exact ⟨_, [], rfl, coherent.withVerdict (Setting.canonical_idem canonical) tellsC.quiet, rfl,
      tells.quiet⟩

/-- Reasons are notes, if there are any to give. -/
theorem explain :
    Reports s (Check.explain s a t) fun _ said => ∀ r ∈ said, r.severity = .note := by
  intro l j coherent _ r run
  rw [Indifferent.explain_run] at run
  cases given : l.explain s a t with
  | error fault =>
    rw [given] at run
    cases run
  | ok _ =>
    obtain ⟨c, v, remarks, canonical, tells⟩ := coherent.tells_of_explain given
    have tellsC := tells.congr (Setting.alike_canonical canonical)
    have coherent' := coherent.withVerdict (Setting.canonical_idem canonical) tellsC.quiet
    rw [Ledger.explain_of_tells coherent canonical tells] at run
    split at run
    · cases run
      exact ⟨_, remarks, rfl, coherent'.markExplained, tells.notes⟩
    · cases run
      exact ⟨_, [], rfl, coherent', nofun⟩

end Reports

end SafeDialect
