/-
Two runs side by side.

`Compares s s' m m' rel` is about a step in one setting and a step in another: from coherent
ledgers, if both end, then each adds remarks to its journal and leaves a coherent ledger, and `rel`
holds of the two answers and the two lists of remarks. The steps need not go the same way. `Fewer`
is the instance that counts errors.
-/
import SafeDialect.Proofs.Classifier.Broader
import SafeDialect.Proofs.Rules.Variables

namespace SafeDialect

/-- The number of errors among remarks. -/
def errorsIn (said : List Remark) : Nat := said.countP (·.severity == .error)

/-- Errors are counted part by part. -/
theorem errorsIn_append (said more : List Remark) :
    errorsIn (said ++ more) = errorsIn said + errorsIn more :=
  List.countP_append

private theorem errorsIn_eq_zero {said : List Remark} (notes : ∀ r ∈ said, r.severity = .note) :
    errorsIn said = 0 := by
  refine List.countP_eq_zero.mpr fun r mem isError => ?_
  rw [notes r mem] at isError
  cases isError

/-- What is reported adds its errors to those that are there. -/
theorem Journal.errorCount_reportAll (j : Journal) (said : List Remark) :
    (j.reportAll said).errorCount = j.errorCount + errorsIn said := by
  unfold errorCount
  rw [reportAll_eq, List.countP_append, List.countP_map]
  rfl

namespace ErrorUnless

variable {accepted : Prop} {places : List Location} {said : List Remark}
  (one : ErrorUnless accepted places said)
include one

private theorem errorsIn_of_accepted (h : accepted) : errorsIn said = 0 := by
  rw [one.silent h]
  rfl

private theorem errorsIn_of_rejected (h : ¬ accepted) : errorsIn said = 1 := by
  obtain ⟨e, notes, rfl, isError, -, areNotes⟩ := one.blamed h
  have rest : errorsIn notes = 0 := errorsIn_eq_zero areNotes
  unfold errorsIn at rest ⊢
  rw [List.countP_cons, rest, isError]
  rfl

end ErrorUnless

variable {s s' : Setting} {α β γ δ : Type}

/-- Two steps that end, each in its setting, add remarks to their journals, and what they answer and
say is related. -/
def Compares (s s' : Setting) (m : Check α) (m' : Check β)
    (rel : α → β → List Remark → List Remark → Prop) : Prop :=
  ∀ l l' j j', l.Coherent s → l'.Coherent s' → ∀ a r a' r', m ⟨l, j⟩ = .ok (a, r) →
    m' ⟨l', j'⟩ = .ok (a', r') → ∃ after after' said said', r = ⟨after, j.reportAll said⟩
      ∧ r' = ⟨after', j'.reportAll said'⟩ ∧ after.Coherent s ∧ after'.Coherent s'
      ∧ rel a a' said said'

namespace Compares

variable {m : Check α} {m' : Check β} {rel : α → β → List Remark → List Remark → Prop}

/-- What is known of each of two steps is known of both. -/
theorem of_reports {post : α → List Remark → Prop} {post' : β → List Remark → Prop}
    (h : Reports s m post) (h' : Reports s' m' post') :
    Compares s s' m m' fun a a' said said' => post a said ∧ post' a' said' := by
  intro l l' j j' coherent coherent' a r a' r' run run'
  obtain ⟨after, said, same, kept, holds⟩ := h l j coherent a r run
  obtain ⟨after', said', same', kept', holds'⟩ := h' l' j' coherent' a' r' run'
  exact ⟨after, after', said, said', same, same', kept, kept', holds, holds'⟩

/-- What is known of both may be weakened. -/
theorem mono {rel' : α → β → List Remark → List Remark → Prop} (h : Compares s s' m m' rel)
    (weaker : ∀ a a' said said', rel a a' said said' → rel' a a' said said') :
    Compares s s' m m' rel' := by
  intro l l' j j' coherent coherent' a r a' r' run run'
  obtain ⟨after, after', said, said', same, same', kept, kept', holds⟩ :=
    h l l' j j' coherent coherent' a r a' r' run run'
  exact ⟨after, after', said, said', same, same', kept, kept', weaker a a' said said' holds⟩

/-- Two answers that are at hand. -/
theorem pure {a : α} {a' : β} (h : rel a a' [] []) :
    Compares s s' (Pure.pure a) (Pure.pure a') rel := by
  intro l l' j j' coherent coherent' a r a' r' run run'
  cases run
  cases run'
  exact ⟨l, l', [], [], rfl, rfl, coherent, coherent', h⟩

/-- Steps side by side, one pair after the other. What has been said before stays in front. -/
theorem bind {f : α → Check γ} {f' : β → Check δ}
    {last : γ → δ → List Remark → List Remark → Prop} (first : Compares s s' m m' rel)
    (next : ∀ a a' said said', rel a a' said said' → Compares s s' (f a) (f' a')
      fun b b' more more' => last b b' (said ++ more) (said' ++ more')) :
    Compares s s' (m >>= f) (m' >>= f') last := by
  intro l l' j j' coherent coherent' b r b' r' run run'
  obtain ⟨⟨a, _⟩, ofFirst, ofNext⟩ := bind_eq_ok.mp run
  obtain ⟨⟨a', _⟩, ofFirst', ofNext'⟩ := bind_eq_ok.mp run'
  obtain ⟨after, after', said, said', rfl, rfl, kept, kept', holds⟩ :=
    first l l' j j' coherent coherent' a _ a' _ ofFirst ofFirst'
  obtain ⟨last, last', more, more', rfl, rfl, keptLast, keptLast', holds'⟩ :=
    next a a' said said' holds after after' _ _ kept kept' b r b' r' ofNext ofNext'
  exact ⟨last, last', said ++ more, said' ++ more', by rw [Journal.reportAll_append],
    by rw [Journal.reportAll_append], keptLast, keptLast', holds'⟩

/-- The same look-up in both settings. -/
theorem look {x x' : Result γ} {f : γ → Check α} {f' : γ → Check β} (same : x' = x)
    (next : ∀ a, x = .ok a → Compares s s' (f a) (f' a) rel) :
    Compares s s' (liftM x >>= f) (liftM x' >>= f') rel := by
  rw [same]
  cases x with
  | error fault =>
    intro l l' j j' _ _ a r a' r' run
    cases run
  | ok a => exact next a rfl

/-- Two questions that say nothing, before other steps. -/
theorem ask {f : α → Check γ} {f' : β → Check δ} {holds : α → Prop} {holds' : β → Prop}
    {last : γ → δ → List Remark → List Remark → Prop}
    (first : Reports s m fun a said => said = [] ∧ holds a)
    (first' : Reports s' m' fun a said => said = [] ∧ holds' a)
    (next : ∀ a a', holds a → holds' a' → Compares s s' (f a) (f' a') last) :
    Compares s s' (m >>= f) (m' >>= f') last := by
  refine bind (of_reports first first') fun a a' said said' told => ?_
  obtain ⟨⟨silent, known⟩, silent', known'⟩ := told
  subst silent silent'
  exact next a a' known known'

end Compares

/-- The second step gives the answer of the first and reports no more errors. -/
def Fewer (s s' : Setting) (m m' : Check α) : Prop :=
  Compares s s' m m' fun a a' said said' => a = a' ∧ errorsIn said' ≤ errorsIn said

namespace Fewer

variable {m m' : Check α} {location : Location} {message : String}

/-- Neither says anything. -/
theorem pure {a : α} : Fewer s s' (Pure.pure a : Check α) (Pure.pure a) :=
  Compares.pure ⟨rfl, Nat.le_refl _⟩

/-- Fewer errors in both of two steps are fewer in all. -/
theorem bind {f f' : α → Check β} (first : Fewer s s' m m') (next : ∀ a, Fewer s s' (f a) (f' a)) :
    Fewer s s' (m >>= f) (m' >>= f') := by
  refine Compares.bind first fun a a' said said' ⟨same, fewer⟩ => ?_
  subst same
  refine .mono (next a) fun b b' more more' ⟨same, fewerMore⟩ => ⟨same, ?_⟩
  rw [errorsIn_append, errorsIn_append]
  omega

/-- Both look up the same. -/
theorem look {x x' : Result α} {f f' : α → Check β} (same : x' = x)
    (next : ∀ a, x = .ok a → Fewer s s' (f a) (f' a)) :
    Fewer s s' (liftM x >>= f) (liftM x' >>= f') :=
  Compares.look same next

/-- The same look-up in both settings, with what is known of its result. -/
theorem lookInside {x x' : Result α} {f f' : α → Check β} {first : α → Prop}
    (ends : Ends (fun _ => True) x first) (same : x' = x)
    (next : ∀ a, first a → Fewer s s' (f a) (f' a)) :
    Fewer s s' (liftM x >>= f) (liftM x' >>= f') := by
  refine look same fun a found => next a ?_
  rw [found] at ends
  exact ends

/-- Two questions that say nothing, before other steps. -/
theorem ask {m : Check α} {m' : Check β} {f : α → Check γ} {f' : β → Check γ} {holds : α → Prop}
    {holds' : β → Prop} (first : Reports s m fun a said => said = [] ∧ holds a)
    (first' : Reports s' m' fun a said => said = [] ∧ holds' a)
    (next : ∀ a a', holds a → holds' a' → Fewer s s' (f a) (f' a')) :
    Fewer s s' (m >>= f) (m' >>= f') :=
  Compares.ask first first' next

/-- A step that only the first run takes. -/
theorem skip {f : α → Check β} {m' : Check β} {post : α → List Remark → Prop}
    (first : Reports s m post) (next : ∀ a, Fewer s s' (f a) m') : Fewer s s' (m >>= f) m' := by
  have nothing : Reports s' (Pure.pure ⟨⟩ : Check PUnit) fun _ said => said = [] := .pure rfl
  rw [← pure_bind PUnit.unit fun _ => m']
  refine Compares.bind (.of_reports first nothing) fun a _ said said' ⟨_, silent⟩ => ?_
  refine .mono (next a) fun b b' more more' ⟨same, fewer⟩ => ⟨same, ?_⟩
  rw [silent, List.nil_append, errorsIn_append]
  omega

/-- A step that only the first run takes, at the end. -/
theorem nothing {m : Check PUnit} (h : Reports s m fun _ _ => True) :
    Fewer s s' m (Pure.pure ⟨⟩) := by
  rw [← bind_pure m]
  exact skip h fun _ => pure

/-- A loop over one list reports fewer errors if each pass does. -/
theorem forIn {l : List α} {f f' : α → β → Check (ForInStep β)} {init : β}
    (each : ∀ a ∈ l, ∀ b, Fewer s s' (f a b) (f' a b)) :
    Fewer s s' (ForIn.forIn l init f) (ForIn.forIn l init f') := by
  induction l generalizing init with
  | nil => exact pure
  | cons head tail ih =>
    rw [List.forIn_cons, List.forIn_cons]
    refine bind (each head List.mem_cons_self init) fun pass => ?_
    cases pass with
    | done b => exact pure
    | yield b => exact ih fun a mem => each a (List.mem_cons_of_mem _ mem)

/-- The same remarks in both runs. -/
theorem reportAll {remarks : List Remark} :
    Fewer s s' (Check.reportAll remarks) (Check.reportAll remarks) :=
  .mono (.of_reports .reportAll .reportAll) fun _ _ said said' told => ⟨rfl, by rw [told.1, told.2]⟩

/-- One error on each side. -/
theorem error : Fewer s s' (Check.error location message) (Check.error location message) :=
  reportAll

/-- A question with one answer in both runs, and an error if it is bad. -/
theorem orError {passes : α → Bool} (h : Fewer s s' m m') :
    Fewer s s'
      (do
        if passes (← m) then return ⟨⟩
        else Check.error location message)
      (do
        if passes (← m') then return ⟨⟩
        else Check.error location message) := by
  refine bind h fun answer => ?_
  split
  · exact pure
  · exact error

/-- An error, and the notes from each ledger. -/
theorem errorExplained {a : Aspect} {t : QualifiedType} :
    Fewer s s' (do Check.error location message; Check.explain s a t)
      (do Check.error location message; Check.explain s' a t) := by
  refine bind error fun _ => .mono (.of_reports .explain .explain) fun _ _ said said' told => ?_
  rw [errorsIn_eq_zero told.2]
  exact ⟨rfl, Nat.zero_le _⟩

/-- What is accepted in one setting is accepted in the other, and each error is the only one. -/
theorem of_accepted {m m' : Check PUnit} {accepted accepted' : Prop} (places : List Location)
    (h : Reports s m fun _ => ErrorUnless accepted places)
    (h' : Reports s' m' fun _ => ErrorUnless accepted' places)
    (mono : accepted → accepted') : Fewer s s' m m' := by
  refine .mono (.of_reports h h') fun _ _ said said' ⟨one, one'⟩ => ⟨rfl, ?_⟩
  by_cases here : accepted'
  · rw [one'.errorsIn_of_accepted here]
    exact Nat.zero_le _
  · rw [one.errorsIn_of_rejected (mt mono here), one'.errorsIn_of_rejected here]

section Explained

variable {act : Inspect α} {act' : Inspect β} (scripted : Scripted act) (scripted' : Scripted act')
include scripted scripted'

/-- An error with its reasons on each side. The reasons may differ, as they are notes. -/
theorem errorExplainedBy : Fewer s s' (Check.errorExplainedBy location message act)
    (Check.errorExplainedBy location message act') :=
  of_accepted [location] (.rejectExplainedBy not_false List.mem_cons_self scripted)
    (.rejectExplainedBy not_false List.mem_cons_self scripted') id

/-- A question that is asked quietly, and once more for the reasons if the answer is bad. -/
theorem passesOrError {passes : α → Bool} {passes' : β → Bool}
    (mono : ∀ a a', act.Returns .silent a → act'.Returns .silent a' → passes a = true →
      passes' a' = true) :
    Fewer s s'
      (do
        if passes (← Check.quiet act) then return ⟨⟩
        else Check.errorExplainedBy location message act)
      (do
        if passes' (← Check.quiet act') then return ⟨⟩
        else Check.errorExplainedBy location message act') := by
  refine ask .quiet .quiet fun a a' returns returns' => ?_
  have weaker := mono a a' returns returns'
  split
  · next good =>
    rw [if_pos (weaker good)]
    exact pure
  split
  · exact of_accepted [location] (.rejectExplainedBy not_false List.mem_cons_self scripted)
      (.accept trivial) False.elim
  · exact errorExplainedBy scripted scripted'

end Explained

/-- The same question about lifetimes. -/
theorem speak {act act' : Speak α} (same : act' = act) :
    Fewer s s' (Check.speak act) (Check.speak act') := by
  subst same
  refine .mono (.of_reports .speak .speak) fun a a' said said' told => ?_
  obtain ⟨⟨voice, answer, rfl⟩, voice', answer', rfl⟩ := told
  cases answer.symm.trans answer'
  exact ⟨rfl, Nat.le_refl _⟩

end Fewer

end SafeDialect
