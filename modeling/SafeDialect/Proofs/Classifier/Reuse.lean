/-
One session serves any number of questions.

A question that is put from outside finds nothing in progress and the library flag down, and leaves
both so: that is what `Yields` says of it. What it answers does not depend on the voice: that is
what `Scripted` says. Together they make the session after a question as good as a new one, and by
induction over the questions every answer is the one that a quiet session would give that had been
asked nothing before.
-/
import SafeDialect.Proofs.Classifier.Judge
import SafeDialect.Proofs.Classifier.SafeChains
import SafeDialect.Proofs.Classifier.Script

namespace SafeDialect

-- ============================================================ voices

/-- A voice goes on as another one: it is heard as before, and what was said stays said. One that
lets nothing out is unchanged. -/
structure Voice.Continues (voice voice' : Voice) : Prop where
  attached : voice'.isSilent = voice.isSilent
  said : voice.said <+: voice'.said
  silent : voice.isSilent = true → voice' = voice

namespace Voice

/-- A voice that is left alone. -/
theorem Continues.refl (voice : Voice) : voice.Continues voice :=
  ⟨rfl, List.prefix_rfl, fun _ => rfl⟩

/-- What was said stays said for longer. -/
theorem Continues.trans {first second third : Voice} (h : first.Continues second)
    (h' : second.Continues third) : first.Continues third := by
  refine ⟨h'.attached.trans h.attached, h.said.trans h'.said, fun silent => ?_⟩
  have same := h.silent silent
  rw [← same]
  exact h'.silent (same ▸ silent)

private theorem continues_say (voice : Voice) (location : Location) (message : String) :
    voice.Continues (voice.say location message) := by
  obtain ⟨level, said⟩ := voice
  cases level with
  | none => exact .refl _
  | some level => exact ⟨rfl, List.prefix_append _ _, nofun⟩

/-- Whatever a voice says, it goes on. -/
theorem continues_sayAll (voice : Voice) (lines : List (Location × String)) :
    voice.Continues (voice.sayAll lines) := by
  induction lines generalizing voice with
  | nil => exact .refl _
  | cons line rest ih => exact (continues_say voice line.1 line.2).trans (ih _)

end Voice

/-- A step that restores the session and follows a script gives one answer, in every session in
which nothing is in progress. -/
theorem Yields.transcript {α : Type} {act : Inspect α} {post : α → Prop}
    (yields : Yields (fun _ => False) [] false act post) (scripted : Scripted act) :
    ∃ a lines, ∀ voice, act.run (.start voice) = .ok (a, .start (voice.sayAll lines)) := by
  obtain ⟨script, same⟩ := scripted [] false
  obtain ⟨a, session, run, ⟨idle, outside⟩, -⟩ := (yields (.start .silent) ⟨rfl, rfl⟩).answer
  rw [show act (.start .silent) = _ from same .silent] at run
  cases script with
  | error fault => cases run
  | ok k =>
    obtain ⟨answer, inProgress, inSystem, lines⟩ := k
    cases run
    cases idle
    cases outside
    exact ⟨answer, lines, same⟩

-- ============================================================ questions from outside

namespace Inspector

/-- A question that can be put to an inspector: about an aspect of a type, about a type as a
container, or about a record. -/
inductive Query where
  | type (a : Aspect) (t : QualifiedType)
  | vector (t : QualifiedType)
  | hashmap (t : QualifiedType)
  | safeRecord (id : RecordId)
  | deterministicRecord (id : RecordId)
  | deepConstRecord (id : RecordId)
  | nakedRecord (id : RecordId)
  | unionRecord (id : RecordId)

/-- The verdict on a question, with questions about parts nested no deeper than the bound. -/
def answerWithin (i : Inspector) (depth : Nat) : Query → Inspect Verdict
  | .type a t => i.judgeWithin depth a t
  | .vector t => i.vector (i.judgeWithin depth) t
  | .hashmap t => i.hashmap (i.judgeWithin depth) t
  | .safeRecord id => return .flag (← i.safeRecord (i.judgeWithin depth) id)
  | .deterministicRecord id => return .flag (← i.deterministicRecord (i.judgeWithin depth) id)
  | .deepConstRecord id => i.deepConstRecord (i.judgeWithin depth) id
  | .nakedRecord id => return .flag (← i.nakedRecord (i.judgeWithin depth) id)
  | .unionRecord id => return .flag (← i.unionRecord id)

/-- The verdict on a question, at the depth of the inspector. -/
def answer (i : Inspector) (q : Query) : Inspect Verdict := i.answerWithin i.depth q

/-- What a question is about is in the unit. -/
def Query.Fits (u : TranslationUnit) : Query → Prop
  | .type _ t | .vector t | .hashmap t => u.Holds .types t.id.index
  | .safeRecord id | .deterministicRecord id | .deepConstRecord id | .nakedRecord id
  | .unionRecord id => u.Holds .records id.index

instance (u : TranslationUnit) : (q : Query) → Decidable (q.Fits u)
  | .type _ t | .vector t | .hashmap t => inferInstanceAs (Decidable (u.Holds .types t.id.index))
  | .safeRecord id | .deterministicRecord id | .deepConstRecord id | .nakedRecord id
  | .unionRecord id => inferInstanceAs (Decidable (u.Holds .records id.index))

variable {i : Inspector}

/-- Every question from outside follows a script. -/
theorem answer_scripted (q : Query) : Scripted (i.answer q) := by
  have asks := judgeWithin_scripted i i.depth
  cases q with
  | type a t => exact asks a t
  | vector t => exact vector_scripted asks
  | hashmap t => exact hashmap_scripted asks
  | safeRecord id => exact .bind (safeRecord_scripted asks) fun _ => .pure
  | deterministicRecord id => exact .bind (deterministicRecord_scripted asks) fun _ => .pure
  | deepConstRecord id => exact deepConstRecord_scripted asks
  | nakedRecord id => exact .bind (nakedRecord_scripted asks) fun _ => .pure
  | unionRecord id => exact .bind unionRecord_scripted fun _ => .pure

section

variable {π : Fault → Prop} (c : i.setting.unit.Consistent)
include c

/-- A record whose definition is another one is looked at as that one is. -/
theorem unionRecord_restores {P : List (Aspect × RecordId)} {sys : Bool} {id : RecordId}
    (inside : i.setting.unit.Holds .records id.index) :
    Yields π P sys (i.unionRecord id) fun _ => True := by
  refine .look (Setting.definedRecord_ends c inside) fun defined? known insideD => ?_
  cases defined? with
  | none => exact .pure trivial
  | some defined =>
    refine .look (c.record_ends (insideD defined rfl)) fun r look fits => ?_
    have self := definedRecord_self known
    have yields : Yields π P sys (i.unionRecord defined) _ := unionRecord_yields c self look fits
    simp only [unionRecord, self, look, Runs.lift_ok_bind] at yields
    exact .mono yields fun _ _ => trivial

variable {b : Bound π i.setting.unit} (naked : i.setting.unit.NakedRanked b.nakedRank)
include naked

/-- A question from outside restores the session. -/
theorem answer_restores {q : Query} (fits : q.Fits i.setting.unit) :
    Yields π [] false (i.answer q) fun _ => True := by
  have asks : i.Answers b i.depth i.judge := answers_judgeWithin c b i.depth
  -- nothing is in progress at first, and the depth leaves room for every type and record
  have room := room_lt_depth i
  have covers {t : QualifiedType} (inside : i.setting.unit.Holds .types t.id.index)
      (strict : ¬ π .endless) : i.setting.unit.room [] + b.typeRank t.id ≤ i.depth := by
    have below := (b.ranked strict).lt_size t.id inside
    omega
  have coversRecord (_ : ¬ π .endless) : i.setting.unit.room [] ≤ i.depth := by omega
  cases q with
  | type a t => exact .mono (judge_yields c b a fits fun _ _ => naked) fun _ _ => trivial
  | vector t =>
    refine .look (Setting.typeName_ends c fits) fun name _ _ => ?_
    split
    · refine .bind (vectorArg_yields c asks .nil fits (covers fits)) fun _ _ => .pure trivial
    · exact .pure trivial
  | hashmap t =>
    obtain ⟨name, named, -⟩ := (Setting.typeName_ends c fits).answer
    show Yields π [] false (i.hashmap i.judge t) _
    rw [hashmap_eq named]
    split
    · exact .bind (hashmapArgs_yields c asks .nil fits (covers fits)) fun _ _ => .pure trivial
    · exact .pure trivial
  | safeRecord id =>
    exact .bind (safeRecord_yields c asks .nil fits coversRecord) fun _ _ => .pure trivial
  | deterministicRecord id =>
    exact .bind (deterministicRecord_yields c .nil (asks.determinism coversRecord) fits)
      fun _ _ => .pure trivial
  | deepConstRecord id =>
    exact .mono (deepConstRecord_yields c asks .nil fits coversRecord) fun _ _ => trivial
  | nakedRecord id =>
    exact .bind (nakedRecord_restores c b fits fun _ => naked) fun _ _ => .pure trivial
  | unionRecord id => exact .bind (unionRecord_restores c fits) fun _ _ => .pure trivial

end

-- ============================================================ one question after the other

/-- Answers questions one after the other in one session, and tells the session after each. -/
def answerAll (i : Inspector) : Session → List Query → Result (List (Verdict × Session))
  | _, [] => .ok []
  | session, q :: rest => do
    let (verdict, next) ← (i.answer q).run session
    return (verdict, next) :: (← i.answerAll next rest)

/-- A verdict is given as a quiet session gives it that has been asked nothing before, and nothing
is in progress when it has been given. -/
structure AsIfFresh (i : Inspector) (voice : Voice) (q : Query) (given : Verdict × Session) :
    Prop where
  idle : given.2.inProgress = []
  outside : given.2.inSystem = false
  voice : voice.Continues given.2.voice
  fresh : (i.answer q).run (.start .silent) = .ok (given.1, .start .silent)

/-- A voice that has gone on in between. -/
theorem AsIfFresh.after {voice voice' : Voice} {q : Query} {given : Verdict × Session}
    (h : i.AsIfFresh voice' q given) (goesOn : voice.Continues voice') :
    i.AsIfFresh voice q given :=
  ⟨h.idle, h.outside, goesOn.trans h.voice, h.fresh⟩

/-- One question leaves a session that is as good as a new one. -/
theorem answer_asIfFresh {q : Query} {post : Verdict → Prop}
    (yields : Yields (fun _ => False) [] false (i.answer q) post) (voice : Voice) :
    ∃ verdict voice', (i.answer q).run (.start voice) = .ok (verdict, .start voice')
      ∧ i.AsIfFresh voice q (verdict, .start voice') := by
  obtain ⟨verdict, lines, same⟩ := yields.transcript (answer_scripted q)
  refine ⟨verdict, voice.sayAll lines, same voice, rfl, rfl, voice.continues_sayAll lines, ?_⟩
  rw [same, Voice.silent_sayAll]

/-- So does every sequence of questions. -/
theorem answerAll_asIfFresh {queries : List Query}
    (each : ∀ q ∈ queries, Yields (fun _ => False) [] false (i.answer q) fun _ => True)
    (voice : Voice) :
    ∃ given, i.answerAll (.start voice) queries = .ok given
      ∧ List.Forall₂ (i.AsIfFresh voice) queries given := by
  induction queries generalizing voice with
  | nil => exact ⟨[], rfl, .nil⟩
  | cons q rest ih =>
    obtain ⟨verdict, voice', run, first⟩ := answer_asIfFresh (each q List.mem_cons_self) voice
    obtain ⟨given, runs, others⟩ := ih (fun q mem => each q (List.mem_cons_of_mem _ mem)) voice'
    refine ⟨(verdict, .start voice') :: given, ?_, .cons first ?_⟩
    · unfold answerAll
      rw [run, ok_bind]
      show (i.answerAll (.start voice') rest >>= fun given => _) = _
      rw [runs]
      rfl
    · exact others.imp fun _ _ h => h.after first.voice

/-- However many questions have been put to one inspector, and however loud it is: after each of
them nothing is in progress, the library flag is down and the voice is what it was, with perhaps
more said; and each verdict is the one that a quiet session gives that has been asked nothing
before. -/
theorem answers_asIfFresh {u : TranslationUnit} (consistent : u.inconsistency? = none)
    (types : u.TypesFounded) (naked : u.NakedFounded) (config : Config) :
    ∃ s, Setting.of u config = .ok s ∧
      ∀ (userCodeMode : Bool) (voice : Voice) (queries : List Query),
        (∀ q ∈ queries, q.Fits u) →
        ∃ given, (Inspector.mk s userCodeMode).answerAll (.start voice) queries = .ok given
          ∧ List.Forall₂ ((Inspector.mk s userCodeMode).AsIfFresh voice) queries given := by
  have c := TranslationUnit.inconsistency?_eq_none_iff.mp consistent
  obtain ⟨s, setting, rfl, -⟩ := (Setting.of_ends c config).answer
  obtain ⟨typeRank, ranked⟩ := c.exists_ranked types
  obtain ⟨nakedRank, nakedRanked⟩ := TranslationUnit.exists_nakedRanked naked
  let bound : Bound (fun _ => False) s.unit := ⟨typeRank, nakedRank, fun _ => ranked⟩
  refine ⟨s, setting, fun userCodeMode voice queries fits => ?_⟩
  refine answerAll_asIfFresh (fun q mem => ?_) voice
  exact answer_restores (i := ⟨s, userCodeMode⟩) (b := bound) c nakedRanked (fits q mem)

end Inspector

/-- Questions about a list: its node, the type of the node, what a node holds, the node again and a
plain number. -/
def Inspector.nodeListQueries : List Query :=
  [.safeRecord ⟨0⟩, .type .deepConst ⟨⟨1⟩, false⟩, .vector ⟨⟨2⟩, false⟩, .safeRecord ⟨0⟩,
    .type .heapSafe ⟨⟨0⟩, false⟩]

open TranslationUnit Inspector in
/-- The questions about a list, whose node leads back to itself, are put aloud. Only the number is
safe, and why the node is not is said each time it is asked about. -/
theorem nodeList_answers_asIfFresh :
    nodeList.inconsistency? = none ∧ nodeList.TypesFounded ∧ nodeList.NakedFounded
    ∧ ∃ s, Setting.of nodeList .default = .ok s ∧ ∃ given,
      (Inspector.mk s false).answerAll (.start (.speaking .error)) nodeListQueries = .ok given
      ∧ List.Forall₂ ((Inspector.mk s false).AsIfFresh (.speaking .error)) nodeListQueries given
      ∧ given.map (·.1) = [.other, .other, .other, .other, .flag true]
      ∧ given.map (·.2.voice.said.map (·.message)) =
        let reasons := ["member 'raw' is not safe", "member 'extra' is not safe"]
        [reasons, reasons, reasons, reasons ++ reasons, reasons ++ reasons] := by
  have consistent : nodeList.inconsistency? = none := by decide
  have types := (inconsistency?_eq_none_iff.mp consistent).typesFounded (by decide)
  have naked : nodeList.NakedFounded := nakedFounded_of_untagged (by decide)
  obtain ⟨s, setting, all⟩ := answers_asIfFresh consistent types naked .default
  obtain ⟨given, run, fresh⟩ := all false (.speaking .error) nodeListQueries (by decide)
  have asked : (Setting.of nodeList .default >>= fun s =>
      (Inspector.mk s false).answerAll (.start (.speaking .error)) nodeListQueries)
      = .ok given := by
    rw [setting, ok_bind, run]
  have told := congrArg (Except.map fun given : List (Verdict × Session) =>
    (given.map (·.1), given.map (·.2.voice.said.map (·.message)))) asked
  refine ⟨consistent, types, naked, s, setting, given, run, fresh,
    Prod.mk.inj (Except.ok.inj (told.symm.trans ?_))⟩
  decide +kernel

end SafeDialect
