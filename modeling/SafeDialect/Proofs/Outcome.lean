/-
How computations end: with an answer that has a property, or with a fault that is permitted.

`Ends π x post` speaks about a result, `Runs π m s post` about a step with state, started in `s`,
and `Completes π m post` about a step with state wherever it is started. The permitted faults are a
parameter. With no fault permitted they say that there is an answer; with `endless` permitted, that
every index that was followed led to an entry. So one walk through a function gives both statements.
-/
import Mathlib.Logic.Basic
import SafeDialect.Fault

namespace SafeDialect

variable {α β σ : Type} {π : Fault → Prop}

/-- A result is an answer with a property, or a permitted fault. -/
def Ends (π : Fault → Prop) (x : Result α) (post : α → Prop) : Prop :=
  match x with
  | .ok a => post a
  | .error fault => π fault

/-- A step with state, started in `s`, ends with an answer and a state with a property, or with a
permitted fault. -/
def Runs (π : Fault → Prop) (m : StateT σ Result α) (s : σ) (post : α → σ → Prop) : Prop :=
  Ends π (m s) fun end_ => post end_.1 end_.2

-- ============================================================ results

namespace Ends

variable {x : Result α} {post post' : α → Prop}

/-- A value ends in itself. -/
theorem ok {a : α} (h : post a) : Ends π (.ok a) post := h

theorem pure {a : α} (h : post a) : Ends π (Pure.pure a : Result α) post := h

/-- A fault that is permitted is an end. -/
theorem error {fault : Fault} (h : π fault) : Ends π (.error fault : Result α) post := h

/-- Where no steps are left, something had to be below zero unless running out is permitted. -/
theorem exhausted {rank : Nat} (enough : ¬ π .endless → rank < 0) :
    Ends π (.error .endless : Result α) post := by
  by_cases permitted : π .endless
  · exact error permitted
  · exact absurd (enough permitted) (Nat.not_lt_zero _)

/-- What is known of the first value is there when the second is computed. -/
theorem bind {f : α → Result β} {last : β → Prop} (first : Ends π x post)
    (next : ∀ a, post a → Ends π (f a) last) : Ends π (x >>= f) last := by
  cases x with
  | ok a => exact next a first
  | error fault => exact first

/-- The property of the value may be weakened. -/
theorem mono (h : Ends π x post) (weaker : ∀ a, post a → post' a) : Ends π x post' := by
  cases x with
  | ok a => exact weaker a h
  | error fault => exact h

/-- What is known of the answer may be used together with where it comes from. -/
theorem bind_eq {f : α → Result β} {last : β → Prop} (first : Ends π x post)
    (next : ∀ a, x = .ok a → post a → Ends π (f a) last) : Ends π (x >>= f) last := by
  cases x with
  | ok a => exact next a rfl first
  | error fault => exact first

/-- And so may the permission of faults be widened. -/
theorem permit {π' : Fault → Prop} (h : Ends π x post) (more : ∀ fault, π fault → π' fault) :
    Ends π' x post := by
  cases x with
  | ok a => exact h
  | error fault => exact more fault h

/-- The answer, with where it comes from. -/
theorem self (h : Ends π x post) : Ends π x fun a => x = .ok a ∧ post a := by
  cases x with
  | ok a => exact ⟨rfl, h⟩
  | error fault => exact h

/-- If no fault is permitted there is an answer. -/
theorem answer (h : Ends (fun _ => False) x post) : ∃ a, x = .ok a ∧ post a := by
  cases x with
  | ok a => exact ⟨a, rfl, h⟩
  | error fault => exact h.elim

/-- If every fault is permitted nothing is said. -/
theorem always (x : Result α) : Ends (fun _ => True) x fun _ => True := by
  cases x <;> trivial

/-- A fault that is not permitted does not come up. -/
theorem ne_error (h : Ends π x post) {fault : Fault} (forbidden : ¬ π fault) :
    x ≠ .error fault := by
  rintro rfl
  exact forbidden h

end Ends

/-- The entry at an index inside its table is there. -/
theorem entry_ends {table : Table} {entries : Array α} {index : Nat}
    (inside : index < entries.size) :
    Ends π (entry table entries index) fun a => entries[index]? = some a := by
  unfold entry
  rw [Array.getElem?_eq_getElem inside]
  exact .ok rfl

/-- What a look-up finds stands in the table. -/
theorem eq_of_entry {table : Table} {entries : Array α} {index : Nat} {a : α}
    (found : entry table entries index = .ok a) : entries[index]? = some a := by
  unfold entry at found
  split at found
  · next same =>
    cases found
    exact same
  · cases found

/-- What follows a value is applied to it. -/
@[simp]
theorem ok_bind (a : α) (f : α → Result β) : (Except.ok a >>= f) = f a := rfl

/-- A computation that goes on answers if its first part does and what follows does. -/
theorem bind_eq_ok {x : Result α} {f : α → Result β} {b : β} :
    x >>= f = .ok b ↔ ∃ a, x = .ok a ∧ f a = .ok b := by
  cases x with
  | ok a =>
    constructor
    · exact fun h => ⟨a, rfl, h⟩
    · rintro ⟨_, same, h⟩
      cases same
      exact h
  | error fault =>
    constructor
    · intro h; cases h
    · rintro ⟨_, same, -⟩; cases same

-- ============================================================ lists of results

section Lists

variable {post : β → Prop}

/-- A list is mapped if each of its elements is, and what is known of each value is known of all. -/
theorem ends_mapM (post : β → Prop) {f : α → Result β} {l : List α}
    (each : ∀ a ∈ l, Ends π (f a) post) :
    Ends π (l.mapM f) fun bs => ∀ b ∈ bs, post b := by
  induction l with
  | nil =>
    rw [List.mapM_nil]
    exact .pure (by simp)
  | cons head tail ih =>
    rw [List.mapM_cons]
    refine .bind (each head List.mem_cons_self) fun b ofHead => ?_
    refine .bind (ih fun a mem => each a (List.mem_cons_of_mem _ mem)) fun bs ofTail => ?_
    refine .pure fun c mem => ?_
    rcases List.mem_cons.mp mem with rfl | mem
    · exact ofHead
    · exact ofTail c mem

/-- What is listed by a mapping is what some element is mapped to. -/
theorem mem_of_mapM {f : α → Result β} {l : List α} {bs : List β} (all : l.mapM f = .ok bs)
    {b : β} : b ∈ bs ↔ ∃ a ∈ l, f a = .ok b := by
  induction l generalizing bs with
  | nil =>
    cases all
    simp
  | cons head tail ih =>
    rw [List.mapM_cons] at all
    obtain ⟨first, ofHead, all⟩ := bind_eq_ok.mp all
    obtain ⟨rest, ofTail, all⟩ := bind_eq_ok.mp all
    cases all
    simp [ih ofTail, ofHead, eq_comm]

/-- The property is an invariant of the fold: it holds at the start, and each step keeps it. -/
theorem ends_foldlM {f : β → α → Result β} {l : List α} {init : β} (start : post init)
    (each : ∀ a ∈ l, ∀ b, post b → Ends π (f b a) post) : Ends π (l.foldlM f init) post := by
  induction l generalizing init with
  | nil => exact .pure start
  | cons head tail ih =>
    rw [List.foldlM_cons]
    refine .bind (each head List.mem_cons_self init start) fun b next => ?_
    exact ih next fun a mem => each a (List.mem_cons_of_mem _ mem)

/-- Filtering only needs an answer for each element, and leaves some of them. -/
theorem ends_filterM {f : α → Result Bool} {l : List α}
    (each : ∀ a ∈ l, Ends π (f a) fun _ => True) : Ends π (l.filterM f) (· ⊆ l) := by
  -- the loop carries what it has kept so far, last element first
  have loop : ∀ (l kept : List α), (∀ a ∈ l, Ends π (f a) fun _ => True) →
      Ends π (l.filterAuxM f kept) fun r => ∀ a ∈ r, a ∈ kept ∨ a ∈ l := by
    intro l
    induction l with
    | nil => exact fun kept _ => .pure fun a mem => .inl mem
    | cons head tail ih =>
      intro kept each
      rw [List.filterAuxM]
      refine .bind (each head List.mem_cons_self) fun keep _ => ?_
      refine Ends.mono (ih _ fun a mem => each a (List.mem_cons_of_mem _ mem)) fun r all a mem => ?_
      rcases all a mem with old | new
      · cases keep with
        | true =>
          rcases List.mem_cons.mp old with rfl | old
          · exact .inr List.mem_cons_self
          · exact .inl old
        | false => exact .inl old
      · exact .inr (List.mem_cons_of_mem _ new)
  unfold List.filterM
  refine .bind (loop l [] each) fun r all => ?_
  refine .pure fun a mem => ?_
  rcases all a (List.mem_reverse.mp mem) with none | some
  · cases none
  · exact some

/-- What a filter keeps has passed. -/
theorem eq_of_mem_filterM {f : α → Result Bool} {l kept : List α} {a : α}
    (filtered : l.filterM f = .ok kept) (mem : a ∈ kept) : f a = .ok true := by
  have loop : ∀ (l kept r : List α), l.filterAuxM f kept = .ok r → ∀ a ∈ r,
      a ∈ kept ∨ f a = .ok true := by
    intro l
    induction l with
    | nil =>
      rintro kept _ ⟨⟩ a mem
      exact .inl mem
    | cons head tail ih =>
      intro kept r filtered a mem
      rw [List.filterAuxM] at filtered
      obtain ⟨keep, ofHead, rest⟩ := bind_eq_ok.mp filtered
      rcases ih _ r rest a mem with old | passed
      · cases keep with
        | true =>
          rcases List.mem_cons.mp old with rfl | old
          · exact .inr ofHead
          · exact .inl old
        | false => exact .inl old
      · exact .inr passed
  unfold List.filterM at filtered
  obtain ⟨r, looped, same⟩ := bind_eq_ok.mp filtered
  cases same
  exact (loop l [] r looped a (List.mem_reverse.mp mem)).resolve_left List.not_mem_nil

/-- Neither does a search need more, which may stop before the end of the list. -/
theorem ends_anyM {f : α → Result Bool} {l : List α}
    (each : ∀ a ∈ l, Ends π (f a) fun _ => True) : Ends π (l.anyM f) fun _ => True := by
  induction l with
  | nil => exact .pure trivial
  | cons head tail ih =>
    unfold List.anyM
    refine .bind (each head List.mem_cons_self) fun found _ => ?_
    cases found with
    | true => exact .pure trivial
    | false => exact ih fun a mem => each a (List.mem_cons_of_mem _ mem)

theorem ends_allM {f : α → Result Bool} {l : List α}
    (each : ∀ a ∈ l, Ends π (f a) fun _ => True) : Ends π (l.allM f) fun _ => True := by
  induction l with
  | nil => exact .pure trivial
  | cons head tail ih =>
    unfold List.allM
    refine .bind (each head List.mem_cons_self) fun passes _ => ?_
    cases passes with
    | true => exact ih fun a mem => each a (List.mem_cons_of_mem _ mem)
    | false => exact .pure trivial

end Lists

-- ============================================================ steps with state

namespace Runs

variable {m : StateT σ Result α} {s : σ} {post post' : α → σ → Prop}

theorem pure {a : α} (h : post a s) : Runs π (Pure.pure a : StateT σ Result α) s post := h

/-- The state after the first step is the one before the second. -/
theorem bind {f : α → StateT σ Result β} {last : β → σ → Prop} (first : Runs π m s post)
    (next : ∀ a s', post a s' → Runs π (f a) s' last) : Runs π (m >>= f) s last :=
  Ends.bind first fun end_ => next end_.1 end_.2

/-- What is known at the end may be weakened. -/
theorem mono (h : Runs π m s post) (weaker : ∀ a s', post a s' → post' a s') :
    Runs π m s post' :=
  Ends.mono h fun end_ => weaker end_.1 end_.2

/-- A result used in a step leaves the state as it is. -/
theorem lift {x : Result α} {last : α → Prop} (h : Ends π x last) :
    Runs π (liftM x : StateT σ Result α) s fun a s' => last a ∧ s' = s := by
  cases x with
  | ok a => exact ⟨h, rfl⟩
  | error fault => exact h

/-- A result at the start of a step. -/
theorem lift_bind {x : Result α} {f : α → StateT σ Result β} {first : α → Prop}
    {last : β → σ → Prop} (h : Ends π x first)
    (next : ∀ a, x = .ok a → first a → Runs π (f a) s last) : Runs π (liftM x >>= f) s last := by
  cases x with
  | ok a => exact next a rfl h
  | error fault => exact h

@[simp]
theorem lift_ok_bind (a : α) (f : α → StateT σ Result β) :
    (liftM (Except.ok a : Result α) >>= f) = f a := rfl

/-- Reading the state goes on with it. -/
theorem get_bind {f : σ → StateT σ Result β} {last : β → σ → Prop} (next : Runs π (f s) s last) :
    Runs π (get >>= f) s last := next

/-- Writing the state goes on in the new one. -/
theorem set_bind {s' : σ} {f : PUnit → StateT σ Result β} {last : β → σ → Prop}
    (next : Runs π (f ⟨⟩) s' last) : Runs π (set s' >>= f) s last := next

/-- Changing the state goes on in the changed one. -/
theorem modify_bind {g : σ → σ} {f : PUnit → StateT σ Result β} {last : β → σ → Prop}
    (next : Runs π (f ⟨⟩) (g s) last) : Runs π (modify g >>= f) s last := next

theorem modify {g : σ → σ} {last : PUnit → σ → Prop} (h : last ⟨⟩ (g s)) :
    Runs π (modify g : StateT σ Result PUnit) s last := h

/-- If every fault is permitted nothing is said. -/
theorem always (m : StateT σ Result α) (s : σ) : Runs (fun _ => True) m s fun _ _ => True :=
  Ends.always (m s)

/-- If no fault is permitted there is an answer and a state. -/
theorem answer (h : Runs (fun _ => False) m s post) :
    ∃ a s', m s = .ok (a, s') ∧ post a s' := by
  obtain ⟨⟨a, s'⟩, same, holds⟩ := Ends.answer h
  exact ⟨a, s', same, holds⟩

/-- What is said of a step is true of the end it has come to. -/
theorem of_eq {a : α} {s' : σ} (h : Runs π m s post) (run : m.run s = .ok (a, s')) :
    post a s' := by
  have ends : Ends π (m.run s) fun end_ => post end_.1 end_.2 := h
  rw [run] at ends
  exact ends

end Runs

-- ============================================================ steps from any state

/-- A step that ends with an answer with a property, or a permitted fault, wherever it starts. -/
def Completes (π : Fault → Prop) (m : StateT σ Result α) (post : α → Prop) : Prop :=
  ∀ s, Runs π m s fun a _ => post a

namespace Completes

variable {m : StateT σ Result α} {post post' : α → Prop}

theorem pure {a : α} (h : post a) : Completes π (Pure.pure a : StateT σ Result α) post :=
  fun _ => .pure h

/-- No property of the state is carried along, so a step has to complete from whatever state the one
before it leaves. -/
theorem bind {f : α → StateT σ Result β} {last : β → Prop} (first : Completes π m post)
    (next : ∀ a, post a → Completes π (f a) last) : Completes π (m >>= f) last :=
  fun s => .bind (first s) fun a s' known => next a known s'

/-- What is known of the value may be weakened. -/
theorem mono (h : Completes π m post) (weaker : ∀ a, post a → post' a) : Completes π m post' :=
  fun s => .mono (h s) fun a _ => weaker a

theorem permit {π' : Fault → Prop} (h : Completes π m post)
    (more : ∀ fault, π fault → π' fault) : Completes π' m post :=
  fun s => Ends.permit (h s) more

/-- What looks at no state completes from every one. -/
theorem lift {x : Result α} (h : Ends π x post) :
    Completes π (liftM x : StateT σ Result α) post :=
  fun _ => .mono (.lift h) fun _ _ known => known.1

/-- A look-up that comes first is known to have succeeded in what follows. -/
theorem lift_bind {x : Result α} {f : α → StateT σ Result β} {first : α → Prop}
    {last : β → Prop} (h : Ends π x first)
    (next : ∀ a, x = .ok a → first a → Completes π (f a) last) :
    Completes π (liftM x >>= f) last :=
  fun s => .lift_bind h fun a answer known => next a answer known s

theorem modify {g : σ → σ} : Completes π (modify g : StateT σ Result PUnit) fun _ => True :=
  fun _ => .modify trivial

/-- A loop over a list completes if each pass does. -/
theorem forIn {l : List α} {f : α → β → StateT σ Result (ForInStep β)} {init : β}
    (each : ∀ a ∈ l, ∀ b, Completes π (f a b) fun _ => True) :
    Completes π (ForIn.forIn l init f) fun _ => True := by
  induction l generalizing init with
  | nil => exact .pure trivial
  | cons head tail ih =>
    rw [List.forIn_cons]
    refine .bind (each head List.mem_cons_self init) fun pass _ => ?_
    cases pass with
    | done b => exact .pure trivial
    | yield b => exact ih fun a mem => each a (List.mem_cons_of_mem _ mem)

/-- If no fault is permitted there is an answer from every state. -/
theorem answer (h : Completes (fun _ => False) m post) (s : σ) :
    ∃ a s', m.run s = .ok (a, s') ∧ post a := Runs.answer (h s)

end Completes

end SafeDialect
