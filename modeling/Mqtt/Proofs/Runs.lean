import Mathlib.Data.List.Induction
import Mathlib.Data.List.Infix
/-!
# Runs of a machine, event by event

A machine takes events, one at a time. What an event leads to depends on the state, and so does
whether it is possible at all. `Machine.replay` plays a list of events and keeps a record of what is
seen of them.

What is to hold at every moment of a run is said of every part of the list from the front: `Always`
speaks of the states, `Never` of the events. What is to be noted of the events is put into a list
(`collect`). A run is taken apart at its last event (`replay_concat_eq_some`), so what holds at
first and after every event holds in the end (`replay_induction`).
-/

namespace Mqtt

/-- What is recorded of a run: records can be put one behind the other, and one is empty. -/
class Record (O : Type) extends Append O, EmptyCollection O where
  append_empty (r : O) : r ++ ∅ = r
  empty_append (r : O) : ∅ ++ r = r
  append_assoc (r r' r'' : O) : r ++ r' ++ r'' = r ++ (r' ++ r'')

instance {α : Type} : Record (List α) where
  append_empty := List.append_nil
  empty_append := List.nil_append
  append_assoc := List.append_assoc

/-- A machine: what an event leads to, if it is possible, and what is seen of it. -/
structure Machine (S E O : Type) where
  next? : S → E → Option (S × O)

namespace Machine

variable {S E O α : Type} (m : Machine S E O)

/-- What is noted of the events of a run, one after the other. -/
def collect (note : S → E → S → O → List α) (s : S) : List E → List α
  | [] => []
  | e :: es =>
    match m.next? s e with
    | some (s', seen) => note s e s' seen ++ collect note s' es
    | none => []

@[simp] theorem collect_nil (note : S → E → S → O → List α) (s : S) : m.collect note s [] = [] :=
  rfl

variable [Record O]

/-- What a list of events leads to, with everything that is seen on the way. Nothing if one of them
is not possible. -/
def replay (s : S) : List E → Option (S × O)
  | [] => some (s, ∅)
  | e :: es => do
    let (s, seen) ← m.next? s e
    let (s, more) ← replay s es
    return (s, seen ++ more)

/-- At every moment of a run something holds of the state and of all that has been seen. -/
def Always (s : S) (es : List E) (P : S → O → Prop) : Prop :=
  ∀ es₁ s₁ seen₁, es₁ <+: es → m.replay s es₁ = some (s₁, seen₁) → P s₁ seen₁

/-- No event of a run is of a certain sort. -/
def Never (s : S) (es : List E) (P : S → E → Prop) : Prop :=
  ∀ es₁ e s₁ seen₁, es₁ ++ [e] <+: es → m.replay s es₁ = some (s₁, seen₁) → ¬P s₁ e

variable {m} {s s₁ s₂ : S} {es es₁ es₂ : List E} {e : E} {seen seen₁ : O}

/-! ### Lists of events -/

/-- The first event of a run. -/
theorem replay_cons_eq_some : m.replay s (e :: es) = some (s₂, seen) ↔ ∃ s₁ seen₁ more,
    m.next? s e = some (s₁, seen₁) ∧ m.replay s₁ es = some (s₂, more) ∧ seen = seen₁ ++ more := by
  rw [replay]
  constructor
  · intro h
    obtain ⟨⟨s₁, seen₁⟩, h₁, h⟩ := Option.bind_eq_some_iff.1 h
    obtain ⟨⟨s', more⟩, h₂, h⟩ := Option.bind_eq_some_iff.1 h
    cases h
    exact ⟨s₁, seen₁, more, h₁, h₂, rfl⟩
  · rintro ⟨s₁, seen₁, more, h₁, h₂, rfl⟩
    rw [h₁]
    show (m.replay s₁ es).bind _ = _
    rw [h₂]
    rfl

/-- A run that goes on with another one. -/
theorem replay_append_eq_some : m.replay s (es₁ ++ es₂) = some (s₂, seen) ↔ ∃ s₁ seen₁ more,
    m.replay s es₁ = some (s₁, seen₁) ∧ m.replay s₁ es₂ = some (s₂, more) ∧
      seen = seen₁ ++ more := by
  induction es₁ generalizing s seen with
  | nil =>
    constructor
    · intro h
      exact ⟨s, ∅, seen, rfl, h, (Record.empty_append _).symm⟩
    · rintro ⟨s₁, seen₁, more, h₁, h₂, rfl⟩
      cases h₁
      rwa [Record.empty_append]
  | cons e es₁ ih =>
    rw [List.cons_append, replay_cons_eq_some]
    constructor
    · rintro ⟨s', seen', more, hnext, hrest, rfl⟩
      obtain ⟨s₁, seen₁, more', h₁, h₂, rfl⟩ := ih.1 hrest
      exact ⟨s₁, seen' ++ seen₁, more', replay_cons_eq_some.2 ⟨s', seen', seen₁, hnext, h₁, rfl⟩,
        h₂, (Record.append_assoc ..).symm⟩
    · rintro ⟨s₁, seen₁, more, h₁, h₂, rfl⟩
      obtain ⟨s', seen', more', hnext, hrest, rfl⟩ := replay_cons_eq_some.1 h₁
      exact ⟨s', seen', more' ++ more, hnext, ih.2 ⟨s₁, more', more, hrest, h₂, rfl⟩,
        Record.append_assoc ..⟩

theorem replay_append {more : O} (h₁ : m.replay s es₁ = some (s₁, seen₁))
    (h₂ : m.replay s₁ es₂ = some (s₂, more)) :
    m.replay s (es₁ ++ es₂) = some (s₂, seen₁ ++ more) :=
  replay_append_eq_some.2 ⟨s₁, seen₁, more, h₁, h₂, rfl⟩

/-- The last event of a run. -/
theorem replay_concat_eq_some : m.replay s (es ++ [e]) = some (s₂, seen) ↔ ∃ s₁ seen₁ more,
    m.replay s es = some (s₁, seen₁) ∧ m.next? s₁ e = some (s₂, more) ∧ seen = seen₁ ++ more := by
  rw [replay_append_eq_some]
  constructor
  · rintro ⟨s₁, seen₁, more, h₁, h₂, rfl⟩
    obtain ⟨s', more', rest, hnext, hnil, rfl⟩ := replay_cons_eq_some.1 h₂
    cases hnil
    exact ⟨s₁, seen₁, more', h₁, hnext, by rw [Record.append_empty]⟩
  · rintro ⟨s₁, seen₁, more, h₁, hnext, rfl⟩
    exact ⟨s₁, seen₁, more, h₁,
      replay_cons_eq_some.2 ⟨s₂, more, ∅, hnext, rfl, (Record.append_empty _).symm⟩, rfl⟩

/-- What is left of a run behind a part of it. -/
theorem exists_rest_of_prefix (h : m.replay s es = some (s₂, seen)) (hp : es₁ <+: es)
    (h₁ : m.replay s es₁ = some (s₁, seen₁)) :
    ∃ es₂ more, es = es₁ ++ es₂ ∧ m.replay s₁ es₂ = some (s₂, more) ∧ seen = seen₁ ++ more := by
  obtain ⟨es₂, rfl⟩ := hp
  obtain ⟨s', seen', more, hrun, hrest, rfl⟩ := replay_append_eq_some.1 h
  obtain ⟨rfl, rfl⟩ := Prod.mk.inj (Option.some.inj (h₁.symm.trans hrun))
  exact ⟨es₂, more, rfl, hrest, rfl⟩

/-- Every event of a run is possible where it happens. -/
theorem exists_next?_of_prefix (h : m.replay s es = some (s₂, seen)) (hp : es₁ ++ [e] <+: es)
    (h₁ : m.replay s es₁ = some (s₁, seen₁)) : ∃ s' more, m.next? s₁ e = some (s', more) := by
  obtain ⟨es₂, rfl⟩ := hp
  rw [List.append_assoc] at h
  obtain ⟨es', more, hes, hrest, -⟩ := exists_rest_of_prefix h (List.prefix_append _ _) h₁
  obtain rfl := List.append_cancel_left hes
  obtain ⟨s', seen', -, hnext, -⟩ := replay_cons_eq_some.1 hrest
  exact ⟨s', seen', hnext⟩

/-- **Induction along a run**: what holds at first, and after every event if it held before. -/
theorem replay_induction {P : List E → S → O → Prop} (hstart : P [] s ∅)
    (hnext : ∀ es e s₁ seen₁ s₂ more, m.replay s es = some (s₁, seen₁) →
      m.next? s₁ e = some (s₂, more) → P es s₁ seen₁ → P (es ++ [e]) s₂ (seen₁ ++ more))
    (h : m.replay s es = some (s₂, seen)) : P es s₂ seen := by
  induction es using List.reverseRecOn generalizing s₂ seen with
  | nil =>
    cases h
    exact hstart
  | append_singleton es e ih =>
    obtain ⟨s₁, seen₁, more, h₁, hstep, rfl⟩ := replay_concat_eq_some.1 h
    exact hnext es e s₁ seen₁ s₂ more h₁ hstep (ih h₁)

/-! ### At every moment -/

theorem Always.upTo {P : S → O → Prop} (h : m.Always s es P) (hp : es₁ <+: es) :
    m.Always s es₁ P :=
  fun es' s' seen' hp' hrun => h es' s' seen' (hp'.trans hp) hrun

theorem Never.upTo {P : S → E → Prop} (h : m.Never s es P) (hp : es₁ <+: es) : m.Never s es₁ P :=
  fun es' e s' seen' hp' hrun => h es' e s' seen' (hp'.trans hp) hrun

/-- What follows a part of a run has no event of the sort either. -/
theorem Never.behind {P : S → E → Prop} (h : m.Never s (es₁ ++ es₂) P)
    (h₁ : m.replay s es₁ = some (s₁, seen₁)) : m.Never s₁ es₂ P := by
  intro es e s' seen hprefix hrun
  refine h (es₁ ++ es) e s' (seen₁ ++ seen) ?_ (replay_append h₁ hrun)
  rw [List.append_assoc]
  exact (List.prefix_append_right_inj es₁).2 hprefix

/-- The last event is one of them. -/
theorem never_concat {P : S → E → Prop} (hrun : m.replay s es = some (s₁, seen)) :
    m.Never s (es ++ [e]) P ↔ m.Never s es P ∧ ¬P s₁ e := by
  constructor
  · exact fun h => ⟨h.upTo (List.prefix_append _ _), h es e s₁ seen (List.prefix_refl _) hrun⟩
  · rintro ⟨hbefore, hlast⟩ es₁ e₁ s₂ seen₂ hp hrun₂
    rcases List.prefix_concat_iff.1 hp with heq | hp
    · obtain ⟨rfl, rfl⟩ := List.append_singleton_inj.1 heq
      obtain ⟨rfl, rfl⟩ := Prod.mk.inj (Option.some.inj (hrun.symm.trans hrun₂))
      exact hlast
    · exact hbefore es₁ e₁ s₂ seen₂ hp hrun₂

theorem not_never_iff {P : S → E → Prop} : ¬m.Never s es P ↔
    ∃ es₁ e s₁ seen₁, es₁ ++ [e] <+: es ∧ m.replay s es₁ = some (s₁, seen₁) ∧ P s₁ e := by
  simp only [Never, not_forall, not_not, exists_prop]

/-- Something that holds at every moment of a run and of another one that follows. -/
theorem Always.append {P : S → Prop} (h : m.Always s es₁ fun s _ => P s)
    (hrun : m.replay s es₁ = some (s₁, seen₁)) (h' : m.Always s₁ es₂ fun s _ => P s) :
    m.Always s (es₁ ++ es₂) fun s _ => P s := by
  intro es s₂ seen hp hrun'
  rcases List.prefix_or_prefix_of_prefix hp (List.prefix_append es₁ es₂) with hbefore | hbehind
  · exact h es s₂ seen hbefore hrun'
  · obtain ⟨es₃, more, rfl, hrest, -⟩ := exists_rest_of_prefix hrun' hbehind hrun
    exact h' es₃ s₂ more ((List.prefix_append_right_inj es₁).1 hp) hrest

theorem always_iff {P : S → O → Prop} :
    m.Always s es P ↔ ∀ es₁ ∈ es.inits, ∀ r ∈ (m.replay s es₁).toList, P r.1 r.2 := by
  constructor
  · intro h es₁ hes₁ r hr
    exact h es₁ r.1 r.2 ((List.mem_inits es₁ es).1 hes₁) (Option.mem_toList.1 hr)
  · intro h es₁ s₁ seen₁ hp hrun
    exact h es₁ ((List.mem_inits es₁ es).2 hp) (s₁, seen₁) (Option.mem_toList.2 hrun)

instance {P : S → O → Prop} [∀ s seen, Decidable (P s seen)] : Decidable (m.Always s es P) :=
  decidable_of_iff _ always_iff.symm

/-! ### Notes of a run -/

variable {note : S → E → S → O → List α} {more : O}

theorem collect_append (h : m.replay s es₁ = some (s₁, seen)) :
    m.collect note s (es₁ ++ es₂) = m.collect note s es₁ ++ m.collect note s₁ es₂ := by
  induction es₁ generalizing s seen with
  | nil =>
    cases h
    rfl
  | cons e es ih =>
    obtain ⟨s₂, seen₂, more, hnext, hrest, -⟩ := replay_cons_eq_some.1 h
    rw [List.cons_append, collect, hnext, collect, hnext]
    dsimp only
    rw [ih hrest, List.append_assoc]

/-- The notes of the last event come last. -/
theorem collect_concat (h : m.replay s es = some (s₁, seen))
    (hnext : m.next? s₁ e = some (s₂, more)) :
    m.collect note s (es ++ [e]) = m.collect note s es ++ note s₁ e s₂ more := by
  rw [collect_append h, collect, hnext]
  exact congrArg _ (List.append_nil _)

end Machine
end Mqtt
