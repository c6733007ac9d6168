import Mqtt.Proofs.Broker.Conns
import Mqtt.Proofs.Runs
/-!
# Runs of a broker

A broker is a machine (`Broker.machine`), and `Broker.replay` plays a list of events on it. What is
proved of runs in general is restated here for a broker as far as its proofs go through it; what
stays of a broker after one event stays in the course of a run (`replay_evolves`).
-/

namespace Mqtt
namespace Broker

/-- A broker takes inputs, and moves. -/
def machine : Machine Broker Event (List Observation) := ⟨next?⟩

/-- What a list of events leads to, with everything that is seen on the way. Nothing if one of them
is not possible. -/
def replay (b : Broker) (es : List Event) : Option (Broker × List Observation) :=
  machine.replay b es

/-- At every moment of a run something holds of the state and of all that has been seen. -/
abbrev Always (b : Broker) (es : List Event) (P : Broker → List Observation → Prop) : Prop :=
  machine.Always b es P

/-- No event of a run is of a certain sort. -/
abbrev Never (b : Broker) (es : List Event) (P : Broker → Event → Prop) : Prop :=
  machine.Never b es P

variable {b b₁ b₂ : Broker} {es es₁ es₂ : List Event} {e : Event} {seen seen₁ : List Observation}

theorem replay_concat_eq_some :
    b.replay (es ++ [e]) = some (b₂, seen) ↔ ∃ b₁ seen₁ more, b.replay es = some (b₁, seen₁) ∧
      b₁.next? e = some (b₂, more) ∧ seen = seen₁ ++ more :=
  Machine.replay_concat_eq_some

/-- **Induction along a run**: what holds at first, and after every event if it held before. -/
theorem replay_induction {P : List Event → Broker → List Observation → Prop}
    (hstart : P [] b [])
    (hnext : ∀ es e b₁ seen₁ b₂ more, b.replay es = some (b₁, seen₁) →
      b₁.next? e = some (b₂, more) → P es b₁ seen₁ → P (es ++ [e]) b₂ (seen₁ ++ more))
    (h : b.replay es = some (b₂, seen)) : P es b₂ seen :=
  Machine.replay_induction hstart hnext h

/-- The last event is one of them. -/
theorem never_concat {P : Broker → Event → Prop} (hrun : b.replay es = some (b₁, seen)) :
    b.Never (es ++ [e]) P ↔ b.Never es P ∧ ¬P b₁ e :=
  Machine.never_concat hrun

/-- What stays of a broker stays in the course of a run. -/
theorem replay_evolves (hg : b.Greets) (h : b.replay es = some (b₂, seen)) : b.Evolves b₂ := by
  refine replay_induction (P := fun _ b' _ => b.Evolves b') (.refl b) ?_ h
  intro es e b₁ seen₁ b' more _ hstep hevolves
  exact hevolves.trans (next?_evolves (hevolves.greets hg) hstep)

/-- The same from any moment of a run to its end. -/
theorem replay_evolves_since (hg : b.Greets) (h : b.replay es = some (b₂, seen))
    (hp : es₁ <+: es) (h₁ : b.replay es₁ = some (b₁, seen₁)) : b₁.Evolves b₂ := by
  have hg₁ := (replay_evolves hg h₁).greets hg
  obtain ⟨es₂, more, -, hrest, -⟩ := Machine.exists_rest_of_prefix h hp h₁
  exact replay_evolves hg₁ hrest

/-! ### Notes of a run -/

section Notes

variable {α : Type} {note : Broker → Event → Option α} {P : α → Prop}

/-- What is noted of the events of a run, one after the other. -/
def collect (note : Broker → Event → Option α) (b : Broker) (es : List Event) : List α :=
  machine.collect (fun b e _ _ => (note b e).toList) b es

theorem collect_append (h : b.replay es₁ = some (b₁, seen)) :
    b.collect note (es₁ ++ es₂) = b.collect note es₁ ++ b₁.collect note es₂ :=
  Machine.collect_append h

theorem collect_concat {more : List Observation} (h : b.replay es = some (b₁, seen))
    (hnext : b₁.next? e = some (b₂, more)) :
    b.collect note (es ++ [e]) = b.collect note es ++ (note b₁ e).toList :=
  Machine.collect_concat h hnext

/-- All notes of a run are of one sort if and only if no event gives another one. -/
theorem forall_mem_collect_iff (h : b.replay es = some (b₂, seen)) :
    (∀ x ∈ b.collect note es, P x) ↔ b.Never es fun b e => ∃ x, note b e = some x ∧ ¬P x := by
  refine replay_induction (P := fun es _ _ => (∀ x ∈ b.collect note es, P x) ↔
    b.Never es fun b e => ∃ x, note b e = some x ∧ ¬P x) ?_ ?_ h
  · refine iff_of_true nofun fun es₁ e _ _ hp => ?_
    exact absurd (List.prefix_nil.1 hp) (by simp)
  · intro es e b₁ seen₁ b₂ more hrun hnext ih
    rw [never_concat hrun, ← ih, collect_concat hrun hnext]
    simp only [List.mem_append, or_imp, forall_and, Option.mem_toList, not_exists, not_and, not_not]

end Notes

end Broker
end Mqtt
