import Mqtt.Broker.Step
import Mqtt.Proofs.Packet.Filters
import Mqtt.Proofs.Topic.Index
/-!
# The filters of a session

A session holds the filters that the packets it was served ask for (`FilterIndex.Reflects`), and no
others: a packet changes them as `Packet.settle` says (`Reflects.serve`).
-/

namespace Mqtt
namespace FilterIndex

variable {x : FilterIndex} {S : Finset String} {served : List Packet}

/-- The filters of a session once a packet has been served. -/
def serve (x : FilterIndex) : Packet → FilterIndex
  | .subscribe _ wanted => (Broker.subscribeAll x wanted).1
  | .unsubscribe _ gone => Broker.unsubscribeAll x gone
  | _ => x

/-- The index holds what is held once these packets have been served. -/
def Reflects (x : FilterIndex) (served : List Packet) : Prop :=
  ∃ S : Finset String, x.Holds S ∧ ∀ f, f ∈ S ↔ Packet.held f served = true

theorem contains_empty {f : String} : empty.contains f = false := by
  rw [holds_empty.contains_eq]
  rfl

theorem matchesTopic_empty {topic : String} : empty.matchesTopic topic = false := by
  rw [← Bool.not_eq_true, holds_empty.matchesTopic_iff]
  simp

theorem reflects_empty : empty.Reflects [] :=
  ⟨∅, holds_empty, fun f => by simp [Packet.held]⟩

/-- The index refuses what is malformed, and nothing else. -/
theorem exists_subscribe_eq_ok {f : String} :
    (∃ r, x.subscribe f = .ok r) ↔ Topic.validateFilter f = .ok () := by
  rw [subscribe]
  rcases Topic.validateFilter f with e | ⟨⟩
  · simp [bind, Except.bind]
  · simp only [bind, Except.bind, pure, Except.pure, iff_true]
    split_ifs <;> exact ⟨_, rfl⟩

/-- The filters of a SUBSCRIBE are inserted, but for malformed ones. -/
theorem exists_holds_subscribeAll (h : x.Holds S) (wanted : List Subscription) :
    ∃ S' : Finset String, (Broker.subscribeAll x wanted).1.Holds S' ∧ ∀ f, f ∈ S' ↔
      f ∈ S ∨ f ∈ wanted.map Subscription.filter ∧ Topic.validateFilter f = .ok () := by
  induction wanted generalizing x S with
  | nil => exact ⟨S, h, fun f => by simp⟩
  | cons w wanted ih =>
    have hcall := (FilterCall.onIndex_eq_onSet h (.subscribe w.filter)).2
    rw [FilterCall.onIndex, FilterCall.onSet] at hcall
    rw [Broker.subscribeAll]
    rcases hsubscribe : x.subscribe w.filter with e | ⟨new, x'⟩
    · -- The filter is malformed: it is passed over, and the rest are inserted.
      obtain ⟨S', hS', hmem⟩ := ih h
      refine ⟨S', hS', fun f => ?_⟩
      have hw : Topic.validateFilter w.filter ≠ .ok () := by
        intro hv
        obtain ⟨r, hr⟩ := exists_subscribe_eq_ok.2 hv
        rw [hsubscribe] at hr
        cases hr
      rw [hmem, List.map_cons, List.mem_cons]
      constructor
      · rintro (hf | ⟨hf, hv⟩)
        · exact .inl hf
        · exact .inr ⟨.inr hf, hv⟩
      · rintro (hf | ⟨rfl | hf, hv⟩)
        · exact .inl hf
        · exact absurd hv hw
        · exact .inr ⟨hf, hv⟩
    · -- The filter is inserted before the rest.
      have hw := exists_subscribe_eq_ok.1 ⟨_, hsubscribe⟩
      rw [hsubscribe, hw] at hcall
      obtain ⟨S', hS', hmem⟩ := ih hcall
      refine ⟨S', hS', fun f => ?_⟩
      rw [hmem, List.map_cons, List.mem_cons, Finset.mem_insert]
      constructor
      · rintro ((rfl | hf) | ⟨hf, hv⟩)
        · exact .inr ⟨.inl rfl, hw⟩
        · exact .inl hf
        · exact .inr ⟨.inr hf, hv⟩
      · rintro (hf | ⟨rfl | hf, hv⟩)
        · exact .inl (.inr hf)
        · exact .inl (.inl rfl)
        · exact .inr ⟨hf, hv⟩

/-- The filters of an UNSUBSCRIBE are erased. -/
theorem exists_holds_unsubscribeAll (h : x.Holds S) (gone : List String) :
    ∃ S' : Finset String, (Broker.unsubscribeAll x gone).Holds S' ∧
      ∀ f, f ∈ S' ↔ f ∈ S ∧ f ∉ gone := by
  induction gone generalizing x S with
  | nil => exact ⟨S, h, fun f => by simp⟩
  | cons g gone ih =>
    obtain ⟨S', hS', hmem⟩ := ih (FilterCall.onIndex_eq_onSet h (.unsubscribe g)).2
    refine ⟨S', hS', fun f => ?_⟩
    rw [hmem, List.mem_cons, not_or, ← and_assoc]
    show (f ∈ S.erase g ∧ f ∉ gone) ↔ _
    rw [Finset.mem_erase, and_comm (a := f ≠ g)]

/-- **To serve a packet is to do to the filters what it asks for.** -/
theorem Reflects.serve (h : x.Reflects served) (p : Packet) :
    (x.serve p).Reflects (served ++ [p]) := by
  obtain ⟨S, hS, hmem⟩ := h
  cases p with
  | subscribe id wanted =>
    obtain ⟨S', hS', hmem'⟩ := exists_holds_subscribeAll hS wanted
    refine ⟨S', hS', fun f => ?_⟩
    rw [hmem', hmem, Packet.held_concat, Packet.settle, Bool.or_eq_true, Bool.and_eq_true,
      List.contains_iff_mem]
    rcases Topic.validateFilter f with e | ⟨⟩ <;> simp [Except.isOk, Except.toBool]
  | unsubscribe id gone =>
    obtain ⟨S', hS', hmem'⟩ := exists_holds_unsubscribeAll hS gone
    refine ⟨S', hS', fun f => ?_⟩
    rw [hmem', hmem, Packet.held_concat, Packet.settle, Bool.and_eq_true, Bool.not_eq_true',
      ← Bool.not_eq_true, List.contains_iff_mem]
  | _ =>
    refine ⟨S, hS, fun f => ?_⟩
    rw [hmem, Packet.held_concat]
    rfl

end FilterIndex
end Mqtt
