import Mathlib.Tactic.SplitIfs
import Mqtt.Stream.Sending
/-!
# What a sending task can do

`Outlet.Moves` lists the moves of a task that sends a frame, one rule for each, and
`Outlet.step_eq_some` says that these are all of them. Everything about sending is read off the
rules; nothing else looks into `Outlet.step`.
-/

namespace Mqtt

namespace Pipe

/-- What a write that takes something does. -/
theorem write_eq_took {p p' : Pipe} {bs taken left : Bytes} :
    p.write bs = .took p' taken left ↔
      p.closed = false ∧ p.free ≠ 0 ∧ p' = { p with unread := p.unread.push taken } ∧
        taken = bs.take p.free ∧ left = bs.drop p.free := by
  rw [write]
  split_ifs with hclosed hfull
  · simp [hclosed]
  · simp [hfull]
  · simp only [Written.took.injEq]
    constructor
    · rintro ⟨rfl, rfl, rfl⟩
      exact ⟨by simpa using hclosed, hfull, rfl, rfl, rfl⟩
    · rintro ⟨-, -, rfl, rfl, rfl⟩
      exact ⟨rfl, rfl, rfl⟩

theorem write_eq_broken {p : Pipe} {bs : Bytes} : p.write bs = .broken ↔ p.closed = true := by
  rw [write]
  split_ifs with hclosed hfull <;> simp [hclosed]

theorem write_eq_full {p : Pipe} {bs : Bytes} :
    p.write bs = .full ↔ p.closed = false ∧ p.free = 0 := by
  rw [write]
  split_ifs with hclosed hfull
  · simp [hclosed]
  · simp [hclosed, hfull]
  · simp [hfull]

/-- What is taken and what is left are the bytes to be written. -/
theorem append_of_write {p p' : Pipe} {bs taken left : Bytes}
    (h : p.write bs = .took p' taken left) : taken ++ left = bs := by
  obtain ⟨-, -, -, rfl, rfl⟩ := write_eq_took.1 h
  exact List.take_append_drop _ _

/-- Something is taken, if there is something. -/
theorem taken_ne_nil {p p' : Pipe} {bs taken left : Bytes} (h : p.write bs = .took p' taken left)
    (hne : bs ≠ []) : taken ≠ [] := by
  obtain ⟨-, hfree, -, rfl, -⟩ := write_eq_took.1 h
  simp [hne, hfree]

theorem closed_of_write {p p' : Pipe} {bs taken left : Bytes}
    (h : p.write bs = .took p' taken left) : p'.closed = p.closed := by
  obtain ⟨-, -, rfl, -, -⟩ := write_eq_took.1 h
  rfl

/-- What is taken comes behind what has not been read. -/
theorem unread_of_write {p p' : Pipe} {bs taken left : Bytes}
    (h : p.write bs = .took p' taken left) : p'.unread.toList = p.unread.toList ++ taken := by
  obtain ⟨-, -, rfl, rfl, -⟩ := write_eq_took.1 h
  exact ByteQueue.toList_push _ _

/-- What a read that brings something does. -/
theorem read_eq_got {p p' : Pipe} {n : Nat} {bs : Bytes} (h : p.read n = .got bs p') :
    bs = p.unread.toList.take n ∧ p' = { p with unread := p.unread.drop n } := by
  have hread : p.read n = if p.unread.isEmpty then if p.closed then .ended else .nothing
      else .got (p.unread.take n) { p with unread := p.unread.drop n } := rfl
  rw [hread] at h
  split_ifs at h
  simp only [Read.got.injEq] at h
  exact ⟨by rw [← h.1, ByteQueue.take_eq], h.2.symm⟩

theorem closed_of_read {p p' : Pipe} {n : Nat} {bs : Bytes} (h : p.read n = .got bs p') :
    p'.closed = p.closed := by
  obtain ⟨-, rfl⟩ := read_eq_got h
  rfl

/-- What is read was in front. -/
theorem unread_of_read {p p' : Pipe} {n : Nat} {bs : Bytes} (h : p.read n = .got bs p') :
    bs ++ p'.unread.toList = p.unread.toList := by
  obtain ⟨rfl, rfl⟩ := read_eq_got h
  rw [ByteQueue.toList_drop]
  exact List.take_append_drop _ _

/-- A reader waits where nothing is on the way, but something may come. -/
theorem unread_of_nothing {p : Pipe} {n : Nat} (h : p.read n = .nothing) :
    p.unread.toList = [] ∧ p.closed = false := by
  rw [read] at h
  split_ifs at h with hempty hclosed
  exact ⟨(ByteQueue.isEmpty_iff _).1 hempty, by simpa using hclosed⟩

end Pipe

namespace Turnstile

variable {ι : Type} {t : Turnstile ι} {i j : ι}

theorem holds_iff [DecidableEq ι] : t.holds i = true ↔ t.inside = some i := by
  rw [holds, decide_eq_true_eq]

/-- Whoever is inside stays inside when another one comes. -/
theorem inside_enter (h : t.inside = some i) : (t.enter j).inside = some i := by
  rw [enter, h]

/-- Whoever is inside stays inside when another one goes. -/
theorem inside_leave [DecidableEq ι] (h : t.inside = some i) (hne : i ≠ j) :
    (t.leave j).inside = some i := by
  rw [leave, if_neg]
  · exact h
  · rw [h, Option.some.injEq]
    exact hne

end Turnstile

namespace Outlet

variable {ι : Type} [DecidableEq ι]

/-- The moves of the task `i` that sends `frame`, from a state of the sending, and what each leads
to. -/
inductive Moves (o : Outlet ι) (i : ι) (frame : Except Fault Bytes) (cancelled : Bool) :
    Sending → SendMove → Sent ι → Prop
  | enter :
    Moves o i frame cancelled .starting .enter
      ⟨{ o with turnstile := o.turnstile.enter i }, .inl .inLine, []⟩
  | layOut {bs : Bytes} : o.turnstile.inside = some i → frame = .ok bs →
    Moves o i frame cancelled .inLine .layOut ⟨o, .inl (.pushing bs), []⟩
  | fault {f : Fault} : o.turnstile.inside = some i → frame = .error f →
    Moves o i frame cancelled .inLine .layOut ⟨o.leave i, .inr (.error f), []⟩
  | broken {left : Bytes} : o.pipe.closed = true →
    Moves o i frame cancelled (.pushing left) .push
      ⟨o.leave i, .inr (.error brokenPipe), []⟩
  | part {left taken rest : Bytes} {p : Pipe} : o.pipe.write left = .took p taken rest →
    rest ≠ [] →
    Moves o i frame cancelled (.pushing left) .push
      ⟨{ o with pipe := p }, .inl (.pushing rest), taken⟩
  | whole {left taken : Bytes} {p : Pipe} : o.pipe.write left = .took p taken [] →
    Moves o i frame cancelled (.pushing left) .push
      ⟨{ turnstile := o.turnstile.leave i, pipe := p }, .inr (.ok ()), taken⟩
  | giveUpOutside : cancelled = true →
    Moves o i frame cancelled .starting .giveUp ⟨o, .inr (.error .cancelled), []⟩
  | giveUpInLine : cancelled = true →
    Moves o i frame cancelled .inLine .giveUp ⟨o.leave i, .inr (.error .cancelled), []⟩
  | giveUpPushing {left : Bytes} : cancelled = true →
    Moves o i frame cancelled (.pushing left) .giveUp ⟨o.leave i, .inr (.error .cancelled), []⟩

variable {o : Outlet ι} {i : ι} {frame : Except Fault Bytes} {cancelled : Bool}

theorem moves_of_step_eq_some {s : Sending} {m : SendMove} {sent : Sent ι}
    (h : o.step i frame cancelled s m = some sent) : Moves o i frame cancelled s m sent := by
  cases s with
  | starting =>
    cases m with
    | enter =>
      cases h
      exact .enter
    | giveUp =>
      simp only [step, Option.ite_none_right_eq_some, Option.some.injEq] at h
      obtain ⟨hc, rfl⟩ := h
      exact .giveUpOutside hc
    | _ => cases h
  | inLine =>
    cases m with
    | layOut =>
      simp only [step, Option.ite_none_right_eq_some, Turnstile.holds_iff] at h
      obtain ⟨hinside, h⟩ := h
      rcases hf : frame with f | bs
      · rw [hf] at h
        cases h
        exact hf ▸ .fault hinside hf
      · rw [hf] at h
        cases h
        exact hf ▸ .layOut hinside hf
    | giveUp =>
      simp only [step, Option.ite_none_right_eq_some, Option.some.injEq] at h
      obtain ⟨hc, rfl⟩ := h
      exact .giveUpInLine hc
    | _ => cases h
  | pushing left =>
    cases m with
    | push =>
      rw [step] at h
      rcases hw : o.pipe.write left with _ | _ | ⟨p, taken, rest⟩
      · rw [hw] at h
        cases h
        exact .broken (Pipe.write_eq_broken.1 hw)
      · rw [hw] at h
        cases h
      · rw [hw] at h
        dsimp only at h
        -- The frame is all in the pipe, or a part of it is left.
        split_ifs at h with hrest
        · rw [List.isEmpty_iff] at hrest
          subst hrest
          cases h
          exact .whole hw
        · cases h
          exact .part hw (by simpa using hrest)
    | giveUp =>
      simp only [step, Option.ite_none_right_eq_some, Option.some.injEq] at h
      obtain ⟨hc, rfl⟩ := h
      exact .giveUpPushing hc
    | _ => cases h

/-- **The moves of a sending task are those of the rules.** -/
theorem step_eq_some {s : Sending} {m : SendMove} {sent : Sent ι} :
    o.step i frame cancelled s m = some sent ↔ Moves o i frame cancelled s m sent := by
  refine ⟨moves_of_step_eq_some, fun h => ?_⟩
  cases h with
  | enter => rfl
  | layOut hinside hf =>
    simp only [step, Turnstile.holds_iff.2 hinside, if_true, hf, goOn]
  | fault hinside hf =>
    simp only [step, Turnstile.holds_iff.2 hinside, if_true, hf, finish]
  | broken hclosed => rw [step, Pipe.write_eq_broken.2 hclosed, finish]
  | part hw hrest =>
    rw [step, hw]
    dsimp only
    rw [if_neg (by simpa using hrest)]
  | whole hw =>
    rw [step, hw]
    rfl
  | giveUpOutside hc => rw [step, if_pos hc]
  | giveUpInLine hc => rw [step, if_pos hc, finish]
  | giveUpPushing hc => rw [step, if_pos hc, finish]

/-- A task that pushes can move if there is room, and also if the pipe is closed. -/
theorem exists_moves_push {left : Bytes} (h : o.pipe.closed = true ∨ o.pipe.free ≠ 0) :
    ∃ sent, Moves o i frame cancelled (.pushing left) .push sent := by
  by_cases hclosed : o.pipe.closed = true
  · exact ⟨_, .broken hclosed⟩
  · have hw : o.pipe.write left = .took _ _ _ := Pipe.write_eq_took.2
      ⟨by simpa using hclosed, h.resolve_left hclosed, rfl, rfl, rfl⟩
    rcases hrest : left.drop o.pipe.free with _ | ⟨b, rest⟩
    · rw [hrest] at hw
      exact ⟨_, .whole hw⟩
    · rw [hrest] at hw
      exact ⟨_, .part hw nofun⟩

theorem Moves.closed {s : Sending} {m : SendMove} {sent : Sent ι}
    (h : Moves o i frame cancelled s m sent) : sent.outlet.pipe.closed = o.pipe.closed := by
  cases h with
  | part hw _ | whole hw => exact Pipe.closed_of_write hw
  | _ => rfl

theorem Moves.unread {s : Sending} {m : SendMove} {sent : Sent ι}
    (h : Moves o i frame cancelled s m sent) :
    sent.outlet.pipe.unread.toList = o.pipe.unread.toList ++ sent.pushed := by
  cases h with
  | part hw _ | whole hw => exact Pipe.unread_of_write hw
  | _ => exact (List.append_nil _).symm

end Outlet
end Mqtt
