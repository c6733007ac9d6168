import Mathlib.Data.List.Nodup
import Mqtt.Proofs.Stream.Sending
/-!
# Turnstiles as lines

Who stands at a turnstile can be read off the turnstile, and off those who use it: each of them
knows whether it has come and not gone yet. `Turnstile.Lines` says that both agree. Whoever moves
may come to the end of the line or go away from it (`Turnstile.Queues`), and `Lines.step` says that
they agree afterwards if they did before. A task that sends a frame does no more than that
(`Outlet.Moves.queues`).
-/

namespace Mqtt

namespace Turnstile

variable {ι : Type} {t t' : Turnstile ι} {i j : ι} {stands stands' : ι → Bool}

/-- Everybody who stands at a turnstile, the one inside first. -/
def members (t : Turnstile ι) : List ι := t.inside.toList ++ t.line

/-- Nobody is in line while nobody is inside. -/
def Orderly (t : Turnstile ι) : Prop := t.inside = none → t.line = []

theorem orderly_empty : (empty : Turnstile ι).Orderly := fun _ => rfl

/-- Whoever comes finds or leaves somebody inside. -/
theorem orderly_enter : (t.enter i).Orderly := by
  unfold Turnstile.enter
  rcases hinside : t.inside with _ | j <;> nofun

theorem members_enter (h : t.Orderly) : (t.enter i).members = t.members ++ [i] := by
  rw [members, members, Turnstile.enter]
  rcases hinside : t.inside with _ | j
  · simp [h hinside]
  · simp

theorem Orderly.eq_empty (h : t.Orderly) (hmembers : t.members = []) : t = empty := by
  obtain ⟨inside, line⟩ := t
  rcases inside with _ | j
  · rw [show line = [] from h rfl]
    rfl
  · cases hmembers

/-- Where anybody stands, somebody is inside. -/
theorem Orderly.exists_inside (h : t.Orderly) (hi : i ∈ t.members) :
    ∃ j ∈ t.members, t.inside = some j := by
  rcases hinside : t.inside with _ | j
  · rw [members, hinside, h hinside] at hi
    cases hi
  · refine ⟨j, ?_, rfl⟩
    rw [members, hinside]
    exact List.mem_cons_self

variable [DecidableEq ι]

theorem Orderly.leave (h : t.Orderly) : (t.leave i).Orderly := by
  unfold Turnstile.leave
  split_ifs with hinside
  · intro hnone
    change t.line.head? = none at hnone
    rw [List.head?_eq_none_iff] at hnone
    show t.line.tail = []
    rw [hnone]
    rfl
  · intro hnone
    change t.inside = none at hnone
    show t.line.erase i = []
    rw [h hnone]
    rfl

theorem members_leave : (t.leave i).members = t.members.erase i := by
  rw [members, members, Turnstile.leave]
  obtain ⟨inside, line⟩ := t
  rcases inside with _ | j
  · rfl
  · by_cases hj : j = i
    · subst hj
      rcases line with _ | ⟨j', line⟩ <;> simp
    · simp [hj]

/-! ### Who stands in line -/

/-- What a task does to a line, with whether it stands there before and after. -/
inductive Queues (t t' : Turnstile ι) (i : ι) : Bool → Bool → Prop
  | stays {b : Bool} : t' = t → Queues t t' i b b
  | comes : t' = t.enter i → Queues t t' i false true
  | goes : t' = t.leave i → Queues t t' i true false

theorem Queues.congr {b b' x y : Bool} (h : Queues t t' i x y) (hx : b = x) (hy : b' = y) :
    Queues t t' i b b' := by
  rw [hx, hy]
  exact h

/-- The line is made up of those who stand there by their own account, each once. -/
structure Lines (t : Turnstile ι) (stands : ι → Bool) : Prop where
  orderly : t.Orderly
  nodup : t.members.Nodup
  mem : ∀ i, i ∈ t.members ↔ stands i = true

omit [DecidableEq ι] in
theorem lines_empty (h : ∀ i, stands i = false) : (empty : Turnstile ι).Lines stands where
  orderly := orderly_empty
  nodup := List.nodup_nil
  mem i := by
    rw [h]
    exact iff_of_false List.not_mem_nil Bool.false_ne_true

omit [DecidableEq ι] in
/-- Where anybody stands, somebody is inside. -/
theorem Lines.exists_inside (h : t.Lines stands) (hi : stands i = true) :
    ∃ j, t.inside = some j ∧ stands j = true := by
  obtain ⟨j, hj, hinside⟩ := h.orderly.exists_inside ((h.mem i).2 hi)
  exact ⟨j, hinside, (h.mem j).1 hj⟩

/-- **Every move keeps a line right.** -/
theorem Lines.step (h : t.Lines stands) (hqueues : Queues t t' i (stands i) (stands' i))
    (hothers : ∀ j, j ≠ i → stands' j = stands j) : t'.Lines stands' := by
  generalize hx : stands i = x at hqueues
  generalize hy : stands' i = y at hqueues
  cases hqueues with
  | stays hsame =>
    subst hsame
    refine ⟨h.orderly, h.nodup, fun j => ?_⟩
    rw [h.mem]
    by_cases hj : j = i
    · rw [hj, hx, hy]
    · rw [hothers j hj]
  | comes henter =>
    subst henter
    -- Whoever comes stood nowhere, so nobody stands there twice.
    have hmembers : (t.enter i).members = t.members ++ [i] := members_enter h.orderly
    have hnew : i ∉ t.members := by simp [h.mem, hx]
    refine ⟨orderly_enter, ?_, fun j => ?_⟩
    · rw [hmembers, ← List.concat_eq_append]
      exact h.nodup.concat hnew
    · rw [hmembers, List.mem_append, List.mem_singleton, h.mem]
      by_cases hj : j = i
      · simp [hj, hy]
      · simp [hj, hothers j hj]
  | goes hleave =>
    subst hleave
    refine ⟨h.orderly.leave, ?_, fun j => ?_⟩
    · rw [members_leave]
      exact h.nodup.erase i
    · -- One place is given up, and it was the only one of the one who goes.
      rw [members_leave, h.nodup.mem_erase_iff, h.mem]
      by_cases hj : j = i
      · simp [hj, hy]
      · simp [hj, hothers j hj]

end Turnstile

/-! ### Sending -/

/-- Whether a task that sends a frame has come to the turnstile. -/
def Sending.stands : Sending → Bool
  | .starting => false
  | .inLine | .pushing _ => true

namespace Outlet

variable {ι : Type} [DecidableEq ι] {o : Outlet ι} {i : ι} {frame : Except Fault Bytes}
  {cancelled : Bool} {s : Sending}

/-- **What a sending task does to the line.** -/
theorem Moves.queues {m : SendMove} {sent : Sent ι} (h : Moves o i frame cancelled s m sent) :
    Turnstile.Queues o.turnstile sent.outlet.turnstile i s.stands
      (sent.state.elim Sending.stands fun _ => false) := by
  cases h with
  | enter => exact .comes rfl
  | layOut _ _ | part _ _ | giveUpOutside _ => exact .stays rfl
  | fault _ _ | broken _ | whole _ | giveUpInLine _ | giveUpPushing _ => exact .goes rfl

/-- A task that is dropped leaves the line, if it stands there. -/
theorem queues_abandon :
    Turnstile.Queues o.turnstile (o.abandon i s).turnstile i s.stands false := by
  cases s with
  | starting => exact .stays rfl
  | inLine | pushing _ => exact .goes rfl

end Outlet
end Mqtt
