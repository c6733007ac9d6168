import Mathlib.Data.List.Induction
import Mqtt.Client.Calls
/-!
# Which packet id a request gets

The counter of a client goes around all the ids, 0 included, and a request gets the first one on its
way that is free. That the search ends after one round with the right answer is proved in two
parts. `reserveWithin_cases` says where a search that is cut off anywhere stands: either nothing it
has passed was free, and it has only moved the counter, or it has stopped at the first free id. The
other part is that a whole round passes every id exactly once (`nth_ahead`, `ahead_lt`,
`ahead_nth`), and comes back to where it began.

`reserve_cyclic` puts them together, for one request and for any number of requests one after
another. It is about any counter and any ids that are taken, whether or not a client can come to
have them.
-/

namespace Mqtt
namespace PacketIds

variable {ids ids' : PacketIds} {id id' : UInt16} {call tries j : Nat}

/-! ### The way around -/

/-- A request can be given this id. -/
def IsFree (ids : PacketIds) (id : UInt16) : Prop := id ≠ 0 ∧ id ∉ ids.taken

/-- How many ids the counter passes before it comes to this one. -/
def ahead (ids : PacketIds) (id : UInt16) : Nat := (id - ids.next).toNat

/-- Of the ids that are free, the one that the counter comes to first. -/
def IsFirstFree (ids : PacketIds) (id : UInt16) : Prop :=
  ids.IsFree id ∧ ∀ other, ids.IsFree other → ids.ahead id ≤ ids.ahead other

/-- The id that the counter comes to after so many others. -/
def nth (ids : PacketIds) (j : Nat) : UInt16 := ids.next + .ofNat j

/-- An id is taken, and the counter stands behind it. -/
def take (ids : PacketIds) (id : UInt16) (call : Nat) : PacketIds :=
  ⟨id + 1, ids.taken.insert id call⟩

theorem ahead_lt (ids : PacketIds) (id : UInt16) : ids.ahead id < 65536 := UInt16.toNat_lt _

theorem nth_ahead (ids : PacketIds) (id : UInt16) : ids.nth (ids.ahead id) = id := by
  rw [nth, ahead, UInt16.ofNat_toNat, UInt16.add_comm, UInt16.sub_add_cancel]

theorem ahead_nth (ids : PacketIds) (h : j < 65536) : ids.ahead (ids.nth j) = j := by
  rw [ahead, nth, UInt16.add_comm, UInt16.add_sub_cancel, UInt16.toNat_ofNat_of_lt' h]

@[simp]
theorem nth_zero (ids : PacketIds) : ids.nth 0 = ids.next := UInt16.add_zero _

theorem nth_round (ids : PacketIds) : ids.nth 65536 = ids.next := UInt16.add_zero _

/-- Two ids to which the counter comes at the same time are one. -/
theorem ahead_inj (h : ids.ahead id = ids.ahead id') : id = id' := by
  rw [← ids.nth_ahead id, h, nth_ahead]

/-- No id is free exactly if every id but 0 is taken. -/
theorem forall_not_isFree : (∀ id, ¬ids.IsFree id) ↔ ∀ id, id ≠ 0 → id ∈ ids.taken := by
  simp only [IsFree, not_and, not_not]

/-- There is only one first free id. -/
theorem IsFirstFree.unique (h : ids.IsFirstFree id) (h' : ids.IsFirstFree id') : id = id' :=
  ahead_inj (Nat.le_antisymm (h.2 _ h'.1) (h'.2 _ h.1))

/-- An id is taken afterwards if it is the one that was asked for, or was taken before. -/
theorem mem_taken_take : id' ∈ (ids.take id call).taken ↔ id' = id ∨ id' ∈ ids.taken := by
  rw [take, Std.TreeMap.mem_insert, Std.compare_eq_iff_eq, eq_comm]

/-- An id is free afterwards if it was before, and is not the one that was asked for. -/
theorem isFree_take : (ids.take id call).IsFree id' ↔ ids.IsFree id' ∧ id' ≠ id := by
  rw [IsFree, IsFree, mem_taken_take, not_or]
  tauto

/-! ### One search -/

theorem reserveWithin_succ : reserveWithin call (tries + 1) ids =
    if ids.next = 0 ∨ ids.next ∈ ids.taken then
      reserveWithin call tries ⟨ids.nth 1, ids.taken⟩
    else (some ids.next, ids.take ids.next call) := by
  simp [reserveWithin, nth, take]

/-- Where a search stands after so many tries. -/
theorem reserveWithin_cases (call tries : Nat) (ids : PacketIds) :
    ((∀ j < tries, ¬ids.IsFree (ids.nth j)) ∧
      reserveWithin call tries ids = (none, ⟨ids.nth tries, ids.taken⟩)) ∨
    ∃ j < tries, ids.IsFree (ids.nth j) ∧ (∀ i < j, ¬ids.IsFree (ids.nth i)) ∧
      reserveWithin call tries ids = (some (ids.nth j), ids.take (ids.nth j) call) := by
  induction tries generalizing ids with
  | zero => exact .inl ⟨fun j h => absurd h (Nat.not_lt_zero j), by simp [reserveWithin]⟩
  | succ tries ih =>
    rw [reserveWithin_succ]
    split_ifs with hpass
    · -- The search goes on from the next id, from where every id is one nearer.
      have hnth (j : Nat) : nth ⟨ids.nth 1, ids.taken⟩ j = ids.nth (j + 1) := by
        show ids.next + .ofNat 1 + .ofNat j = ids.next + .ofNat (j + 1)
        rw [UInt16.add_assoc, ← UInt16.ofNat_add, Nat.add_comm 1]
      have hfirst : ¬ids.IsFree (ids.nth 0) := by
        rw [nth_zero, IsFree, not_and_or, not_not, not_not]
        exact hpass
      have hbusy {n : Nat} (h : ∀ j < n, ¬ids.IsFree (ids.nth (j + 1))) :
          ∀ j < n + 1, ¬ids.IsFree (ids.nth j)
        | 0, _ => hfirst
        | j + 1, hj => h j (Nat.lt_of_succ_lt_succ hj)
      rcases ih ⟨ids.nth 1, ids.taken⟩ with ⟨hnone, hrun⟩ | ⟨j, hj, hfree, hnone, hrun⟩
      · simp only [hnth] at hnone hrun
        exact .inl ⟨hbusy hnone, hrun⟩
      · simp only [hnth] at hfree hnone hrun
        exact .inr ⟨j + 1, Nat.succ_lt_succ hj, hfree, hbusy hnone, hrun⟩
    · rw [not_or] at hpass
      exact .inr ⟨0, Nat.succ_pos _, by rwa [nth_zero], fun i h => absurd h (Nat.not_lt_zero i),
        by rw [nth_zero]⟩

/-- What a whole round gives: an id if there is a free one, and then the first. -/
theorem reserve_cases (ids : PacketIds) (call : Nat) :
    ((∀ id, ¬ids.IsFree id) ∧ ids.reserve call = (none, ids)) ∨
    ∃ id, ids.IsFirstFree id ∧ ids.reserve call = (some id, ids.take id call) := by
  rcases reserveWithin_cases call 65536 ids with ⟨hnone, hrun⟩ | ⟨j, hj, hfree, hnone, hrun⟩
  · refine .inl ⟨fun id => ?_, by rw [reserve, hrun, nth_round]⟩
    have := hnone _ (ids.ahead_lt id)
    rwa [nth_ahead] at this
  · refine .inr ⟨ids.nth j, ⟨hfree, fun other hother => ?_⟩, hrun⟩
    rw [ahead_nth ids hj]
    refine Nat.not_lt.1 fun hlt => hnone _ hlt ?_
    rwa [nth_ahead]

theorem reserve_fst_eq_none_iff : (ids.reserve call).1 = none ↔ ∀ id, ¬ids.IsFree id := by
  rcases reserve_cases ids call with ⟨hfull, hrun⟩ | ⟨id, hfirst, hrun⟩
  · rw [hrun]
    exact iff_of_true rfl hfull
  · rw [hrun]
    exact iff_of_false (fun h => nomatch h) fun h => h id hfirst.1

theorem reserve_snd_of_none (h : (ids.reserve call).1 = none) : (ids.reserve call).2 = ids := by
  rcases reserve_cases ids call with ⟨-, hrun⟩ | ⟨id, -, hrun⟩
  · rw [hrun]
  · rw [hrun] at h
    cases h

theorem reserve_fst_eq_some_iff : (ids.reserve call).1 = some id ↔ ids.IsFirstFree id := by
  rcases reserve_cases ids call with ⟨hfull, hrun⟩ | ⟨id', hfirst, hrun⟩
  · rw [hrun]
    exact iff_of_false (fun h => nomatch h) fun h => hfull id h.1
  · rw [hrun, Option.some.injEq]
    exact ⟨fun h => h ▸ hfirst, hfirst.unique⟩

theorem reserve_snd_of_some (h : (ids.reserve call).1 = some id) :
    (ids.reserve call).2 = ids.take id call := by
  rcases reserve_cases ids call with ⟨-, hrun⟩ | ⟨id', -, hrun⟩
  · rw [hrun] at h
    cases h
  · rw [hrun] at h ⊢
    cases h
    rfl

/-! ### Many requests -/

/-- Takes an id for each of some calls in turn; none is freed in between. -/
def reserveAll : List Nat → PacketIds → List (Option UInt16) × PacketIds
  | [], ids => ([], ids)
  | call :: calls, ids =>
    let (answer, ids) := ids.reserve call
    let (answers, ids) := reserveAll calls ids
    (answer :: answers, ids)

/-- What has been handed out to some calls: ids that were free, each to one call and in the order of
the calls, and nothing to the calls that came when no free id was left. -/
structure HandsOut (ids : PacketIds) (calls : List Nat) (answers : List (Option UInt16))
    (after : PacketIds) (handed : List UInt16) : Prop where
  answers : answers = handed.map some ++ List.replicate (calls.length - handed.length) none
  length : handed.length ≤ calls.length
  distinct : handed.Nodup
  free : ∀ id ∈ handed, ids.IsFree id
  exhausts : handed.length < calls.length → ∀ id, ids.IsFree id → id ∈ handed
  taken : ∀ id, id ∈ after.taken ↔ id ∈ ids.taken ∨ id ∈ handed

theorem HandsOut.nil (ids : PacketIds) : HandsOut ids [] [] ids [] :=
  ⟨rfl, Nat.le_refl 0, .nil, by simp, by simp, by simp⟩

/-- Where nothing is free, a call gets nothing, and so do all that come after it. -/
theorem HandsOut.refuse {calls : List Nat} {answers : List (Option UInt16)} {handed : List UInt16}
    (h : HandsOut ids calls answers ids' handed) (hfull : ∀ id, ¬ids.IsFree id) (call : Nat) :
    HandsOut ids (call :: calls) (none :: answers) ids' handed := by
  have hnil : handed = [] := List.eq_nil_iff_forall_not_mem.2 fun id hid => hfull id (h.free id hid)
  subst hnil
  exact ⟨by rw [h.answers]; rfl, Nat.zero_le _, .nil, by simp,
    fun _ id hid => absurd hid (hfull id), h.taken⟩

/-- What a call takes is not there for those that come after it. -/
theorem HandsOut.take {calls : List Nat} {answers : List (Option UInt16)} {handed : List UInt16}
    (h : HandsOut (ids.take id call) calls answers ids' handed) (hfree : ids.IsFree id) :
    HandsOut ids (call :: calls) (some id :: answers) ids' (id :: handed) where
  answers := by simp [h.answers]
  length := Nat.succ_le_succ h.length
  distinct := List.nodup_cons.2 ⟨fun hid => (isFree_take.1 (h.free id hid)).2 rfl, h.distinct⟩
  free := List.forall_mem_cons.2
    ⟨hfree, fun other hother => (isFree_take.1 (h.free other hother)).1⟩
  exhausts hlt other hother := by
    rw [List.mem_cons, or_iff_not_imp_left]
    exact fun hne => h.exhausts (Nat.lt_of_succ_lt_succ hlt) other (isFree_take.2 ⟨hother, hne⟩)
  taken other := by
    rw [h.taken, mem_taken_take, List.mem_cons]
    tauto

theorem exists_handsOut (calls : List Nat) (ids : PacketIds) :
    ∃ handed, HandsOut ids calls (reserveAll calls ids).1 (reserveAll calls ids).2 handed := by
  induction calls generalizing ids with
  | nil => exact ⟨[], .nil ids⟩
  | cons call calls ih =>
    rw [reserveAll]
    rcases reserve_cases ids call with ⟨hfull, hrun⟩ | ⟨id, hfirst, hrun⟩
    · obtain ⟨handed, h⟩ := ih ids
      rw [hrun]
      exact ⟨handed, h.refuse hfull call⟩
    · obtain ⟨handed, h⟩ := ih (ids.take id call)
      rw [hrun]
      exact ⟨id :: handed, h.take hfirst.1⟩

/-- **Packet ids go around.** A request gets no id exactly if every id but 0 is taken, and then
nothing changes. Otherwise it gets the first free id from the counter on; that id is taken and no
other, and the counter stands just behind it. Requests one after another get different ids that were
free, until there are none left. -/
theorem reserve_cyclic (ids : PacketIds) (call : Nat) (calls : List Nat) :
    ((ids.reserve call).1 = none ↔ ∀ id, id ≠ 0 → id ∈ ids.taken) ∧
    ((ids.reserve call).1 = none → (ids.reserve call).2 = ids) ∧
    (∀ id, (ids.reserve call).1 = some id ↔ ids.IsFirstFree id) ∧
    (∀ id, (ids.reserve call).1 = some id →
      (ids.reserve call).2.next = id + 1 ∧ (ids.reserve call).2.taken = ids.taken.insert id call ∧
      ∀ other, other ∈ (ids.reserve call).2.taken ↔ other ∈ ids.taken ∨ other = id) ∧
    ∃ handed, HandsOut ids calls (reserveAll calls ids).1 (reserveAll calls ids).2 handed := by
  refine ⟨reserve_fst_eq_none_iff.trans forall_not_isFree, reserve_snd_of_none,
    fun id => reserve_fst_eq_some_iff, fun id h => ?_, exists_handsOut calls ids⟩
  rw [reserve_snd_of_some h]
  exact ⟨rfl, rfl, fun other => mem_taken_take.trans or_comm⟩

/-- Around the end of the ids, past the one that is taken there, past 0, and past 1. -/
example : (reserve ⟨65535, .insert (.insert ∅ 65535 5) 1 6⟩ 7).1 = some 2 := by decide +kernel

end PacketIds

/-- A request is refused for want of an id exactly if every id but 0 is taken. -/
theorem Client.reserve_eq_violate_iff {c : Client} {k : Nat} :
    c.reserve k = violate .packetIdsExhausted ↔ ∀ id, id ≠ 0 → id ∈ c.ids.taken := by
  have hnone : (c.ids.reserve k).1 = none ↔ _ := PacketIds.reserve_fst_eq_none_iff
  rw [← PacketIds.forall_not_isFree, ← hnone, Client.reserve]
  rcases c.ids.reserve k with ⟨_ | id, ids⟩
  · exact iff_of_true rfl rfl
  · exact iff_of_false (fun h => nomatch h) fun h => nomatch h

end Mqtt
