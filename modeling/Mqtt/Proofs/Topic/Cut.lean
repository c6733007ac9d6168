import Mqtt.Proofs.Topic.Trim
/-!
# Erasing with one cut

`FilterNode.erase` finds out on its way up which nodes are no longer needed. The same can be found
out on the way down: the branch that goes hangs below the deepest node that holds something besides
the way itself, and one cut there takes it off (`FilterNode.cutOff`). In a trim node the two are the
same (`cutOff_eq_erase`), so a cut is never too high, which would take filters with it, nor too low,
which would leave nodes without one: an index that is kept with cuts is the same after any calls
(`FilterCall.play_onIndexByCut`).
-/

namespace Mqtt
namespace FilterNode

variable {n c : FilterNode} {level : String} {all : Bool} {path : List String}

/-- Whether a node holds nothing but the child that a level leads to. -/
def onlyHolds (n : FilterNode) (level : String) : Bool :=
  !n.here && !n.all &&
    if level = Topic.oneLevel then n.named.isEmpty else n.any.isNone && n.named.length == 1

/-- Whether a node holds at most the one mark. -/
def isBare (n : FilterNode) (all : Bool) : Bool :=
  n.any.isNone && n.named.isEmpty && !n.mark !all

/-- The node that a row of levels leads to, and the depth of the deepest node on the way, below the
root, that holds something besides the way itself; the depth is `cut` if there is none. -/
def seek : List String → Nat → Nat → FilterNode → Option (FilterNode × Nat)
  | [], _, cut, n => some (n, cut)
  | level :: rest, depth, cut, n =>
    let cut := if 0 < depth ∧ n.onlyHolds level = false then depth else cut
    (n.child? level).bind (seek rest (depth + 1) cut)

/-- Changes the node that a row of levels leads to. -/
def updateAt (f : FilterNode → FilterNode) : List String → FilterNode → FilterNode
  | [], n => f n
  | level :: rest, n =>
    match n.child? level with
    | some c => n.setChild level (updateAt f rest c)
    | none => n

/-- Removes a filter. If it was all that its last node held, one cut takes off the branch that led
to this node alone. -/
def cutOff (all : Bool) (path : List String) (n : FilterNode) : FilterNode :=
  match seek path 0 0 n with
  | none => n
  | some (last, cut) =>
    if last.mark all = false then n
    else
      match last.isBare all, path.drop cut with
      | true, level :: _ => updateAt (·.dropChild level) (path.take cut) n
      | _, _ => updateAt (·.setMark all false) path n

theorem updateAt_cons {f : FilterNode → FilterNode} (hc : n.child? level = some c) :
    updateAt f (level :: path) n = n.setChild level (updateAt f path c) := by
  rw [updateAt, hc]

/-! ### What is left of a node -/

theorem isEmpty_setChild : (n.setChild level c).isEmpty = false := by
  by_contra hempty
  have hnone : (n.setChild level c).child? level = none := child?_of_isEmpty (by simpa using hempty)
  rw [child?_setChild, if_pos rfl] at hnone
  cases hnone

theorem isEmpty_setMark : (n.setMark all false).isEmpty = n.isBare all := by
  obtain ⟨named, any, atAll, here⟩ := n
  cases all <;> cases any <;> simp [setMark, isEmpty, isBare, mark, Bool.and_comm]

/-- Without a child that is there, nothing is left of a node exactly if it held only this child. -/
theorem Trim.isEmpty_dropChild (h : n.Trim) (hc : n.child? level = some c) :
    (n.dropChild level).isEmpty = n.onlyHolds level := by
  rw [dropChild, onlyHolds]
  split_ifs with hone
  · simp [isEmpty]
  · rw [child?, if_neg hone] at hc
    have hothers := isEmpty_filter_ne h.names ((lookup_eq_some_iff_mem h.names).1 hc)
    simp [isEmpty, hothers, Bool.and_assoc]

/-! ### The cut -/

/-- What is found on the way down to a filter, compared with what `erase` leaves. -/
structure Sought (all : Bool) (path : List String) (depth cut : Nat) (n last : FilterNode)
    (cut' : Nat) : Prop where
  found : seek path depth cut n = some (last, cut')
  marked : last.mark all = true
  /-- Nothing is left: the cut is further up. -/
  gone : (erase all path n).isEmpty = true → last.isBare all = true ∧ cut' = cut
  /-- Something is left, and the last node goes: the cut is at this node or below. -/
  below : (erase all path n).isEmpty = false → last.isBare all = true →
    ∃ k level rest, cut' = depth + k ∧ path.drop k = level :: rest ∧
      updateAt (·.dropChild level) (path.take k) n = erase all path n
  /-- The last node stays. -/
  stays : last.isBare all = false → updateAt (·.setMark all false) path n = erase all path n

theorem Trim.sought (h : n.Trim) (hcontains : n.contains all path = true) (depth cut : Nat)
    (hdepth : 0 < depth) : ∃ last cut', Sought all path depth cut n last cut' := by
  induction path generalizing n depth cut with
  | nil =>
    refine ⟨n, cut, rfl, hcontains, fun hempty => ?_, fun hleft hbare => ?_, fun _ => rfl⟩
    · rw [erase, isEmpty_setMark] at hempty
      exact ⟨hempty, rfl⟩
    · rw [erase, isEmpty_setMark, hbare] at hleft
      cases hleft
  | cons level path ih =>
    obtain ⟨c, hc, hcontains⟩ := exists_child_of_contains hcontains
    obtain ⟨last, cut', hsought⟩ := ih (h.child hc) hcontains (depth + 1)
      (if n.onlyHolds level = false then depth else cut) (by omega)
    have hfound : seek (level :: path) depth cut n = some (last, cut') := by
      rw [seek, hc, Option.bind_some]
      simpa only [hdepth, true_and] using hsought.found
    have hdrop := h.isEmpty_dropChild hc
    refine ⟨last, cut', hfound, hsought.marked, ?_, ?_, ?_⟩ <;> simp only [erase, hc]
    · intro hempty
      split_ifs at hempty with hgone
      · obtain ⟨hbare, hcut⟩ := hsought.gone hgone
        rw [hdrop] at hempty
        simp only [hempty, Bool.true_eq_false, if_false] at hcut
        exact ⟨hbare, hcut⟩
      · rw [isEmpty_setChild] at hempty
        cases hempty
    · intro hleft hbare
      split_ifs at hleft ⊢ with hgone
      · -- The child goes, and this node holds something else.
        obtain ⟨-, hcut⟩ := hsought.gone hgone
        rw [hdrop] at hleft
        rw [if_pos hleft] at hcut
        exact ⟨0, level, path, hcut, rfl, rfl⟩
      · obtain ⟨k, level', rest, hcut, hdropped, hupdate⟩ :=
          hsought.below (by simpa using hgone) hbare
        refine ⟨k + 1, level', rest, by omega, hdropped, ?_⟩
        rw [List.take_succ_cons, updateAt_cons hc, hupdate]
    · intro hbare
      split_ifs with hgone
      · rw [(hsought.gone hgone).1] at hbare
        cases hbare
      · rw [updateAt_cons hc, hsought.stays hbare]

/-- **One cut takes off what is no longer needed, and no more.** -/
theorem Trim.cutOff_eq_erase (h : n.Trim) (hcontains : n.contains all path = true) :
    cutOff all path n = erase all path n := by
  cases path with
  | nil =>
    have hmark : n.mark all = true := hcontains
    rw [cutOff, seek]
    dsimp only
    rw [hmark, if_neg Bool.noConfusion]
    cases n.isBare all <;> rfl
  | cons level path =>
    obtain ⟨c, hc, hcontains⟩ := exists_child_of_contains hcontains
    obtain ⟨last, cut, hsought⟩ := (h.child hc).sought hcontains 1 0 (by omega)
    have hfound : seek (level :: path) 0 0 n = some (last, cut) := by
      rw [seek, hc, Option.bind_some]
      simpa only [Nat.lt_irrefl, false_and, if_false] using hsought.found
    rw [cutOff, hfound, erase, hc]
    dsimp only
    rw [hsought.marked, if_neg Bool.noConfusion]
    cases hbare : last.isBare all with
    | false =>
      split_ifs with hgone
      · rw [(hsought.gone hgone).1] at hbare
        cases hbare
      · rw [← hsought.stays hbare]
        exact updateAt_cons hc
    | true =>
      split_ifs with hgone
      · -- The root is the deepest node that stays.
        rw [(hsought.gone hgone).2]
        rfl
      · obtain ⟨k, level', rest, hcut, hdropped, hupdate⟩ :=
          hsought.below (by simpa using hgone) hbare
        rw [hcut, Nat.add_comm, List.drop_succ_cons, hdropped, List.take_succ_cons, ← hupdate]
        exact updateAt_cons hc

end FilterNode

/-! ### Calls -/

namespace FilterCall

open FilterIndex

/-- A call on an index from which filters are removed by cuts. -/
def onIndexByCut (x : FilterIndex) : FilterCall → Except Fault Bool × FilterIndex
  | subscribe filter => onIndex x (.subscribe filter)
  | unsubscribe filter =>
    if x.contains filter then
      (.ok true, ⟨x.root.cutOff (path filter).2 (path filter).1, x.size - 1⟩)
    else (.ok false, x)

theorem onIndexByCut_eq_onIndex {x : FilterIndex} (h : x.root.Trim) (c : FilterCall) :
    onIndexByCut x c = onIndex x c := by
  cases c with
  | subscribe filter => rfl
  | unsubscribe filter =>
    rw [onIndexByCut, onIndex, FilterIndex.unsubscribe]
    split_ifs with hcontains
    · have hmark : x.root.contains (path filter).2 (path filter).1 = true := hcontains
      rw [h.cutOff_eq_erase hmark]
    · rfl

/-- **An index that is kept with cuts** answers every call as the other does, and is the same after
it. -/
theorem play_onIndexByCut (calls : List FilterCall) :
    play onIndexByCut .empty calls = play onIndex .empty calls := by
  suffices h : ∀ {x : FilterIndex}, x.root.Trim →
      play onIndexByCut x calls = play onIndex x calls from h FilterNode.trim_empty
  induction calls with
  | nil => exact fun _ => rfl
  | cons c calls ih =>
    intro x h
    have hcalls := ih (trim_onIndex h c)
    rw [play, play, onIndexByCut_eq_onIndex h]
    generalize onIndex x c = r at hcalls ⊢
    obtain ⟨answer, x'⟩ := r
    dsimp only at hcalls ⊢
    rw [hcalls]

end FilterCall
end Mqtt
