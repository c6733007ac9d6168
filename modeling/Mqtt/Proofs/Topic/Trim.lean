import Mathlib.Data.String.Basic
import Mqtt.Proofs.Topic.Index
/-!
# Trim nodes

A node shows which filters it holds and nothing else: not the filters that were there before, nor
the order in which the present ones came. Two things make this so (`FilterNode.Trim`). The names of
the children ascend, so there is one way to write them down; and every child is in use, so a branch
stands only where a filter needs it.

A trim node is known from its marks (`FilterNode.eq_of_contains`), and every call keeps an index
trim (`FilterCall.trim_play`).
-/

namespace Mqtt
namespace FilterNode

variable {n m c : FilterNode} {l : List (String × FilterNode)} {level : String} {all : Bool}
  {path rest : List String}

/-! ### Nodes below a node -/

/-- The node that a row of levels leads to. -/
def node? : List String → FilterNode → Option FilterNode
  | [], n => some n
  | level :: path, n => (n.child? level).bind (node? path)

theorem node?_append : n.node? (path ++ rest) = (n.node? path).bind (node? rest) := by
  induction path generalizing n with
  | nil => rfl
  | cons level path ih =>
    rw [List.cons_append, node?, node?, Option.bind_assoc]
    exact congrArg _ (funext fun c => ih)

theorem contains_append :
    n.contains all (path ++ rest) = (n.node? path).elim false (contains all rest) := by
  induction path generalizing n with
  | nil => rfl
  | cons level path ih =>
    rw [List.cons_append, contains_cons, node?]
    cases n.child? level with
    | none => rfl
    | some c => exact ih

/-! ### Trim nodes -/

/-- Here and at every node below, the names of the children ascend and the children are in use. -/
inductive Trim : FilterNode → Prop
  | intro {n : FilterNode} : (n.named.Pairwise fun p q => p.1 < q.1) →
    (∀ level c, n.child? level = some c → c.isEmpty = false) →
    (∀ level c, n.child? level = some c → Trim c) → Trim n

theorem Trim.names (h : n.Trim) : n.named.Pairwise fun p q => p.1 < q.1 := by
  cases h with
  | intro h _ _ => exact h

theorem Trim.used (h : n.Trim) (hc : n.child? level = some c) : c.isEmpty = false := by
  cases h with
  | intro _ h _ => exact h level c hc

theorem Trim.child (h : n.Trim) (hc : n.child? level = some c) : c.Trim := by
  cases h with
  | intro _ _ h => exact h level c hc

/-- Every node below is trim and in use. -/
theorem Trim.node? (h : n.Trim) (hc : n.node? path = some c) :
    c.Trim ∧ (path ≠ [] → c.isEmpty = false) := by
  induction path generalizing n with
  | nil =>
    cases hc
    exact ⟨h, fun hne => absurd rfl hne⟩
  | cons level path ih =>
    obtain ⟨d, hd, hc⟩ := Option.bind_eq_some_iff.1 hc
    obtain ⟨htrim, hused⟩ := ih (h.child hd) hc
    refine ⟨htrim, fun _ => ?_⟩
    cases path with
    | nil =>
      cases hc
      exact h.used hd
    | cons => exact hused (List.cons_ne_nil _ _)

theorem Tidy.node? (h : n.Tidy) (hc : n.node? path = some c) : c.Tidy := by
  induction path generalizing n with
  | nil =>
    cases hc
    exact h
  | cons level path ih =>
    obtain ⟨d, hd, hc⟩ := Option.bind_eq_some_iff.1 hc
    exact ih (h.child hd) hc

/-- A node that is in use and has no mark has a child. -/
theorem exists_child (h : n.Tidy) (hused : n.isEmpty = false) (hmark : ∀ all, n.mark all = false) :
    ∃ level c, n.child? level = some c := by
  cases hany : n.any with
  | some a => exact ⟨Topic.oneLevel, a, by rw [child?, if_pos rfl, hany]⟩
  | none =>
    cases hnamed : n.named with
    | nil =>
      have hall : n.all = false := hmark true
      have hhere : n.here = false := hmark false
      simp [isEmpty, hany, hnamed, hall, hhere] at hused
    | cons p l =>
      obtain ⟨level, c⟩ := p
      have hlookup : n.named.lookup level = some c := by
        rw [hnamed, lookup_cons_eq_ite, if_pos rfl]
      refine ⟨level, c, ?_⟩
      rw [child?, if_neg, hlookup]
      rintro rfl
      rw [h.lookup] at hlookup
      cases hlookup

/-- A trim node that is in use has a mark, here or below. -/
theorem exists_contains (h : n.Trim) (htidy : n.Tidy) (hused : n.isEmpty = false) :
    ∃ all path, n.contains all path = true := by
  induction h with
  | @intro n _ husedBelow _ ih =>
    by_cases hmark : ∃ all, n.mark all = true
    · obtain ⟨all, hmark⟩ := hmark
      exact ⟨all, [], hmark⟩
    · obtain ⟨level, c, hc⟩ := exists_child htidy hused (by simpa using hmark)
      obtain ⟨all, path, hbelow⟩ := ih level c hc (htidy.child hc) (husedBelow level c hc)
      exact ⟨all, level :: path, by rw [contains_cons, hc]; exact hbelow⟩

/-- A node is known from its marks and its children. -/
theorem eq_of_child? (hn : n.Tidy) (hm : m.Tidy) (hnames : n.named.Pairwise fun p q => p.1 < q.1)
    (hnames' : m.named.Pairwise fun p q => p.1 < q.1) (hmark : ∀ all, n.mark all = m.mark all)
    (hchild : ∀ level, n.child? level = m.child? level) : n = m := by
  have hall : n.all = m.all := hmark true
  have hhere : n.here = m.here := hmark false
  have hany : n.any = m.any := by
    have := hchild Topic.oneLevel
    rwa [child?, child?, if_pos rfl, if_pos rfl] at this
  have hnamed : n.named = m.named := by
    refine eq_of_lookup_eq hnames hnames' fun k => ?_
    by_cases hk : k = Topic.oneLevel
    · rw [hk, hn.lookup, hm.lookup]
    · have := hchild k
      rwa [child?, child?, if_neg hk, if_neg hk] at this
  obtain ⟨named, any, all, here⟩ := n
  obtain ⟨named', any', all', here'⟩ := m
  simp only at hall hhere hany hnamed
  rw [hall, hhere, hany, hnamed]

/-- A trim node has a child exactly where one of its paths leads. -/
theorem Trim.child?_eq_none_iff (h : n.Trim) (htidy : n.Tidy) :
    n.child? level = none ↔ ∀ all path, n.contains all (level :: path) = false := by
  constructor
  · intro hc all path
    rw [contains_cons, hc, Option.elim_none]
  · intro hunmarked
    cases hc : n.child? level with
    | none => rfl
    | some c =>
      obtain ⟨all, path, hmark⟩ := exists_contains (h.child hc) (htidy.child hc) (h.used hc)
      have hnot := hunmarked all path
      rw [contains_cons, hc, Option.elim_some, hmark] at hnot
      cases hnot

/-- **A trim node is known from its marks.** -/
theorem eq_of_contains (hn : n.Trim) (hntidy : n.Tidy) (hm : m.Trim) (hmtidy : m.Tidy)
    (h : ∀ all path, n.contains all path = m.contains all path) : n = m := by
  induction hn generalizing m with
  | @intro n hnames hused htrim ih =>
    refine eq_of_child? hntidy hmtidy hnames hm.names (fun all => h all []) fun level => ?_
    -- There are children on both sides or on neither.
    have hnone : n.child? level = none ↔ m.child? level = none := by
      rw [(Trim.intro hnames hused htrim).child?_eq_none_iff hntidy,
        hm.child?_eq_none_iff hmtidy]
      simp only [h]
    cases hc : n.child? level with
    | none => exact (hnone.1 hc).symm
    | some c =>
      cases hd : m.child? level with
      | none =>
        rw [hnone.2 hd] at hc
        cases hc
      | some d =>
        refine congrArg some (ih level c hc (hntidy.child hc) (hm.child hd) (hmtidy.child hd) ?_)
        intro all path
        have hbelow := h all (level :: path)
        rwa [contains_cons, contains_cons, hc, hd] at hbelow

/-! ### What keeps a node trim -/

theorem mem_setNamed {p : String × FilterNode} (h : p ∈ setNamed level c l) :
    p.1 = level ∨ p ∈ l := by
  induction l with
  | nil =>
    rw [setNamed, List.mem_singleton] at h
    exact .inl (congrArg Prod.fst h)
  | cons head l ih =>
    obtain ⟨level', c'⟩ := head
    rw [setNamed] at h
    split_ifs at h with hsame hless
    · rcases List.mem_cons.1 h with rfl | h
      · exact .inl rfl
      · exact .inr (List.mem_cons_of_mem _ h)
    · rcases List.mem_cons.1 h with rfl | h
      · exact .inl rfl
      · exact .inr h
    · rcases List.mem_cons.1 h with rfl | h
      · exact .inr List.mem_cons_self
      · exact (ih h).imp_right (List.mem_cons_of_mem _)

/-- A child takes its place among the others. -/
theorem ascending_setNamed (h : l.Pairwise fun p q => p.1 < q.1) :
    (setNamed level c l).Pairwise fun p q => p.1 < q.1 := by
  induction l with
  | nil => exact List.pairwise_singleton _ _
  | cons head l ih =>
    obtain ⟨level', c'⟩ := head
    obtain ⟨hhead, htail⟩ := List.pairwise_cons.1 h
    rw [setNamed]
    split_ifs with hsame hless
    · subst hsame
      exact List.pairwise_cons.2 ⟨hhead, htail⟩
    · refine List.pairwise_cons.2 ⟨fun p hp => ?_, h⟩
      rcases List.mem_cons.1 hp with rfl | hp
      · exact hless
      · exact lt_trans hless (hhead p hp)
    · refine List.pairwise_cons.2 ⟨fun p hp => ?_, ih htail⟩
      rcases mem_setNamed hp with heq | hp
      · rw [heq]
        exact lt_of_le_of_ne (not_lt.1 hless) hsame
      · exact hhead p hp

/-- A node with a filter is in use. -/
theorem isEmpty_insert : (insert all path n).isEmpty = false := by
  by_contra hempty
  rw [Bool.not_eq_false] at hempty
  have hmark : (insert all path n).contains all path = true := by
    rw [contains_insert]
    simp
  rw [contains_of_isEmpty hempty] at hmark
  cases hmark

theorem trim_empty : empty.Trim := by
  refine .intro .nil (fun level c hc => ?_) fun level c hc => ?_ <;>
    rw [child?_of_isEmpty rfl] at hc <;> cases hc

/-- A node remains trim when each of its children was there before or is trim and in use. -/
theorem Trim.of_children (h : n.Trim) (hnames : m.named.Pairwise fun p q => p.1 < q.1)
    (hchildren : ∀ level d, m.child? level = some d →
      n.child? level = some d ∨ d.Trim ∧ d.isEmpty = false) : m.Trim :=
  .intro hnames (fun level d hd => (hchildren level d hd).elim h.used And.right)
    fun level d hd => (hchildren level d hd).elim h.child And.left

theorem trim_setMark {value : Bool} (h : n.Trim) : (n.setMark all value).Trim := by
  refine h.of_children ?_ fun k d hd => ?_
  · rw [setMark]
    split_ifs <;> exact h.names
  · rw [child?_setMark] at hd
    exact .inl hd

theorem trim_setChild (h : n.Trim) (hc : c.Trim) (hused : c.isEmpty = false) :
    (n.setChild level c).Trim := by
  refine h.of_children ?_ fun k d hd => ?_
  · rw [setChild]
    split_ifs
    · exact h.names
    · exact ascending_setNamed h.names
  · rw [child?_setChild] at hd
    split_ifs at hd
    · cases hd
      exact .inr ⟨hc, hused⟩
    · exact .inl hd

theorem trim_dropChild (h : n.Trim) : (n.dropChild level).Trim := by
  refine h.of_children ?_ fun k d hd => ?_
  · rw [dropChild]
    split_ifs
    · exact h.names
    · exact h.names.filter _
  · rw [child?_dropChild] at hd
    split_ifs at hd
    exact .inl hd

theorem trim_insert (h : n.Trim) : (insert all path n).Trim := by
  induction path generalizing n with
  | nil => exact trim_setMark h
  | cons level path ih =>
    refine trim_setChild h (ih ?_) isEmpty_insert
    cases hc : n.child? level with
    | none => exact trim_empty
    | some c => exact h.child hc

theorem trim_erase (h : n.Trim) : (erase all path n).Trim := by
  induction path generalizing n with
  | nil => exact trim_setMark h
  | cons level path ih =>
    rw [erase]
    cases hc : n.child? level with
    | none => exact h
    | some c =>
      dsimp only
      split_ifs with hempty
      · exact trim_dropChild h
      · exact trim_setChild h (ih (h.child hc)) (by simpa using hempty)

end FilterNode

/-! ### Calls -/

namespace FilterCall

open FilterNode

variable {x : FilterIndex}

theorem trim_onIndex (h : x.root.Trim) (c : FilterCall) : (onIndex x c).2.root.Trim := by
  cases c with
  | subscribe filter =>
    rw [onIndex, FilterIndex.subscribe]
    rcases Topic.validateFilter filter with e | ⟨⟩
    · exact h
    · simp only [bind, Except.bind]
      split_ifs
      · exact h
      · exact trim_insert h
  | unsubscribe filter =>
    rw [onIndex, FilterIndex.unsubscribe]
    split_ifs
    · exact trim_erase h
    · exact h

/-- **Every call keeps the index trim.** -/
theorem trim_play (h : x.root.Trim) (calls : List FilterCall) :
    (play onIndex x calls).2.root.Trim := by
  induction calls generalizing x with
  | nil => exact h
  | cons c calls ih => exact ih (trim_onIndex h c)

end FilterCall
end Mqtt
