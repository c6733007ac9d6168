import Mathlib.Data.List.Perm.Basic
import Mathlib.Order.Basic
/-!
# Looking up in lists of pairs

Tables are kept as lists of pairs, and read with `List.lookup`, which finds the first pair of a
key. These are the laws of the ways in which such tables are changed: what is found under the key
in question, and that nothing else changes.
-/

namespace Mqtt

variable {κ α : Type} [DecidableEq κ] {l : List (κ × α)} {k k' : κ} {a : α}

theorem lookup_cons_eq_ite :
    List.lookup k ((k', a) :: l) = if k = k' then some a else l.lookup k := by
  rw [List.lookup_cons]
  by_cases h : k = k'
  · rw [if_pos h, beq_iff_eq.2 h]
  · rw [if_neg h, beq_eq_false_iff_ne.2 h]

/-- Every pair of a key is taken out. -/
theorem lookup_filter_ne :
    (l.filter fun p => p.1 != k').lookup k = if k = k' then none else l.lookup k := by
  induction l with
  | nil => simp
  | cons p l ih =>
    obtain ⟨k₁, a₁⟩ := p
    by_cases h₁ : k₁ = k'
    · subst h₁
      rw [List.filter_cons_of_neg (by simp), ih, lookup_cons_eq_ite]
      by_cases h : k = k₁ <;> simp [h]
    · rw [List.filter_cons_of_pos (by simpa using h₁), lookup_cons_eq_ite, ih,
        lookup_cons_eq_ite]
      by_cases h : k = k₁
      · simp [h, h₁]
      · simp [h]

/-- Whatever stands under a key is replaced. -/
theorem lookup_map_replace :
    (l.map fun p => if p.1 = k' then (p.1, a) else p).lookup k =
      if k = k' then (l.lookup k).map fun _ => a else l.lookup k := by
  induction l with
  | nil => simp
  | cons p l ih =>
    obtain ⟨k₁, a₁⟩ := p
    rw [List.map_cons]
    by_cases h₁ : k₁ = k'
    · subst h₁
      rw [if_pos rfl, lookup_cons_eq_ite, ih, lookup_cons_eq_ite]
      by_cases h : k = k₁ <;> simp [h]
    · rw [if_neg h₁, lookup_cons_eq_ite, ih, lookup_cons_eq_ite]
      by_cases h : k = k₁
      · simp [h, h₁]
      · simp [h]

/-- A pair at the end counts only if its key was not there. -/
theorem lookup_append_singleton :
    (l ++ [(k', a)]).lookup k = (l.lookup k).or (if k = k' then some a else none) := by
  induction l with
  | nil => rw [List.nil_append, lookup_cons_eq_ite, List.lookup_nil, Option.none_or]
  | cons p l ih =>
    obtain ⟨k₁, a₁⟩ := p
    rw [List.cons_append, lookup_cons_eq_ite, ih, lookup_cons_eq_ite]
    by_cases h : k = k₁ <;> simp [h]

/-! ### Ascending keys -/

variable [Preorder κ] {l' : List (κ × α)}

theorem lookup_eq_some_iff_mem (h : l.Pairwise fun p q => p.1 < q.1) :
    l.lookup k = some a ↔ (k, a) ∈ l := by
  induction l with
  | nil => simp
  | cons p l ih =>
    obtain ⟨k₁, a₁⟩ := p
    obtain ⟨hhead, htail⟩ := List.pairwise_cons.1 h
    rw [lookup_cons_eq_ite, List.mem_cons, Prod.mk.injEq]
    by_cases hk : k = k₁
    · subst hk
      -- Behind the first pair all keys are greater.
      have hnot : (k, a) ∉ l := fun hmem => lt_irrefl k (hhead _ hmem)
      simp [hnot, eq_comm]
    · simp [hk, ih htail]

/-- Without the pair of a key nothing is left exactly if there is one pair. -/
theorem isEmpty_filter_ne (h : l.Pairwise fun p q => p.1 < q.1) (hmem : (k, a) ∈ l) :
    (l.filter fun p => p.1 != k).isEmpty = (l.length == 1) := by
  rw [Bool.eq_iff_iff, List.isEmpty_iff, List.filter_eq_nil_iff, beq_iff_eq]
  constructor
  · intro hall
    have hsame : ∀ p ∈ l, p.1 = k := by simpa using hall
    rcases l with _ | ⟨p, _ | ⟨q, l⟩⟩
    · cases hmem
    · rfl
    · -- Two pairs would have two keys.
      have hlt := (List.pairwise_cons.1 h).1 q List.mem_cons_self
      rw [hsame p List.mem_cons_self, hsame q (by simp)] at hlt
      exact absurd hlt (lt_irrefl k)
  · intro hsingle
    obtain ⟨p, rfl⟩ := List.length_eq_one_iff.1 hsingle
    rw [List.mem_singleton] at hmem
    subst hmem
    simp

/-- A table with ascending keys is known from what is found in it. -/
theorem eq_of_lookup_eq (h : l.Pairwise fun p q => p.1 < q.1)
    (h' : l'.Pairwise fun p q => p.1 < q.1) (heq : ∀ k, l.lookup k = l'.lookup k) : l = l' := by
  have hne {p q : κ × α} (hlt : p.1 < q.1) : p ≠ q := fun he => hlt.ne (congrArg Prod.fst he)
  have hperm : l.Perm l' := (List.perm_ext_iff_of_nodup (h.imp hne) (h'.imp hne)).2 fun p => by
    rw [← lookup_eq_some_iff_mem h, ← lookup_eq_some_iff_mem h', heq]
  exact hperm.eq_of_pairwise (fun p q _ _ hlt hgt => absurd (hlt.trans hgt) (lt_irrefl _)) h h'

end Mqtt
