import Mathlib.Tactic.SplitIfs
import Mqtt.Topic
/-!
# Levels, filters and what they name

* `levels_injective`: a text is known from its levels.
* `checkLevels_eq_ok`: what is checked of a filter is that its wildcards are well placed.
* `validateFilter_eq_ok`, `ne_empty_of_checkText`: what every filter that is accepted keeps to.
-/

namespace Mqtt
namespace Topic

/-! ### Levels -/

theorem levels_ne_nil (s : String) : levels s ≠ [] := by
  simp [levels]

/-- Levels with the slashes between them. -/
def join (ls : List String) : String :=
  String.ofList (['/'].intercalate (ls.map String.toList))

theorem join_levels (s : String) : join (levels s) = s := by
  have h : (levels s).map String.toList = s.toList.splitOn '/' := by
    rw [levels, List.map_map]
    have hid : String.toList ∘ String.ofList = id := funext fun _ => String.toList_ofList
    rw [hid, List.map_id]
  rw [join, h, List.intercalate_splitOn, String.ofList_toList]

theorem levels_injective {s t : String} (h : levels s = levels t) : s = t := by
  rw [← join_levels s, h, join_levels]

/-- The first level begins as the text does, unless the text begins with a slash. -/
theorem head?_of_levels_eq_cons {s level : String} {rest : List String}
    (h : levels s = level :: rest) :
    level.toList.head? = s.toList.head?.filter (· != '/') := by
  rw [levels] at h
  generalize s.toList = cs at h ⊢
  cases cs with
  | nil =>
    rw [List.splitOn_nil] at h
    simp only [List.map_cons, List.cons.injEq] at h
    rw [← h.1]
    rfl
  | cons c cs =>
    rw [List.splitOn_cons_eq_if_modifyHead] at h
    by_cases hc : (c == '/') = true
    · rw [if_pos hc] at h
      simp only [List.map_cons, List.cons.injEq] at h
      rw [← h.1, List.head?_cons, eq_of_beq hc]
      rfl
    · obtain ⟨first, others, hcs⟩ := List.exists_cons_of_ne_nil (List.splitOn_ne_nil '/' cs)
      rw [if_neg hc, hcs] at h
      simp only [List.modifyHead_cons, List.map_cons, List.cons.injEq] at h
      rw [← h.1, String.toList_ofList, List.head?_cons, List.head?_cons]
      simp [Option.filter, bne, hc]

theorem any_head?_of_levels_eq_cons {s level : String} {rest : List String} {p : Char → Bool}
    (h : levels s = level :: rest) (hp : p '/' = false) :
    level.toList.head?.any p = s.toList.head?.any p := by
  rw [head?_of_levels_eq_cons h]
  cases s.toList.head? with
  | none => rfl
  | some c =>
    by_cases hc : c = '/'
    · subst hc
      exact hp.symm
    · simp [Option.filter, hc]

theorem isReserved_of_levels_eq_cons {s level : String} {rest : List String}
    (h : levels s = level :: rest) : isReserved level = isReserved s := by
  have hany (t : String) : isReserved t = t.toList.head?.any (· == '$') := by
    rw [isReserved]
    cases t.toList.head? <;> rfl
  rw [hany, hany, any_head?_of_levels_eq_cons h rfl]

theorem beginsWild_of_levels_eq_cons {s level : String} {rest : List String}
    (h : levels s = level :: rest) : beginsWild level = beginsWild s :=
  any_head?_of_levels_eq_cons h rfl

/-! ### Wildcards -/

theorem beginsWild_of_not_hasWildcard {level : String} (h : hasWildcard level = false) :
    beginsWild level = false := by
  rw [hasWildcard] at h
  rw [beginsWild]
  cases hl : level.toList with
  | nil => rfl
  | cons c cs =>
    rw [hl, List.any_cons, Bool.or_eq_false_iff] at h
    exact h.1

theorem wellPlaced_cons {level : String} {rest : List String} :
    WellPlaced (level :: rest) ↔
      level = allLevels ∧ rest = [] ∨ level = oneLevel ∧ WellPlaced rest ∨
        hasWildcard level = false ∧ WellPlaced rest := by
  constructor
  · intro h
    cases h with
    | all => exact .inl ⟨rfl, rfl⟩
    | one h => exact .inr (.inl ⟨rfl, h⟩)
    | plain hw h => exact .inr (.inr ⟨hw, h⟩)
  · rintro (⟨rfl, rfl⟩ | ⟨rfl, h⟩ | ⟨hw, h⟩)
    · exact .all
    · exact .one h
    · exact .plain hw h

/-- The check of the levels of a filter asks for well-placed wildcards, and for nothing else. -/
theorem checkLevels_eq_ok {filter : String} {ls : List String} :
    checkLevels filter ls = .ok () ↔ WellPlaced ls := by
  have hone : hasWildcard oneLevel = true := by decide
  have hall : hasWildcard allLevels = true := by decide
  have hne : oneLevel ≠ allLevels := by decide
  induction ls with
  | nil => exact ⟨fun _ => .nil, fun _ => rfl⟩
  | cons level rest ih =>
    rw [checkLevels, wellPlaced_cons]
    split_ifs with h₁ h₂ hrest hwild
    · subst h₁
      simp [hne, hone, ih]
    · subst h₂
      simpa [hne.symm, hall] using hrest
    · subst h₂
      simpa [hne.symm, hall, violate] using hrest
    · simp [h₁, h₂, hwild, violate]
    · simp [h₁, h₂, hwild, ih]

/-- A filter is accepted when it is a text as the protocol allows it and its wildcards are well
placed. -/
theorem validateFilter_eq_ok {filter : String} :
    validateFilter filter = .ok () ↔
      checkText .filter filter = .ok () ∧ WellPlaced (levels filter) := by
  rw [validateFilter, ← checkLevels_eq_ok]
  rcases checkText .filter filter with e | ⟨⟩
  · constructor
    · intro h
      cases h
    · rintro ⟨h, -⟩
      cases h
  · exact ⟨fun h => ⟨rfl, h⟩, And.right⟩

theorem ne_empty_of_checkText {role : TopicRole} {s : String} (h : checkText role s = .ok ()) :
    s.isEmpty = false := by
  rw [checkText] at h
  split_ifs at h with hs
  · cases h
  all_goals simpa using hs

end Topic
end Mqtt
