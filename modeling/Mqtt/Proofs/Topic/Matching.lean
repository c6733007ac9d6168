import Mathlib.Tactic.SplitIfs
import Mqtt.Proofs.Topic
/-!
# What a filter names, level by level

The matcher walks along the levels of a topic and of a filter together. It answers yes only once it
has met every level of the filter, so on the way it has checked that the wildcards are well placed,
and it has built up what `LevelsMatch` says (`matchLevels_iff`).

The rule for topics that begin with a dollar sign is checked on the first character of the filter,
not on its first level. With well-placed wildcards there is no difference (`beginsWild_iff_head?`).
-/

namespace Mqtt
namespace Topic

/-! ### Well-placed wildcards -/

/-- Wildcards are well placed if each level is `+`, or holds no wildcard, or is `#` and the last. -/
theorem wellPlaced_iff {ls : List String} :
    WellPlaced ls ↔ ∀ i level, ls[i]? = some level →
      level = oneLevel ∨ hasWildcard level = false ∨ level = allLevels ∧ i + 1 = ls.length := by
  induction ls with
  | nil => exact iff_of_true .nil fun i level h => nomatch h
  | cons first rest ih =>
    -- The last of the levels behind the first is the last of all.
    have hrest : (∀ i level, (first :: rest)[i + 1]? = some level →
        level = oneLevel ∨ hasWildcard level = false ∨
          level = allLevels ∧ i + 1 + 1 = (first :: rest).length) ↔ WellPlaced rest := by
      simp only [ih, List.getElem?_cons_succ, List.length_cons, Nat.add_right_cancel_iff]
    constructor
    · intro h i level hlevel
      cases i with
      | zero =>
        obtain rfl : first = level := by simpa using hlevel
        rcases wellPlaced_cons.1 h with ⟨rfl, rfl⟩ | ⟨rfl, -⟩ | ⟨hplain, -⟩
        · exact .inr (.inr ⟨rfl, rfl⟩)
        · exact .inl rfl
        · exact .inr (.inl hplain)
      | succ i =>
        refine hrest.2 ?_ i level hlevel
        rcases wellPlaced_cons.1 h with ⟨-, rfl⟩ | ⟨-, hplaced⟩ | ⟨-, hplaced⟩
        · exact .nil
        · exact hplaced
        · exact hplaced
    · intro h
      have hplaced := hrest.1 fun i => h (i + 1)
      rcases h 0 first rfl with rfl | hplain | ⟨rfl, hlast⟩
      · exact .one hplaced
      · exact .plain hplain hplaced
      · obtain rfl : rest = [] := by simpa [eq_comm] using hlast
        exact .all

/-- A filter with well-placed wildcards begins with one exactly if its first level is one. -/
theorem beginsWild_iff_head? {filter : String} (h : WellPlaced (levels filter)) :
    beginsWild filter = true ↔
      (levels filter).head? = some oneLevel ∨ (levels filter).head? = some allLevels := by
  obtain ⟨first, rest, hlevels⟩ := List.exists_cons_of_ne_nil (levels_ne_nil filter)
  rw [← beginsWild_of_levels_eq_cons hlevels]
  rw [hlevels] at h ⊢
  simp only [List.head?_cons, Option.some.injEq]
  rcases wellPlaced_cons.1 h with ⟨rfl, -⟩ | ⟨rfl, -⟩ | ⟨hplain, -⟩
  · exact iff_of_true (by decide) (.inr rfl)
  · exact iff_of_true (by decide) (.inl rfl)
  · rw [beginsWild_of_not_hasWildcard hplain]
    refine iff_of_false Bool.false_ne_true ?_
    rintro (rfl | rfl) <;> exact absurd hplain (by decide)

/-! ### Levels that match -/

theorem levelsMatch_nil_right {topic : List String} : LevelsMatch topic [] ↔ topic = [] := by
  constructor
  · intro h
    cases h
    rfl
  · rintro rfl
    exact .nil

/-- A level other than `#` stands for one level of the topic, which it spells out unless it is
`+`. -/
theorem levelsMatch_cons_cons {t f : String} {topic filter : List String} (hf : f ≠ allLevels) :
    LevelsMatch (t :: topic) (f :: filter) ↔ (f = oneLevel ∨ f = t) ∧ LevelsMatch topic filter := by
  constructor
  · intro h
    cases h with
    | all => exact absurd rfl hf
    | one h => exact ⟨.inl rfl, h⟩
    | same h => exact ⟨.inr rfl, h⟩
  · rintro ⟨rfl | rfl, h⟩
    · exact .one h
    · exact .same h

theorem not_levelsMatch_nil_cons {f : String} {filter : List String} (hf : f ≠ allLevels) :
    ¬LevelsMatch [] (f :: filter) := by
  intro h
  cases h with
  | all => exact hf rfl

/-- **The matcher decides what a filter names**, and that its wildcards are well placed. -/
theorem matchLevels_iff {topic filter : List String} :
    matchLevels topic filter = true ↔ WellPlaced filter ∧ LevelsMatch topic filter := by
  induction filter generalizing topic with
  | nil =>
    rw [levelsMatch_nil_right]
    cases topic with
    | nil => exact iff_of_true rfl ⟨.nil, rfl⟩
    | cons t topic => simp [matchLevels]
  | cons f filter ih =>
    by_cases hall : f = allLevels
    · subst hall
      have hplaced : WellPlaced (allLevels :: filter) ↔ filter = [] := by
        have hne : allLevels ≠ oneLevel := by decide
        have hwild : hasWildcard allLevels = true := by decide
        simp [wellPlaced_cons, hne, hwild]
      -- `#` matches whatever is left, but only at the end of the filter.
      have hmatch : matchLevels topic (allLevels :: filter) = filter.isEmpty := by
        cases topic <;> rw [matchLevels, if_pos rfl]
      rw [hmatch, hplaced, List.isEmpty_iff, iff_self_and]
      rintro rfl
      exact .all topic
    · have hplaced : WellPlaced (f :: filter) ↔
          (f = oneLevel ∨ hasWildcard f = false) ∧ WellPlaced filter := by
        simp [wellPlaced_cons, hall, or_and_right]
      cases topic with
      | nil => simp [matchLevels, hall, not_levelsMatch_nil_cons hall]
      | cons t topic =>
        rw [matchLevels, if_neg hall, hplaced, levelsMatch_cons_cons hall]
        -- `+` matches any one level, and any other level only itself.
        by_cases hone : f = oneLevel
        · simp [hone, ih]
        · by_cases hsame : f = t
          · subst hsame
            cases hasWildcard f <;> simp [ih, hone]
          · cases hasWildcard f <;> simp [hone, hsame]

/-- **When a filter names a topic.** Both are non-empty, the wildcards of the filter are well
placed, a first level that is a wildcard does not meet a topic with a dollar sign in front, and the
levels match. -/
theorem matchedBy_iff_levelsMatch (topic filter : String) :
    matchedBy topic filter = true ↔
      topic ≠ "" ∧ filter ≠ "" ∧
        (∀ i level, (levels filter)[i]? = some level →
          level = oneLevel ∨ hasWildcard level = false ∨
            level = allLevels ∧ i + 1 = (levels filter).length) ∧
        ¬(isReserved topic = true ∧
          ((levels filter).head? = some oneLevel ∨ (levels filter).head? = some allLevels)) ∧
        LevelsMatch (levels topic) (levels filter) := by
  rw [← wellPlaced_iff, matchedBy]
  by_cases htopic : topic = ""
  · subst htopic
    simp
  by_cases hfilter : filter = ""
  · subst hfilter
    simp
  have hnonempty : (topic.isEmpty || filter.isEmpty) = false := by
    rw [Bool.or_eq_false_iff]
    constructor <;> simpa using ‹_›
  rw [hnonempty, if_neg Bool.false_ne_true]
  by_cases hplaced : WellPlaced (levels filter)
  · rw [← beginsWild_iff_head? hplaced, ← Bool.and_eq_true]
    cases isReserved topic && beginsWild filter <;>
      simp [matchLevels_iff, htopic, hfilter, hplaced]
  · -- A wildcard out of place is found by the matcher itself.
    cases isReserved topic && beginsWild filter <;> simp [matchLevels_iff, hplaced]

end Topic
end Mqtt
