import Mathlib.Data.Finset.Card
import Mathlib.Tactic.SplitIfs
import Mathlib.Tactic.Tauto
import Mqtt.Proofs.Lookup
import Mqtt.Proofs.Topic
import Mqtt.Topic.Index
/-!
# The index of filters is a set of filters

A node of the index holds marks at the ends of paths. `FilterNode.contains` reads a mark, and
`contains_insert` and `contains_erase` say that inserting and erasing change one mark and no other,
although erasing drops whole branches.

What a node names is then read off its marks (`matchesRest_iff`), with one thing to watch: no named
child may be called `+`, or a topic would find it under its own level and under the wildcard
(`FilterNode.Tidy`).

* `FilterIndex.Holds.matchesTopic_iff`: an index names what some filter of its set names.
* `FilterCall.play_index_refines_set`: played on a fresh index and on the empty set, the same calls
  get the same answers and leave the same filters.
-/

namespace Mqtt
namespace FilterNode

variable {n c : FilterNode} {l : List (String × FilterNode)} {level k : String}

/-! ### Children -/

theorem lookup_setNamed :
    (setNamed level c l).lookup k = if k = level then some c else l.lookup k := by
  induction l with
  | nil => rw [setNamed, lookup_cons_eq_ite]
  | cons head rest ih =>
    obtain ⟨l', c'⟩ := head
    rw [setNamed]
    by_cases h₁ : l' = level
    · subst h₁
      rw [if_pos rfl, lookup_cons_eq_ite, lookup_cons_eq_ite]
      by_cases h : k = l' <;> simp [h]
    · rw [if_neg h₁]
      by_cases h₂ : level < l'
      · rw [if_pos h₂, lookup_cons_eq_ite]
      · rw [if_neg h₂, lookup_cons_eq_ite, lookup_cons_eq_ite, ih]
        by_cases h : k = l'
        · simp [h, h₁]
        · simp [h]

@[simp]
theorem child?_setChild :
    (n.setChild level c).child? k = if k = level then some c else n.child? k := by
  unfold setChild child?
  by_cases h₁ : level = Topic.oneLevel
  · by_cases h₂ : k = Topic.oneLevel <;> simp [h₁, h₂]
  · by_cases h₂ : k = Topic.oneLevel
    · simp [h₁, h₂, Ne.symm h₁]
    · simp [h₁, h₂, lookup_setNamed]

@[simp]
theorem child?_dropChild :
    (n.dropChild level).child? k = if k = level then none else n.child? k := by
  unfold dropChild child?
  by_cases h₁ : level = Topic.oneLevel
  · by_cases h₂ : k = Topic.oneLevel <;> simp [h₁, h₂]
  · by_cases h₂ : k = Topic.oneLevel
    · simp [h₁, h₂, Ne.symm h₁]
    · simp [h₁, h₂, lookup_filter_ne]

@[simp]
theorem child?_setMark {all value : Bool} : (n.setMark all value).child? k = n.child? k := by
  unfold setMark
  split_ifs <;> rfl

@[simp]
theorem mark_setChild {all : Bool} : (n.setChild level c).mark all = n.mark all := by
  unfold setChild mark
  split_ifs <;> rfl

@[simp]
theorem mark_dropChild {all : Bool} : (n.dropChild level).mark all = n.mark all := by
  unfold dropChild mark
  split_ifs <;> rfl

@[simp]
theorem mark_setMark {all all' value : Bool} :
    (n.setMark all value).mark all' = if all' = all then value else n.mark all' := by
  cases all <;> cases all' <;> rfl

theorem child?_of_isEmpty (h : n.isEmpty = true) : n.child? level = none := by
  obtain ⟨named, any, all, here⟩ := n
  simp only [isEmpty, Bool.and_eq_true, Option.isNone_iff_eq_none, List.isEmpty_iff] at h
  simp [child?, h.1.2, h.2]

theorem mark_of_isEmpty {all : Bool} (h : n.isEmpty = true) : n.mark all = false := by
  obtain ⟨named, any, all, here⟩ := n
  simp only [isEmpty, Bool.and_eq_true, Bool.not_eq_true'] at h
  simp [mark, h.1.1.1, h.1.1.2]

/-! ### Marks -/

variable {all all' : Bool} {path path' : List String}

/-- A node in use has a mark somewhere, so one that is not in use has none. -/
theorem contains_of_isEmpty (h : n.isEmpty = true) : n.contains all path = false := by
  cases path with
  | nil => exact mark_of_isEmpty h
  | cons level rest => rw [contains, child?_of_isEmpty h]

theorem contains_cons :
    n.contains all (level :: path) = (n.child? level).elim false (contains all path) := by
  rw [contains]
  cases n.child? level <;> rfl

theorem exists_child_of_contains (h : n.contains all (level :: path) = true) :
    ∃ c, n.child? level = some c ∧ c.contains all path = true := by
  rw [contains_cons] at h
  cases hc : n.child? level with
  | none =>
    rw [hc] at h
    cases h
  | some c =>
    rw [hc] at h
    exact ⟨c, rfl, h⟩

theorem contains_empty : empty.contains all path = false := contains_of_isEmpty rfl

/-- A node that has just been made is as good as none. -/
theorem contains_getD_empty {o : Option FilterNode} :
    (o.getD empty).contains all path = o.elim false (contains all path) := by
  cases o with
  | none => exact contains_empty
  | some c => rfl

/-- Inserting a filter sets its mark, and no other. -/
theorem contains_insert :
    (insert all path n).contains all' path' =
      (decide (path' = path ∧ all' = all) || n.contains all' path') := by
  induction path generalizing n path' with
  | nil =>
    rw [insert]
    cases path' with
    | nil =>
      rw [contains, contains, mark_setMark]
      by_cases h : all' = all <;> simp [h]
    | cons level rest => simp [contains]
  | cons level path ih =>
    rw [insert]
    cases path' with
    | nil => simp [contains]
    | cons level' path' =>
      rw [contains_cons, contains_cons, child?_setChild]
      by_cases h : level' = level
      · subst h
        simp only [if_true, Option.elim_some, ih, contains_getD_empty, List.cons.injEq, true_and]
      · simp [h]

/-- Where a filter is erased, the child on the way to it stays only if it is still needed. -/
theorem child?_erase_cons (hc : n.child? level = some c) :
    (erase all (level :: path) n).child? k =
      if k = level then
        (if (erase all path c).isEmpty then none else some (erase all path c))
      else n.child? k := by
  simp only [erase, hc]
  by_cases he : (erase all path c).isEmpty = true
  · simp only [if_pos he, child?_dropChild]
  · simp only [if_neg he, child?_setChild]

theorem mark_erase_cons : (erase all (level :: path) n).mark all' = n.mark all' := by
  rw [erase]
  cases n.child? level with
  | none => rfl
  | some c =>
    dsimp only
    split_ifs
    · exact mark_dropChild
    · exact mark_setChild

/-- Erasing a filter clears its mark, and no other: what is dropped with it holds no mark. -/
theorem contains_erase :
    (erase all path n).contains all' path' =
      (!decide (path' = path ∧ all' = all) && n.contains all' path') := by
  induction path generalizing n path' with
  | nil =>
    rw [erase]
    cases path' with
    | nil =>
      rw [contains, contains, mark_setMark]
      by_cases h : all' = all <;> simp [h]
    | cons level rest => simp [contains]
  | cons level path ih =>
    cases path' with
    | nil => simp [contains, mark_erase_cons]
    | cons level' path' =>
      rw [contains_cons, contains_cons]
      by_cases h : level' = level
      · subst h
        cases hc : n.child? level' with
        | none => simp [erase, hc]
        | some c =>
          rw [child?_erase_cons hc, if_pos rfl]
          have := @ih c path'
          -- A child that has become empty is dropped, and held no mark any more.
          by_cases he : (erase all path c).isEmpty = true
          · rw [contains_of_isEmpty he] at this
            simpa [he] using this
          · simpa [he] using this
      · -- The path goes through another child.
        cases hc : n.child? level with
        | none => simp [erase, hc, h]
        | some c => simp [child?_erase_cons hc, h]

/-! ### What a node names -/

/-- No named child of the node, or of a node below it, is called `+`. -/
inductive Tidy : FilterNode → Prop
  | intro {n : FilterNode} : n.named.lookup Topic.oneLevel = none →
    (∀ level c, n.child? level = some c → Tidy c) → Tidy n

theorem Tidy.lookup (h : n.Tidy) : n.named.lookup Topic.oneLevel = none := by
  cases h with
  | intro h _ => exact h

theorem Tidy.child (h : n.Tidy) (hc : n.child? level = some c) : c.Tidy := by
  cases h with
  | intro _ h => exact h level c hc

theorem tidy_empty : empty.Tidy := by
  refine .intro rfl fun level c hc => ?_
  rw [child?_of_isEmpty rfl] at hc
  cases hc

theorem tidy_setMark {value : Bool} (h : n.Tidy) : (n.setMark all value).Tidy := by
  refine .intro ?_ fun level c hc => ?_
  · rw [setMark]
    split_ifs <;> exact h.lookup
  · rw [child?_setMark] at hc
    exact h.child hc

theorem tidy_setChild (h : n.Tidy) (hc : c.Tidy) : (n.setChild level c).Tidy := by
  refine .intro ?_ fun k d hd => ?_
  · rw [setChild]
    split_ifs with hlevel
    · exact h.lookup
    · rw [lookup_setNamed, if_neg (Ne.symm hlevel)]
      exact h.lookup
  · rw [child?_setChild] at hd
    split_ifs at hd
    · cases hd
      exact hc
    · exact h.child hd

theorem tidy_dropChild (h : n.Tidy) : (n.dropChild level).Tidy := by
  refine .intro ?_ fun k d hd => ?_
  · rw [dropChild]
    split_ifs with hlevel
    · exact h.lookup
    · rw [lookup_filter_ne, if_neg (Ne.symm hlevel)]
      exact h.lookup
  · rw [child?_dropChild] at hd
    split_ifs at hd
    exact h.child hd

theorem tidy_insert (h : n.Tidy) : (insert all path n).Tidy := by
  induction path generalizing n with
  | nil => exact tidy_setMark h
  | cons level path ih =>
    refine tidy_setChild h (ih ?_)
    cases hc : n.child? level with
    | none => exact tidy_empty
    | some c => exact h.child hc

theorem tidy_erase (h : n.Tidy) : (erase all path n).Tidy := by
  induction path generalizing n with
  | nil => exact tidy_setMark h
  | cons level path ih =>
    rw [erase]
    cases hc : n.child? level with
    | none => exact h
    | some c =>
      dsimp only
      split_ifs
      · exact tidy_dropChild h
      · exact tidy_setChild h (ih (h.child hc))

/-- Whether the levels of a topic are named by a path with a mark of this sort at its end. -/
def pathNames (all : Bool) : List String → List String → Bool
  | [], topic => topic.isEmpty || all
  | _ :: _, [] => false
  | level :: path, l :: topic => (level == Topic.oneLevel || level == l) && pathNames all path topic

theorem matchesRest_cons {topic : List String} :
    n.matchesRest (k :: topic) =
      (n.all || (n.named.lookup k).elim false (matchesRest topic) ||
        n.any.elim false (matchesRest topic)) := by
  rw [matchesRest]
  cases n.all <;> cases n.named.lookup k <;> cases n.any <;> simp

/-- The children that a level of a topic leads to, by its own name or by the wildcard. -/
theorem Tidy.lookup_or_any (h : n.Tidy) :
    n.named.lookup k = some c ∨ n.any = some c ↔
      ∃ level, n.child? level = some c ∧ (level = Topic.oneLevel ∨ level = k) := by
  constructor
  · rintro (hc | hc)
    · refine ⟨k, ?_, .inr rfl⟩
      rw [child?, if_neg, hc]
      rintro rfl
      rw [h.lookup] at hc
      cases hc
    · exact ⟨Topic.oneLevel, by rw [child?, if_pos rfl, hc], .inl rfl⟩
  · rintro ⟨level, hc, hlevel⟩
    rw [child?] at hc
    split_ifs at hc with hone
    · exact .inr hc
    · rcases hlevel with rfl | rfl
      · exact absurd rfl hone
      · exact .inl hc

/-- **A node names the rest of a topic when one of its paths does.** -/
theorem matchesRest_iff (h : n.Tidy) {topic : List String} :
    n.matchesRest topic = true ↔
      ∃ path all, n.contains all path = true ∧ pathNames all path topic = true := by
  induction topic generalizing n with
  | nil =>
    have hpath : (∃ path all, n.contains all path = true ∧ pathNames all path [] = true) ↔
        ∃ all, n.mark all = true := by
      constructor
      · rintro ⟨_ | ⟨level, path⟩, all, hmark, hname⟩
        · exact ⟨all, hmark⟩
        · cases hname
      · rintro ⟨all, hmark⟩
        exact ⟨[], all, hmark, rfl⟩
    rw [hpath, matchesRest]
    simp [mark]
  | cons k topic ih =>
    have hpath : (∃ path all, n.contains all path = true ∧ pathNames all path (k :: topic) = true) ↔
        n.all = true ∨ ∃ c, (n.named.lookup k = some c ∨ n.any = some c) ∧
          c.matchesRest topic = true := by
      constructor
      · rintro ⟨_ | ⟨level, path⟩, all, hmark, hname⟩
        · -- A path that ends here names the rest only if it ends with `#`.
          have hall : all = true := by simpa [pathNames] using hname
          subst hall
          exact .inl hmark
        · obtain ⟨c, hc, hmark⟩ := exists_child_of_contains hmark
          simp only [pathNames, Bool.and_eq_true, Bool.or_eq_true, beq_iff_eq] at hname
          obtain ⟨hlevel, hname⟩ := hname
          exact .inr ⟨c, h.lookup_or_any.2 ⟨level, hc, hlevel⟩,
            (ih (h.child hc)).2 ⟨path, all, hmark, hname⟩⟩
      · rintro (hall | ⟨c, hc, hname⟩)
        · exact ⟨[], true, hall, by simp [pathNames]⟩
        · obtain ⟨level, hc, hlevel⟩ := h.lookup_or_any.1 hc
          obtain ⟨path, all, hmark, hname⟩ := (ih (h.child hc)).1 hname
          refine ⟨level :: path, all, ?_, ?_⟩
          · rw [contains_cons, hc, Option.elim_some, hmark]
          · simp [pathNames, hlevel, hname]
    rw [hpath, matchesRest_cons]
    cases n.named.lookup k <;> cases n.any <;> simp [or_assoc, or_and_right, exists_or]

/-- The root names a topic when one of its paths does; behind a first level with a dollar sign,
only a path that begins with this level counts. -/
theorem matchesTopic_iff (h : n.Tidy) {topic : List String} :
    n.matchesTopic (level :: topic) = true ↔
      ∃ path all, n.contains all path = true ∧ pathNames all path (level :: topic) = true ∧
        (Topic.isReserved level = true → path.head? = some level) := by
  rw [matchesTopic]
  by_cases hr : Topic.isReserved level = true
  · -- No wildcard begins with a dollar sign, so the child of that name is a named one.
    have hone : level ≠ Topic.oneLevel := by
      rintro rfl
      exact absurd hr (by decide)
    have hchild : n.child? level = n.named.lookup level := by
      rw [child?, if_neg hone]
    rw [if_pos hr, ← hchild]
    constructor
    · intro hm
      cases hc : n.child? level with
      | none => simp [hc] at hm
      | some c =>
        rw [hc, Option.map_some, Option.getD_some] at hm
        obtain ⟨path, all, hmark, hname⟩ := (matchesRest_iff (h.child hc)).1 hm
        refine ⟨level :: path, all, ?_, ?_, fun _ => rfl⟩
        · rw [contains_cons, hc, Option.elim_some, hmark]
        · simp [pathNames, hname]
    · rintro ⟨_ | ⟨l, path⟩, all, hmark, hname, hhead⟩
      · cases hhead hr
      · have hl : l = level := by simpa using hhead hr
        subst hl
        obtain ⟨c, hc, hmark⟩ := exists_child_of_contains hmark
        simp only [pathNames, Bool.and_eq_true] at hname
        rw [hc, Option.map_some, Option.getD_some, matchesRest_iff (h.child hc)]
        exact ⟨path, all, hmark, hname.2⟩
  · rw [if_neg hr, matchesRest_iff h]
    simp [hr]

end FilterNode

/-! ### The path of a filter -/

namespace FilterIndex

open FilterNode Topic

/-- The level behind a path that its mark stands for. -/
def tail (all : Bool) : List String := if all then [allLevels] else []

theorem levels_eq_path (filter : String) :
    levels filter = (path filter).1 ++ tail (path filter).2 := by
  rw [path]
  by_cases h : (levels filter).getLast? = some allLevels
  · rw [if_pos h]
    exact (List.dropLast_append_getLast? _ h).symm
  · rw [if_neg h]
    exact (List.append_nil _).symm

theorem path_injective {f g : String} (h : path f = path g) : f = g := by
  apply levels_injective
  rw [levels_eq_path, levels_eq_path, h]

/-- Levels with well-placed wildcards are a path of plain levels and `+`, and its tail. -/
theorem exists_of_wellPlaced {ls : List String} (h : WellPlaced ls) :
    ∃ path all, ls = path ++ tail all ∧
      ∀ level ∈ path, level = oneLevel ∨ hasWildcard level = false := by
  induction h with
  | nil => exact ⟨[], false, rfl, by simp⟩
  | all => exact ⟨[], true, rfl, by simp⟩
  | one _ ih =>
    obtain ⟨path, all, rfl, hpath⟩ := ih
    exact ⟨oneLevel :: path, all, rfl, by simpa using hpath⟩
  | plain hlevel _ ih =>
    obtain ⟨path, all, rfl, hpath⟩ := ih
    exact ⟨_ :: path, all, rfl, by simpa [hlevel] using hpath⟩

theorem ne_allLevels {level : String} (h : level = oneLevel ∨ hasWildcard level = false) :
    level ≠ allLevels := by
  rintro rfl
  exact absurd h (by decide)

theorem mem_path {filter : String} (h : WellPlaced (levels filter)) :
    ∀ level ∈ (path filter).1, level = oneLevel ∨ hasWildcard level = false := by
  obtain ⟨p, all, hp, hlevel⟩ := exists_of_wellPlaced h
  have hpath : path filter = (p, all) := by
    rw [path, hp]
    cases all with
    | true => simp [tail]
    | false =>
      have hlast : (p ++ tail false).getLast? ≠ some allLevels := by
        intro hlast
        rw [tail, if_neg (by decide), List.append_nil] at hlast
        exact ne_allLevels (hlevel _ (List.mem_of_getLast? hlast)) rfl
      rw [if_neg hlast]
      simp [tail]
  rw [hpath]
  exact hlevel

/-- A filter with well-placed wildcards names what its path names. -/
theorem matchLevels_append_tail {path topic : List String} {all : Bool}
    (h : ∀ level ∈ path, level = oneLevel ∨ hasWildcard level = false) :
    matchLevels topic (path ++ tail all) = pathNames all path topic := by
  induction path generalizing topic with
  | nil => cases all <;> cases topic <;> simp [tail, matchLevels, pathNames]
  | cons level path ih =>
    have hne := ne_allLevels (h level List.mem_cons_self)
    have hrest : ∀ l ∈ path, l = oneLevel ∨ hasWildcard l = false :=
      fun l hl => h l (List.mem_cons_of_mem _ hl)
    rw [List.cons_append]
    cases topic with
    | nil => rw [matchLevels, if_neg hne, pathNames]
    | cons l topic =>
      rw [matchLevels, if_neg hne, pathNames, ih hrest]
      rcases h level List.mem_cons_self with rfl | hplain
      · simp
      · rw [hplain, Bool.not_false, Bool.true_and, beq_eq_decide level oneLevel]
        cases decide (level = oneLevel) <;> cases level == l <;> rfl

/-- A filter begins with a wildcard unless its path begins with a plain level. -/
theorem beginsWild_iff {filter : String} (h : WellPlaced (levels filter)) :
    beginsWild filter = true ↔ ∀ level, (path filter).1.head? = some level → level = oneLevel := by
  have hlevels := levels_eq_path filter
  cases hp : (path filter).1 with
  | nil =>
    -- The filter is `#` alone.
    have hall : levels filter = [allLevels] := by
      rw [hlevels, hp, List.nil_append, tail]
      split_ifs with ha
      · rfl
      · exact absurd (by rw [hlevels, hp, tail, if_neg ha, List.nil_append]) (levels_ne_nil filter)
    rw [← beginsWild_of_levels_eq_cons hall]
    exact iff_of_true (by decide) (by simp)
  | cons l p =>
    rw [hp, List.cons_append] at hlevels
    rw [← beginsWild_of_levels_eq_cons hlevels]
    by_cases hl : l = oneLevel
    · subst hl
      exact iff_of_true (by decide) (by simp)
    · have hplain : hasWildcard l = false :=
        (mem_path h l (by rw [hp]; exact List.mem_cons_self)).resolve_left hl
      rw [beginsWild_of_not_hasWildcard hplain]
      simp [hl]

/-- What a filter names, read off its path. -/
theorem matchedBy_iff {topic filter level : String} {rest : List String}
    (hf : validateFilter filter = .ok ()) (ht : levels topic = level :: rest)
    (hne : topic.isEmpty = false) :
    matchedBy topic filter = true ↔
      pathNames (path filter).2 (path filter).1 (level :: rest) = true ∧
        (isReserved level = true → (path filter).1.head? = some level) := by
  obtain ⟨htext, hplaced⟩ := validateFilter_eq_ok.1 hf
  have hmatch : matchLevels (levels topic) (levels filter) =
      pathNames (path filter).2 (path filter).1 (level :: rest) := by
    rw [levels_eq_path filter, matchLevels_append_tail (mem_path hplaced), ht]
  -- A path that names the topic begins with `+` or with the first level of the topic.
  have hhead (hr : isReserved level = true)
      (hname : pathNames (path filter).2 (path filter).1 (level :: rest) = true) :
      beginsWild filter = false ↔ (path filter).1.head? = some level := by
    have hlevel : level ≠ oneLevel := by
      rintro rfl
      exact absurd hr (by decide)
    rw [← Bool.not_eq_true, beginsWild_iff hplaced]
    cases hp : (path filter).1 with
    | nil => simp
    | cons l p =>
      rw [hp] at hname
      simp only [pathNames, Bool.and_eq_true, Bool.or_eq_true, beq_iff_eq] at hname
      rcases hname.1 with rfl | rfl
      · simp [Ne.symm hlevel]
      · simp [hlevel]
  rw [matchedBy, hne, ne_empty_of_checkText htext, hmatch, ← isReserved_of_levels_eq_cons ht]
  by_cases hr : isReserved level = true
  · simp only [hr, forall_const]
    rw [← and_congr_right (hhead hr)]
    cases beginsWild filter <;> simp
  · simp [hr]

/-! ### The index and the set -/

/-- The index holds the filters of the set. -/
structure Holds (x : FilterIndex) (S : Finset String) : Prop where
  tidy : x.root.Tidy
  paths : ∀ p all, x.root.contains all p = true ↔ ∃ f ∈ S, path f = (p, all)
  valid : ∀ f ∈ S, validateFilter f = .ok ()
  size : x.size = S.card

namespace Holds

variable {x : FilterIndex} {S : Finset String} {filter : String}

theorem contains_iff (h : x.Holds S) : x.contains filter = true ↔ filter ∈ S := by
  show x.root.contains (path filter).2 (path filter).1 = true ↔ _
  rw [h.paths]
  constructor
  · rintro ⟨f, hf, hpath⟩
    rwa [← path_injective hpath]
  · intro hf
    exact ⟨filter, hf, rfl⟩

theorem contains_eq (h : x.Holds S) : x.contains filter = decide (filter ∈ S) := by
  rw [Bool.eq_iff_iff, h.contains_iff, decide_eq_true_eq]

/-- **The index names what some filter of the set names.** -/
theorem matchesTopic_iff (h : x.Holds S) (topic : String) :
    x.matchesTopic topic = true ↔ ∃ f ∈ S, matchedBy topic f = true := by
  rw [matchesTopic]
  by_cases hne : topic.isEmpty = true
  · simp [hne, matchedBy]
  · rw [Bool.not_eq_true] at hne
    obtain ⟨level, rest, ht⟩ := List.exists_cons_of_ne_nil (levels_ne_nil topic)
    rw [hne, Bool.not_false, Bool.true_and, ht, FilterNode.matchesTopic_iff h.tidy]
    constructor
    · rintro ⟨p, all, hmark, hname⟩
      obtain ⟨f, hf, hpath⟩ := (h.paths p all).1 hmark
      refine ⟨f, hf, (matchedBy_iff (h.valid f hf) ht hne).2 ?_⟩
      rwa [hpath]
    · rintro ⟨f, hf, hmatch⟩
      exact ⟨(path f).1, (path f).2, (h.paths _ _).2 ⟨f, hf, rfl⟩,
        (matchedBy_iff (h.valid f hf) ht hne).1 hmatch⟩

theorem isEmpty_iff (h : x.Holds S) : x.isEmpty = true ↔ S = ∅ := by
  rw [isEmpty, h.size, beq_iff_eq, Finset.card_eq_zero]

end Holds

theorem holds_empty : empty.Holds ∅ where
  tidy := tidy_empty
  paths p all := by simp [empty, contains_empty]
  valid := by simp
  size := rfl

/-- Inserting a filter that is not there. -/
theorem Holds.insert {x : FilterIndex} {S : Finset String} {f : String} (h : x.Holds S)
    (hf : validateFilter f = .ok ()) (hnew : f ∉ S) :
    Holds ⟨x.root.insert (path f).2 (path f).1, x.size + 1⟩ (insert f S) where
  tidy := tidy_insert h.tidy
  paths p all := by
    rw [contains_insert, Bool.or_eq_true, decide_eq_true_eq, h.paths, Finset.exists_mem_insert,
      Prod.ext_iff]
    tauto
  valid g hg := by
    rcases Finset.mem_insert.1 hg with rfl | hg
    · exact hf
    · exact h.valid g hg
  size := by
    rw [Finset.card_insert_of_notMem hnew, ← h.size]

/-- Erasing a filter that is there. -/
theorem Holds.erase {x : FilterIndex} {S : Finset String} {f : String} (h : x.Holds S)
    (hold : f ∈ S) :
    Holds ⟨x.root.erase (path f).2 (path f).1, x.size - 1⟩ (S.erase f) where
  tidy := tidy_erase h.tidy
  paths p all := by
    rw [contains_erase, Bool.and_eq_true, Bool.not_eq_true', decide_eq_false_iff_not, h.paths]
    constructor
    · rintro ⟨hne, g, hg, hpath⟩
      refine ⟨g, Finset.mem_erase.2 ⟨?_, hg⟩, hpath⟩
      rintro rfl
      rw [hpath] at hne
      exact hne ⟨rfl, rfl⟩
    · rintro ⟨g, hg, hpath⟩
      obtain ⟨hne, hg⟩ := Finset.mem_erase.1 hg
      refine ⟨?_, g, hg, hpath⟩
      rintro ⟨rfl, rfl⟩
      exact hne (path_injective hpath)
  valid g hg := h.valid g (Finset.mem_of_mem_erase hg)
  size := by
    rw [Finset.card_erase_of_mem hold, ← h.size]

end FilterIndex

/-! ### Calls -/

/-- A call on a set of filters. -/
inductive FilterCall where
  | subscribe (filter : String)
  | unsubscribe (filter : String)

namespace FilterCall

/-- The calls in turn: their answers, and what is left behind. -/
def play {σ : Type} (call : σ → FilterCall → Except Fault Bool × σ) :
    σ → List FilterCall → List (Except Fault Bool) × σ
  | s, [] => ([], s)
  | s, c :: cs =>
    let (answer, s) := call s c
    let (answers, s) := play call s cs
    (answer :: answers, s)

/-- A call on an index. -/
def onIndex (x : FilterIndex) : FilterCall → Except Fault Bool × FilterIndex
  | subscribe filter =>
    match x.subscribe filter with
    | .ok (new, x) => (.ok new, x)
    | .error e => (.error e, x)
  | unsubscribe filter =>
    let (held, x) := x.unsubscribe filter
    (.ok held, x)

/-- The same call on a plain set. -/
def onSet (S : Finset String) : FilterCall → Except Fault Bool × Finset String
  | subscribe filter =>
    match Topic.validateFilter filter with
    | .ok () => (.ok (decide (filter ∉ S)), insert filter S)
    | .error e => (.error e, S)
  | unsubscribe filter => (.ok (decide (filter ∈ S)), S.erase filter)

/-- A call is answered alike, and the index goes on holding the filters of the set. -/
theorem onIndex_eq_onSet {x : FilterIndex} {S : Finset String} (h : x.Holds S) (c : FilterCall) :
    (onIndex x c).1 = (onSet S c).1 ∧ (onIndex x c).2.Holds (onSet S c).2 := by
  cases c with
  | subscribe filter =>
    rw [onIndex, onSet, FilterIndex.subscribe]
    rcases hv : Topic.validateFilter filter with e | ⟨⟩
    · exact ⟨rfl, h⟩
    · simp only [bind, Except.bind, h.contains_eq, decide_eq_true_eq]
      by_cases hmem : filter ∈ S
      · rw [if_pos hmem, Finset.insert_eq_of_mem hmem]
        exact ⟨by simp [pure, Except.pure, hmem], h⟩
      · rw [if_neg hmem]
        exact ⟨by simp [pure, Except.pure, hmem], h.insert hv hmem⟩
  | unsubscribe filter =>
    rw [onIndex, onSet, FilterIndex.unsubscribe, h.contains_eq]
    by_cases hmem : filter ∈ S
    · simp only [hmem, decide_true, if_true]
      exact ⟨trivial, h.erase hmem⟩
    · simp only [hmem, decide_false, Bool.false_eq_true, if_false]
      rw [Finset.erase_eq_of_notMem hmem]
      exact ⟨trivial, h⟩

theorem play_onIndex_eq_play_onSet {x : FilterIndex} {S : Finset String} (h : x.Holds S)
    (calls : List FilterCall) :
    (play onIndex x calls).1 = (play onSet S calls).1 ∧
      (play onIndex x calls).2.Holds (play onSet S calls).2 := by
  induction calls generalizing x S with
  | nil => exact ⟨rfl, h⟩
  | cons c calls ih =>
    obtain ⟨hanswer, hstep⟩ := onIndex_eq_onSet h c
    obtain ⟨hanswers, hplay⟩ := ih hstep
    exact ⟨congrArg₂ List.cons hanswer hanswers, hplay⟩

/-- **The index is a set of filters.** After any calls on a fresh index, valid arguments or not,
the answers are those of the set, and the index names what some filter of the set names. -/
theorem play_index_refines_set (calls : List FilterCall) :
    (play onIndex .empty calls).1 = (play onSet ∅ calls).1 ∧
      (∀ topic, (play onIndex .empty calls).2.matchesTopic topic = true ↔
        ∃ f ∈ (play onSet ∅ calls).2, Topic.matchedBy topic f = true) ∧
      (play onIndex .empty calls).2.size = (play onSet ∅ calls).2.card ∧
      ((play onIndex .empty calls).2.isEmpty = true ↔ (play onSet ∅ calls).2 = ∅) := by
  obtain ⟨hanswers, h⟩ := play_onIndex_eq_play_onSet FilterIndex.holds_empty calls
  exact ⟨hanswers, h.matchesTopic_iff, h.size, h.isEmpty_iff⟩

end FilterCall
end Mqtt
