import Mqtt.Proofs.Topic.Cut
/-!
# The shape of an index

What an index looks like is read off the filters that it holds, as far as its root is trim: which
nodes there are (`FilterIndex.Holds.node?_isSome_iff`), how their children are named
(`FilterIndex.Holds.name_ne`), and when there is nothing (`FilterIndex.Holds.root_isEmpty_iff`). So
two indexes that hold the same filters are the same (`FilterIndex.Holds.eq`), whichever calls have
led there (`FilterCall.play_index_canonical`).
-/

namespace Mqtt
namespace FilterIndex
namespace Holds

open FilterNode Topic

variable {x y : FilterIndex} {S : Finset String} {p : List String} {n : FilterNode}

/-- **Two indexes that hold the same filters are the same.** -/
theorem eq (h : x.Holds S) (htrim : x.root.Trim) (h' : y.Holds S) (htrim' : y.root.Trim) :
    x = y := by
  have hroot : x.root = y.root := by
    refine eq_of_contains htrim h.tidy htrim' h'.tidy fun all path => ?_
    rw [Bool.eq_iff_iff, h.paths, h'.paths]
  obtain ⟨root, size⟩ := x
  obtain ⟨root', size'⟩ := y
  rw [FilterIndex.mk.injEq]
  exact ⟨hroot, h.size.trans h'.size.symm⟩

/-- The nodes are the root and those on the paths of the filters. -/
theorem node?_isSome_iff (h : x.Holds S) (htrim : x.root.Trim) :
    (x.root.node? p).isSome = true ↔ p = [] ∨ ∃ f ∈ S, p <+: (path f).1 := by
  constructor
  · intro hsome
    obtain ⟨n, hn⟩ := Option.isSome_iff_exists.1 hsome
    obtain ⟨hntrim, hused⟩ := htrim.node? hn
    refine or_iff_not_imp_left.2 fun hne => ?_
    -- The node is in use, so some filter ends at it or below it.
    obtain ⟨all, q, hmark⟩ := exists_contains hntrim (h.tidy.node? hn) (hused hne)
    have hcontains : x.root.contains all (p ++ q) = true := by
      rw [contains_append, hn]
      exact hmark
    obtain ⟨f, hf, hpath⟩ := (h.paths _ _).1 hcontains
    exact ⟨f, hf, by rw [hpath]; exact List.prefix_append p q⟩
  · rintro (rfl | ⟨f, hf, q, hq⟩)
    · rfl
    · have hcontains := (h.paths (path f).1 (path f).2).2 ⟨f, hf, rfl⟩
      rw [← hq, contains_append] at hcontains
      cases hn : x.root.node? p with
      | none =>
        rw [hn] at hcontains
        cases hcontains
      | some n => rfl

/-- No wildcard is the name of a child. -/
theorem name_ne (h : x.Holds S) (htrim : x.root.Trim) (hn : x.root.node? p = some n)
    {e : String × FilterNode} (he : e ∈ n.named) : e.1 ≠ oneLevel ∧ e.1 ≠ allLevels := by
  have hlookup : n.named.lookup e.1 = some e.2 :=
    (lookup_eq_some_iff_mem (htrim.node? hn).1.names).2 he
  have hone : e.1 ≠ oneLevel := by
    intro hname
    rw [hname, (h.tidy.node? hn).lookup] at hlookup
    cases hlookup
  refine ⟨hone, ?_⟩
  -- The child lies on the path of a filter, whose levels are no `#`.
  have hchild : x.root.node? (p ++ [e.1]) = some e.2 := by
    rw [node?_append, hn, Option.bind_some, node?, child?, if_neg hone, hlookup]
    rfl
  obtain hnil | ⟨f, hf, hprefix⟩ :=
    (h.node?_isSome_iff htrim).1 (Option.isSome_iff_exists.2 ⟨_, hchild⟩)
  · simp at hnil
  · have hmem : e.1 ∈ (path f).1 := hprefix.subset (by simp)
    exact ne_allLevels (mem_path (validateFilter_eq_ok.1 (h.valid f hf)).2 _ hmem)

theorem root_isEmpty_iff (h : x.Holds S) (htrim : x.root.Trim) :
    x.root.isEmpty = true ↔ S = ∅ := by
  constructor
  · intro hempty
    refine Finset.eq_empty_of_forall_notMem fun f hf => ?_
    have hcontains := (h.paths (path f).1 (path f).2).2 ⟨f, hf, rfl⟩
    rw [contains_of_isEmpty hempty] at hcontains
    cases hcontains
  · rintro rfl
    by_contra hused
    obtain ⟨all, q, hmark⟩ := exists_contains htrim h.tidy (by simpa using hused)
    obtain ⟨f, hf, -⟩ := (h.paths _ _).1 hmark
    exact absurd hf (Finset.notMem_empty f)

end Holds
end FilterIndex

/-! ### Calls -/

namespace FilterCall

open FilterNode

variable {S : Finset String}

theorem play_append {σ : Type} {call : σ → FilterCall → Except Fault Bool × σ} (s : σ)
    (cs ds : List FilterCall) :
    (play call s (cs ++ ds)).2 = (play call (play call s cs).2 ds).2 := by
  induction cs generalizing s with
  | nil => rfl
  | cons c cs ih => exact ih _

theorem mem_play_subscribe {f : String} (fs : List String) :
    f ∈ (play onSet S (fs.map .subscribe)).2 ↔
      f ∈ S ∨ f ∈ fs ∧ Topic.validateFilter f = .ok () := by
  induction fs generalizing S with
  | nil => simp [play]
  | cons g fs ih =>
    have hstep : f ∈ (onSet S (.subscribe g)).2 ↔
        f ∈ S ∨ f = g ∧ Topic.validateFilter f = .ok () := by
      rw [onSet]
      rcases hg : Topic.validateFilter g with e | ⟨⟩
      · exact (or_iff_left (by rintro ⟨rfl, hf⟩; rw [hg] at hf; cases hf)).symm
      · rw [Finset.mem_insert, or_comm]
        refine or_congr_right (and_iff_left_of_imp ?_).symm
        rintro rfl
        exact hg
    show f ∈ (play onSet (onSet S (.subscribe g)).2 (fs.map .subscribe)).2 ↔ _
    rw [ih, hstep, List.mem_cons, or_assoc, or_and_right]

theorem mem_play_unsubscribe {f : String} (fs : List String) :
    f ∈ (play onSet S (fs.map .unsubscribe)).2 ↔ f ∈ S ∧ f ∉ fs := by
  induction fs generalizing S with
  | nil => simp [play]
  | cons g fs ih =>
    show f ∈ (play onSet (S.erase g) (fs.map .unsubscribe)).2 ↔ _
    rw [ih, Finset.mem_erase, List.mem_cons, not_or]
    tauto

/-- New filters that come and go leave the set as it was. -/
theorem play_onSet_come_and_go {new gone : List String} (hnew : ∀ f ∈ new, f ∉ S)
    (hgone : ∀ f, f ∈ gone ↔ f ∈ new) :
    (play onSet S (new.map .subscribe ++ gone.map .unsubscribe)).2 = S := by
  ext f
  rw [play_append, mem_play_unsubscribe, mem_play_subscribe, hgone]
  constructor
  · rintro ⟨hf | ⟨hf, -⟩, hnot⟩
    · exact hf
    · exact absurd hf hnot
  · exact fun hf => ⟨.inl hf, fun hmem => hnew f hmem hf⟩

/-- **The index shows its filters and nothing else.** Whatever calls were made on a fresh index,
other calls that leave the same filters leave the same index. Its nodes are the root and those on
the paths of its filters, no wildcard is the name of a child, and the root is empty exactly if there
are no filters. So new filters that come and go, in any order, leave the index as it was, and so
does a filter that is refused. An index from which filters are removed by cuts has this shape as
well. -/
theorem play_index_canonical (calls : List FilterCall) :
    let x := (play onIndex .empty calls).2
    let S := (play onSet ∅ calls).2
    (∀ calls', (play onSet ∅ calls').2 = S → (play onIndex .empty calls').2 = x) ∧
      (∀ p, (x.root.node? p).isSome = true ↔ p = [] ∨ ∃ f ∈ S, p <+: (FilterIndex.path f).1) ∧
      (∀ p n, x.root.node? p = some n →
        ∀ e ∈ n.named, e.1 ≠ Topic.oneLevel ∧ e.1 ≠ Topic.allLevels) ∧
      (x.root.isEmpty = true ↔ S = ∅) ∧
      (∀ new gone : List String, (∀ f ∈ new, f ∉ S) → (∀ f, f ∈ gone ↔ f ∈ new) →
        (play onIndex x (new.map .subscribe ++ gone.map .unsubscribe)).2 = x) ∧
      (∀ f e, (onIndex x (.subscribe f)).1 = .error e → (onIndex x (.subscribe f)).2 = x) ∧
      play onIndexByCut .empty calls = play onIndex .empty calls := by
  intro x S
  have hholds (calls : List FilterCall) :=
    (play_onIndex_eq_play_onSet FilterIndex.holds_empty calls).2
  have htrims (calls : List FilterCall) := trim_play (x := .empty) trim_empty calls
  have hx : x.Holds S := hholds calls
  have htrim : x.root.Trim := htrims calls
  refine ⟨fun calls' hsame => ?_, fun p => hx.node?_isSome_iff htrim,
    fun p n hn e he => hx.name_ne htrim hn he, hx.root_isEmpty_iff htrim,
    fun new gone hnew hgone => ?_, fun f e herror => ?_, play_onIndexByCut calls⟩
  · -- Two trimmed indices that hold the same set are one.
    exact (hsame ▸ hholds calls').eq (htrims calls') hx htrim
  · -- What comes and goes leaves the set as it was.
    have hplay := (play_onIndex_eq_play_onSet hx (new.map .subscribe ++ gone.map .unsubscribe)).2
    rw [play_onSet_come_and_go hnew hgone] at hplay
    exact hplay.eq (trim_play htrim _) hx htrim
  · rw [onIndex] at herror ⊢
    cases hsub : x.subscribe f with
    | error e => rfl
    | ok r =>
      rw [hsub] at herror
      cases herror

/-- Filters that share a level, in another order and with one that has gone; two that come and go;
and one that is refused. -/
theorem play_index_canonical_shared :
    let x := (play onIndex .empty [.subscribe "a/b", .subscribe "a/#"]).2
    (play onIndex .empty
        [.subscribe "a/#", .subscribe "x", .subscribe "a/b", .unsubscribe "x"]).2 = x ∧
      (play onIndex x
        [.subscribe "+", .subscribe "a/b/c", .unsubscribe "a/b/c", .unsubscribe "+"]).2 = x ∧
      (onIndex x (.subscribe "a/#/b")).2 = x := by
  intro x
  obtain ⟨hhistory, -, -, -, hgone, hrefused, -⟩ :=
    play_index_canonical [.subscribe "a/b", .subscribe "a/#"]
  refine ⟨hhistory _ (by decide), hgone ["+", "a/b/c"] ["a/b/c", "+"] (by decide) ?_, ?_⟩
  · intro f
    simp [or_comm]
  · exact hrefused "a/#/b" (.violation (.multiLevelNotLast "a/#/b")) (by decide)

end FilterCall
end Mqtt
