import Mathlib.Data.List.Infix
import Mathlib.Data.List.TakeWhile
import Mqtt.Address
/-!
# What an address stands for

An address is read from both ends: the transport is what stands in front of the *first* `://`, the
port is what stands behind the *last* colon. Both cuts are said here of the text alone, with the
text in front of the cut and the text behind it as lists (`Cut`, `HostPort`), and the searches of
`resolve` are proved to find them. What is left of an address once the transport and the slashes at
the end are gone is its text (`Stripped`), and `resolve` accepts an address exactly if that text is
not empty (`resolve_eq_ok_iff`).

So it is only checked that there is a text, not that there is a host in it. A text that begins with
its last colon has none, and a text behind a transport may name a second one. At every other address
the answer is what one expects of an address (`resolved_and_proper_iff`).
-/

namespace Mqtt
namespace Address

/-- What separates the transport from the host. -/
def separator : List Char := "://".toList

/-! ### The transport -/

/-- A text cut at the first separator in it. -/
structure Cut (s scheme rest : List Char) : Prop where
  /-- The cut leaves the text in front of the separator and the text behind it. -/
  eq_append : s = scheme ++ separator ++ rest
  /-- No separator stands further in front. -/
  first : ∀ scheme' rest', s = scheme' ++ separator ++ rest' → scheme.length ≤ scheme'.length

/-- A text is cut at one place at most. -/
theorem Cut.unique {s scheme rest scheme' rest' : List Char} (h : Cut s scheme rest)
    (h' : Cut s scheme' rest') : scheme = scheme' ∧ rest = rest' := by
  have hlength : scheme.length = scheme'.length :=
    Nat.le_antisymm (h.first _ _ h'.eq_append) (h'.first _ _ h.eq_append)
  have heq : scheme ++ (separator ++ rest) = scheme' ++ (separator ++ rest') := by
    rw [← List.append_assoc, ← List.append_assoc, ← h.eq_append, ← h'.eq_append]
  obtain ⟨hscheme, hrest⟩ := List.append_inj heq hlength
  exact ⟨hscheme, List.append_cancel_left hrest⟩

theorem cut_of_splitScheme {s scheme rest : List Char}
    (h : splitScheme s = some (scheme, rest)) : Cut s scheme rest := by
  induction s using splitScheme.induct generalizing scheme with
  | case1 behind =>
    cases h
    exact ⟨rfl, fun _ _ _ => Nat.zero_le _⟩
  | case2 => nomatch h
  | case3 c s hne ih =>
    rw [splitScheme.eq_3 c s hne] at h
    obtain ⟨⟨front, behind⟩, hs, heq⟩ := Option.map_eq_some_iff.1 h
    cases heq
    have hcut := ih hs
    refine ⟨congrArg (c :: ·) hcut.eq_append, fun scheme' rest' h' => ?_⟩
    cases scheme' with
    | nil =>
      -- A separator right at the front is the first case of the search.
      obtain ⟨rfl, rfl⟩ := List.cons.inj h'
      exact absurd rfl (hne rest' rfl)
    | cons c' scheme' => exact Nat.succ_le_succ (hcut.first _ _ (List.cons.inj h').2)

theorem not_infix_of_splitScheme {s : List Char} (h : splitScheme s = none) :
    ¬separator <:+: s := by
  induction s using splitScheme.induct with
  | case1 behind => nomatch h
  | case2 => exact fun hinfix => absurd (List.infix_nil.1 hinfix) (by decide)
  | case3 c s hne ih =>
    rw [splitScheme.eq_3 c s hne, Option.map_eq_none_iff] at h
    rw [List.infix_cons_iff]
    rintro (⟨rest, hprefix⟩ | hinfix)
    · obtain ⟨rfl, rfl⟩ := List.cons.inj hprefix
      exact absurd rfl (hne rest rfl)
    · exact ih h hinfix

/-- The search finds no separator exactly if there is none. -/
theorem splitScheme_eq_none_iff {s : List Char} : splitScheme s = none ↔ ¬separator <:+: s := by
  refine ⟨not_infix_of_splitScheme, fun hinfix => ?_⟩
  cases h : splitScheme s with
  | none => rfl
  | some cut => exact absurd ⟨_, _, (cut_of_splitScheme h).eq_append.symm⟩ hinfix

/-- The search finds the first separator. -/
theorem splitScheme_eq_some_iff {s scheme rest : List Char} :
    splitScheme s = some (scheme, rest) ↔ Cut s scheme rest := by
  refine ⟨cut_of_splitScheme, fun hcut => ?_⟩
  cases h : splitScheme s with
  | none => exact absurd ⟨_, _, hcut.eq_append.symm⟩ (splitScheme_eq_none_iff.1 h)
  | some found =>
    obtain ⟨hscheme, hrest⟩ := (cut_of_splitScheme h).unique hcut
    rw [← hscheme, ← hrest]

/-- Whether a text is one of some names, in any case of its letters. -/
def Spells (scheme : List Char) (names : List String) : Prop :=
  ∃ name ∈ names, scheme.map Char.toLower = name.toList

theorem any_sameName_iff {scheme : List Char} {names : List String} :
    names.any (sameName scheme) = true ↔ Spells scheme names := by
  simp only [List.any_eq_true, sameName, beq_iff_eq, Spells]

/-! ### The slashes at the end -/

/-- A text and the same text without the slashes at its end. -/
structure Trimmed (s t : List Char) : Prop where
  /-- Only slashes are left out. -/
  eq_append : ∃ n, s = t ++ List.replicate n '/'
  /-- No slash is left at the end. -/
  last : t.getLast? ≠ some '/'

theorem trimmed_trimSlashes (s : List Char) : Trimmed s (trimSlashes s) := by
  have hslashes : ∀ c ∈ s.reverse.takeWhile (· == '/'), c = '/' := fun c hc => by
    simpa using List.mem_takeWhile_imp hc
  constructor
  · refine ⟨(s.reverse.takeWhile (· == '/')).length, ?_⟩
    calc s = (s.reverse.takeWhile (· == '/') ++ s.reverse.dropWhile (· == '/')).reverse := by
          rw [List.takeWhile_append_dropWhile, List.reverse_reverse]
      _ = trimSlashes s ++ (s.reverse.takeWhile (· == '/')).reverse := List.reverse_append
      _ = trimSlashes s ++ List.replicate (s.reverse.takeWhile (· == '/')).length '/' := by
          rw [List.eq_replicate_of_mem hslashes, List.reverse_replicate, List.length_replicate]
  · rw [trimSlashes, List.getLast?_reverse]
    intro hhead
    have := List.head?_dropWhile_not (· == '/') s.reverse
    rw [hhead] at this
    exact absurd this (by decide)

/-- The slashes at the end are left out, and nothing else. -/
theorem trimSlashes_eq_iff {s t : List Char} : trimSlashes s = t ↔ Trimmed s t := by
  constructor
  · rintro rfl
    exact trimmed_trimSlashes s
  · rintro ⟨⟨n, rfl⟩, hlast⟩
    have hslashes : ∀ c ∈ List.replicate n '/', (c == '/') = true := fun c hc => by
      rw [List.eq_of_mem_replicate hc]
      rfl
    rw [trimSlashes, List.reverse_append, List.reverse_replicate,
      List.dropWhile_append_of_pos hslashes]
    rw [← List.head?_reverse] at hlast
    cases h : t.reverse with
    | nil => simpa using h.symm
    | cons c front =>
      rw [h] at hlast
      have hc : (c == '/') = false := by simpa using hlast
      rw [List.dropWhile_cons_of_neg (by simp [hc]), ← h, List.reverse_reverse]

/-! ### The port -/

/-- A text cut at the last colon in it. -/
def HostPort (s host port : List Char) : Prop :=
  s = host ++ ':' :: port ∧ ':' ∉ port

theorem splitPort_of_hostPort {s host port : List Char} (h : HostPort s host port) :
    splitPort s = some (host, port) := by
  obtain ⟨rfl, hport⟩ := h
  have hback : ∀ c ∈ port.reverse, (c != ':') = true := fun c hc => by
    simpa using ne_of_mem_of_not_mem (List.mem_reverse.1 hc) hport
  have hreverse : (host ++ ':' :: port).reverse = port.reverse ++ ':' :: host.reverse := by simp
  have hdrop : (host ++ ':' :: port).reverse.dropWhile (· != ':') = ':' :: host.reverse := by
    rw [hreverse, List.dropWhile_append_of_pos hback]
    rfl
  have htake : (host ++ ':' :: port).reverse.takeWhile (· != ':') = port.reverse := by
    rw [hreverse, List.takeWhile_append_of_pos hback]
    exact List.append_nil _
  simp only [splitPort, hdrop, htake, List.reverse_reverse]

/-- The search finds the last colon. -/
theorem splitPort_eq_some_iff {s host port : List Char} :
    splitPort s = some (host, port) ↔ HostPort s host port := by
  refine ⟨fun h => ?_, splitPort_of_hostPort⟩
  simp only [splitPort] at h
  split at h
  · nomatch h
  · next c front hdrop =>
    obtain ⟨rfl, rfl⟩ := Prod.mk.inj (Option.some.inj h)
    -- The search from the end stops at a colon, and passes none before.
    have hc : c = ':' := by
      have := List.head?_dropWhile_not (· != ':') s.reverse
      rw [hdrop] at this
      simpa using this
    subst hc
    constructor
    · calc s = (s.reverse.takeWhile (· != ':') ++ s.reverse.dropWhile (· != ':')).reverse := by
            rw [List.takeWhile_append_dropWhile, List.reverse_reverse]
        _ = front.reverse ++ ':' :: (s.reverse.takeWhile (· != ':')).reverse := by
            rw [hdrop, List.reverse_append, List.reverse_cons, List.append_assoc]
            rfl
    · intro hmem
      simpa using List.mem_takeWhile_imp (List.mem_reverse.1 hmem)

/-- A text has a port if something stands behind its last colon, and in front of it there is a
closing bracket or no colon at all. -/
theorem hasPort_iff {s : List Char} :
    hasPort s = true ↔ ∃ host port, HostPort s host port ∧ port ≠ [] ∧
      (host.getLast? = some ']' ∨ ':' ∉ host) := by
  cases h : splitPort s with
  | none =>
    refine iff_of_false (by simp [hasPort, h]) ?_
    rintro ⟨host, port, hcut, -⟩
    rw [splitPort_of_hostPort hcut] at h
    nomatch h
  | some cut =>
    obtain ⟨host, port⟩ := cut
    have hcut := splitPort_eq_some_iff.1 h
    have hvalue : hasPort s = true ↔ port ≠ [] ∧ (host.getLast? = some ']' ∨ ':' ∉ host) := by
      simp [hasPort, h]
    rw [hvalue]
    constructor
    · exact fun hport => ⟨host, port, hcut, hport⟩
    · rintro ⟨host', port', hcut', hport⟩
      rw [splitPort_of_hostPort hcut'] at h
      obtain ⟨rfl, rfl⟩ := Prod.mk.inj (Option.some.inj h)
      exact hport

/-- The default port, with the colon in front. -/
def portSuffix : List Char := ':' :: defaultPort.toList

/-- A text with the default port behind it, unless it has a port. -/
def withPort (t : List Char) : List Char :=
  if hasPort t then t else t ++ portSuffix

theorem hostPort_append_portSuffix (t : List Char) :
    HostPort (t ++ portSuffix) t defaultPort.toList :=
  ⟨rfl, by decide⟩

/-- With a port in any case, a text is a host and a port, and its host is empty only if it began
with its last colon. -/
theorem exists_hostPort_withPort {t : List Char} (ht : t ≠ []) :
    ∃ host port, HostPort (withPort t) host port ∧ port ≠ [] ∧
      (host = [] → HostPort t [] port) := by
  unfold withPort
  split
  · next h =>
    obtain ⟨host, port, hcut, hport, -⟩ := hasPort_iff.1 h
    exact ⟨host, port, hcut, hport, fun hhost => hhost ▸ hcut⟩
  · exact ⟨t, _, hostPort_append_portSuffix t, by decide, fun hhost => absurd hhost ht⟩

/-- A word whose last letter does not occur in what is appended stands in the text in front. -/
theorem infix_append_iff (word : List Char) {s u : List Char} {c : Char} (hc : c ∉ u) :
    word ++ [c] <:+: s ++ u ↔ word ++ [c] <:+: s := by
  constructor
  · rintro ⟨front, back, h⟩
    rw [← List.append_assoc] at h
    rcases List.append_eq_append_iff.1 h with ⟨mid, hs, -⟩ | ⟨mid, hs, hu⟩
    · exact ⟨front, mid, by rw [← List.append_assoc, ← hs]⟩
    · -- The word ends in what is appended, unless it ends right in front of it.
      cases mid using List.reverseRecOn with
      | nil => exact ⟨front, [], by simpa using hs⟩
      | append_singleton mid d =>
        rw [← List.append_assoc] at hs
        obtain rfl : c = d := by simpa using congrArg List.getLast? hs
        exact absurd (by simp [hu]) hc
  · exact fun h => h.trans (List.prefix_append s u).isInfix

/-- The default port brings no separator with it. -/
theorem separator_infix_withPort_iff {t : List Char} :
    separator <:+: withPort t ↔ separator <:+: t := by
  unfold withPort
  split
  · rfl
  · exact infix_append_iff [':', '/'] (by decide)

theorem getLast?_withPort_ne {t : List Char} (h : t.getLast? ≠ some '/') :
    (withPort t).getLast? ≠ some '/' := by
  unfold withPort
  split
  · exact h
  · have hlast : portSuffix.getLast? = some '3' := by decide
    rw [List.getLast?_append, hlast, Option.some_or]
    decide

/-! ### The answer -/

/-- What is left of an address without the transport in front and the slashes at the end. -/
inductive Stripped (addr : String) (t : List Char) : Prop
  /-- No transport is named. -/
  | plain : ¬separator <:+: addr.toList → Trimmed addr.toList t → Stripped addr t
  /-- The transport is one that is spoken. -/
  | named {scheme rest : List Char} :
    Cut addr.toList scheme rest → Spells scheme spoken → Trimmed rest t → Stripped addr t

instance {scheme : List Char} {names : List String} : Decidable (Spells scheme names) :=
  decidable_of_iff _ any_sameName_iff

theorem stripScheme_of_not_infix {addr : String} (h : ¬separator <:+: addr.toList) :
    stripScheme addr = .ok addr.toList := by
  rw [stripScheme, splitScheme_eq_none_iff.2 h]

theorem stripScheme_of_cut {addr : String} {scheme rest : List Char}
    (h : Cut addr.toList scheme rest) :
    stripScheme addr =
      if Spells scheme spoken then .ok rest
      else if Spells scheme refused then .error (.unsupportedScheme (String.ofList scheme))
      else .error (.unknownScheme addr) := by
  simp only [stripScheme, splitScheme_eq_some_iff.2 h, any_sameName_iff]

/-- No name is both spoken and refused. -/
theorem not_spells_spoken_of_refused {scheme : List Char} (h : Spells scheme refused) :
    ¬Spells scheme spoken := by
  rintro ⟨name', hname', heq'⟩
  obtain ⟨name, hname, heq⟩ := h
  have hsame : name' = name := String.toList_inj.1 (heq'.symm.trans heq)
  have hdisjoint : ∀ name ∈ refused, name ∉ spoken := by decide
  exact hdisjoint name hname (hsame ▸ hname')

/-- A text that is left is accepted unless it is empty. -/
theorem resolve_of_stripped {addr : String} {t : List Char} (h : Stripped addr t) :
    resolve addr =
      if t = [] then .error (.missingHost addr) else .ok (String.ofList (withPort t)) := by
  have hstrip : ∃ s, stripScheme addr = .ok s ∧ trimSlashes s = t := by
    cases h with
    | plain hplain htrim =>
      exact ⟨_, stripScheme_of_not_infix hplain, trimSlashes_eq_iff.2 htrim⟩
    | named hcut hspoken htrim =>
      exact ⟨_, (stripScheme_of_cut hcut).trans (if_pos hspoken), trimSlashes_eq_iff.2 htrim⟩
  obtain ⟨s, hs, rfl⟩ := hstrip
  rw [resolve, hs]
  show (if (trimSlashes s).isEmpty then _ else _) = _
  simp only [List.isEmpty_iff]
  refine if_congr Iff.rfl rfl ?_
  unfold withPort
  split
  · rfl
  · exact congrArg Except.ok (by simp [portSuffix, String.ext_iff])

/-- A transport that is known and not spoken is named in the refusal, as it was written. -/
theorem resolve_of_refused {addr : String} {scheme rest : List Char}
    (h : Cut addr.toList scheme rest) (hrefused : Spells scheme refused) :
    resolve addr = .error (.unsupportedScheme (String.ofList scheme)) := by
  have hstrip : stripScheme addr = .error (.unsupportedScheme (String.ofList scheme)) := by
    rw [stripScheme_of_cut h, if_neg (not_spells_spoken_of_refused hrefused), if_pos hrefused]
  rw [resolve, hstrip]
  rfl

theorem resolve_of_unknown {addr : String} {scheme rest : List Char}
    (h : Cut addr.toList scheme rest) (hspoken : ¬Spells scheme spoken)
    (hrefused : ¬Spells scheme refused) : resolve addr = .error (.unknownScheme addr) := by
  have hstrip : stripScheme addr = .error (.unknownScheme addr) := by
    rw [stripScheme_of_cut h, if_neg hspoken, if_neg hrefused]
  rw [resolve, hstrip]
  rfl

/-- An address has a text, or it names a transport that is not spoken. -/
theorem stripped_or_cut (addr : String) :
    (∃ t, Stripped addr t) ∨ ∃ scheme rest, Cut addr.toList scheme rest ∧
      ¬Spells scheme spoken := by
  cases h : splitScheme addr.toList with
  | none => exact .inl ⟨_, .plain (splitScheme_eq_none_iff.1 h) (trimmed_trimSlashes _)⟩
  | some cut =>
    have hcut := cut_of_splitScheme h
    by_cases hspoken : Spells cut.1 spoken
    · exact .inl ⟨_, .named hcut hspoken (trimmed_trimSlashes _)⟩
    · exact .inr ⟨_, _, hcut, hspoken⟩

/-- An address is accepted exactly if its text is not empty, and the answer is that text, with a
port. -/
theorem resolve_eq_ok_iff {addr r : String} :
    resolve addr = .ok r ↔ ∃ t, Stripped addr t ∧ t ≠ [] ∧ r.toList = withPort t := by
  constructor
  · intro h
    rcases stripped_or_cut addr with ⟨t, ht⟩ | ⟨scheme, rest, hcut, hspoken⟩
    · rw [resolve_of_stripped ht] at h
      split at h
      · nomatch h
      · next hne =>
        cases h
        exact ⟨t, ht, hne, String.toList_ofList⟩
    · by_cases hrefused : Spells scheme refused
      · rw [resolve_of_refused hcut hrefused] at h
        nomatch h
      · rw [resolve_of_unknown hcut hspoken hrefused] at h
        nomatch h
  · rintro ⟨t, ht, hne, hr⟩
    rw [resolve_of_stripped ht, if_neg hne, ← hr, String.ofList_toList]

theorem Stripped.getLast?_ne {addr : String} {t : List Char} (h : Stripped addr t) :
    t.getLast? ≠ some '/' := by
  cases h with
  | plain _ htrim => exact htrim.last
  | named _ _ htrim => exact htrim.last

/-! ### What holds of every address -/

/-- What can be said of the answer whatever the address is. -/
structure Resolved (addr : String) : Prop where
  /-- An answer is a host and a port that is not empty. -/
  port : ∀ r, resolve addr = .ok r → ∃ host port, HostPort r.toList host port ∧ port ≠ []
  /-- An answer does not end in a slash. -/
  last : ∀ r, resolve addr = .ok r → r.toList.getLast? ≠ some '/'
  /-- An answer is the text of the address, or that text and the default port. -/
  text : ∀ r, resolve addr = .ok r →
    ∃ t, Stripped addr t ∧ (r.toList = t ∨ r.toList = t ++ portSuffix)
  /-- A transport that is known and not spoken is refused as unsupported. -/
  refused : ∀ scheme rest, Cut addr.toList scheme rest → Spells scheme refused →
    ∃ f, resolve addr = .error f ∧ f.kind = .unsupported
  /-- Any other transport is refused as a mistake in the address. -/
  unknown : ∀ scheme rest, Cut addr.toList scheme rest → ¬Spells scheme spoken →
    ¬Spells scheme Address.refused → ∃ f, resolve addr = .error f ∧ f.kind = .invalidConfig
  /-- So is an address without a text. -/
  empty : Stripped addr [] → ∃ f, resolve addr = .error f ∧ f.kind = .invalidConfig

/-- What one expects of the answer: no answer lacks a host or names a transport, and an address
whose text begins with its last colon is refused like one without a text. -/
structure Proper (addr : String) : Prop extends Resolved addr where
  /-- The host of an answer is not empty. -/
  host : ∀ r host port, resolve addr = .ok r → HostPort r.toList host port → host ≠ []
  /-- No answer holds a separator. -/
  plain : ∀ r, resolve addr = .ok r → ¬separator <:+: r.toList
  /-- An address with a port and no host in front of it is refused as a mistake. -/
  hostless : ∀ t port, Stripped addr t → HostPort t [] port →
    ∃ f, resolve addr = .error f ∧ f.kind = .invalidConfig

theorem resolved (addr : String) : Resolved addr where
  port r h := by
    obtain ⟨t, -, hne, hr⟩ := resolve_eq_ok_iff.1 h
    obtain ⟨host, port, hcut, hport, -⟩ := exists_hostPort_withPort hne
    exact ⟨host, port, hr ▸ hcut, hport⟩
  last r h := by
    obtain ⟨t, ht, -, hr⟩ := resolve_eq_ok_iff.1 h
    exact hr ▸ getLast?_withPort_ne ht.getLast?_ne
  text r h := by
    obtain ⟨t, ht, -, hr⟩ := resolve_eq_ok_iff.1 h
    refine ⟨t, ht, ?_⟩
    unfold withPort at hr
    split at hr
    · exact .inl hr
    · exact .inr hr
  refused _ _ hcut hrefused := ⟨_, resolve_of_refused hcut hrefused, rfl⟩
  unknown _ _ hcut hspoken hrefused := ⟨_, resolve_of_unknown hcut hspoken hrefused, rfl⟩
  empty h := ⟨_, (resolve_of_stripped h).trans (if_pos rfl), rfl⟩

/-- The answer is what one expects exactly if the text of the address does not begin with its last
colon and names no second transport. Whatever the address is, the rest of it holds. -/
theorem resolved_and_proper_iff (addr : String) :
    Resolved addr ∧ (Proper addr ↔
      ∀ t, Stripped addr t → (¬∃ port, HostPort t [] port) ∧ ¬separator <:+: t) := by
  refine ⟨resolved addr, fun h t ht => ?_, fun h =>
    { toResolved := resolved addr, host := ?_, plain := ?_, hostless := ?_ }⟩
  · -- Such a text is not empty, so it is accepted.
    have haccepted (hne : t ≠ []) : resolve addr = .ok (String.ofList (withPort t)) :=
      (resolve_of_stripped ht).trans (if_neg hne)
    constructor
    · rintro ⟨port, hcut⟩
      have hne : t ≠ [] := by
        rw [hcut.1]
        exact List.cons_ne_nil _ _
      obtain ⟨f, hf, -⟩ := h.hostless t port ht hcut
      rw [haccepted hne] at hf
      nomatch hf
    · intro hinfix
      have hne : t ≠ [] := by
        rintro rfl
        exact absurd (List.infix_nil.1 hinfix) (by decide)
      refine h.plain _ (haccepted hne) ?_
      rw [String.toList_ofList]
      exact separator_infix_withPort_iff.2 hinfix
  · intro r host port hr hcut
    obtain ⟨t, ht, hne, heq⟩ := resolve_eq_ok_iff.1 hr
    obtain ⟨host', port', hcut', -, hhost⟩ := exists_hostPort_withPort hne
    rw [heq] at hcut
    obtain ⟨rfl, -⟩ := Prod.mk.inj <| Option.some.inj <|
      (splitPort_of_hostPort hcut).symm.trans (splitPort_of_hostPort hcut')
    exact fun hnil => (h t ht).1 ⟨port', hhost hnil⟩
  · intro r hr
    obtain ⟨t, ht, -, heq⟩ := resolve_eq_ok_iff.1 hr
    rw [heq, separator_infix_withPort_iff]
    exact (h t ht).2
  · exact fun t port ht hcut => absurd ⟨port, hcut⟩ (h t ht).1

/-- A port alone is taken for a host and a port, and a second transport for a host. -/
theorem resolve_port_alone :
    (resolve ":1883" = .ok ":1883" ∧ ¬Proper ":1883") ∧
      (resolve "tcp://a://b" = .ok "a://b" ∧ ¬Proper "tcp://a://b") := by
  have hport : Stripped ":1883" ":1883".toList :=
    .plain (splitScheme_eq_none_iff.1 (by decide)) (trimSlashes_eq_iff.1 (by decide))
  have hcut : Cut "tcp://a://b".toList "tcp".toList "a://b".toList :=
    cut_of_splitScheme (by decide)
  have hname : Stripped "tcp://a://b" "a://b".toList :=
    .named hcut (by decide) (trimSlashes_eq_iff.1 (by decide))
  refine ⟨⟨by decide, fun h => ?_⟩, by decide, fun h => ?_⟩
  · have hhostless : HostPort ":1883".toList [] "1883".toList := ⟨rfl, by decide⟩
    exact ((resolved_and_proper_iff ":1883").2.1 h _ hport).1 ⟨_, hhostless⟩
  · have hinfix : separator <:+: "a://b".toList := ⟨['a'], ['b'], by decide⟩
    exact ((resolved_and_proper_iff "tcp://a://b").2.1 h _ hname).2 hinfix

end Address
end Mqtt
