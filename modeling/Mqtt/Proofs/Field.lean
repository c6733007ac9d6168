import Mathlib.Data.List.Basic
import Mathlib.Tactic.ByContra
import Mathlib.Tactic.SplitIfs
import Mqtt.Field
/-!
# What encoders append and decoders take

An encoder is described by `Encoder.Writes`: under a condition it appends certain bytes to any
writer and succeeds; otherwise it fails on every writer, and what was committed before stays in
front. A decoder is described by `Decoder.Reads`: in front of any rest it takes certain bytes, and
leaves the rest. Both kinds of facts compose along `>>=` (`Writes.bind`, `Reads.bind`), so the
description of a packet is put together from those of its fields.

`binary_writes` and `binary_reads` are the two halves of a field behind its length; the other
fields are built alike. The other way round, what a decoder answers tells the bytes that it has
taken (`binary_eq_ok`), and a run of several decoders is one run after the other (`bind_eq_ok`).
-/

namespace Mqtt

/-- A byte string behind its two-byte length. -/
def Bytes.field (bs : Bytes) : Bytes := Bytes.ofUInt16 (UInt16.ofNat bs.length) ++ bs

/-- The longest byte string that a two-byte length can announce. -/
def Bytes.fieldLimit : Nat := 65535

/-- A length within the limit is the 16-bit number that announces it. -/
theorem Bytes.toNat_ofNat_length {bs : Bytes} (h : bs.length ≤ fieldLimit) :
    (UInt16.ofNat bs.length).toNat = bs.length := by
  rw [UInt16.toNat_ofNat', Nat.mod_eq_of_lt]
  rw [fieldLimit] at h
  omega

theorem Bytes.field_ne_nil (bs : Bytes) : bs.field ≠ [] := by
  simp [field, ofUInt16]

/-! ### Encoders -/

namespace Encoder

variable {α β γ : Type}

/-- The encoder appends these bytes to any writer, with this answer. -/
def Appends (e : Encoder α) (bs : Bytes) (a : α) : Prop :=
  ∀ w : Writer, ∃ w', e.run w = .ok a w' ∧ w'.written = w.written ++ bs

/-- The encoder fails on any writer; what was committed before stays in front. -/
def Fails (e : Encoder α) : Prop :=
  ∀ w : Writer, ∃ f w' more, e.run w = .error f w' ∧ w'.written = w.written ++ more

/-- If the condition holds the encoder appends these bytes, with this answer; otherwise it fails. -/
structure Writes (e : Encoder α) (condition : Prop) (bs : Bytes) (a : α) : Prop where
  appends : condition → e.Appends bs a
  fails : ¬condition → e.Fails

theorem Appends.bind {e : Encoder α} {k : α → Encoder β} {bs bs' : Bytes} {a : α} {b : β}
    (he : e.Appends bs a) (hk : (k a).Appends bs' b) : (e >>= k).Appends (bs ++ bs') b := by
  intro w
  obtain ⟨w₁, h₁, hw₁⟩ := he w
  obtain ⟨w₂, h₂, hw₂⟩ := hk w₁
  refine ⟨w₂, ?_, ?_⟩
  · rw [EStateM.run_bind, h₁]
    exact h₂
  · rw [hw₂, hw₁, List.append_assoc]

theorem Fails.bind {e : Encoder α} (he : e.Fails) (k : α → Encoder β) : (e >>= k).Fails := by
  intro w
  obtain ⟨f, w', more, h, hw⟩ := he w
  exact ⟨f, w', more, by rw [EStateM.run_bind, h], hw⟩

theorem Appends.bind_fails {e : Encoder α} {k : α → Encoder β} {bs : Bytes} {a : α}
    (he : e.Appends bs a) (hk : (k a).Fails) : (e >>= k).Fails := by
  intro w
  obtain ⟨w₁, h₁, hw₁⟩ := he w
  obtain ⟨f, w₂, more, h₂, hw₂⟩ := hk w₁
  refine ⟨f, w₂, bs ++ more, ?_, ?_⟩
  · rw [EStateM.run_bind, h₁]
    exact h₂
  · rw [hw₂, hw₁, List.append_assoc]

/-- One encoder after the other: both conditions have to hold. -/
theorem Writes.bind {e : Encoder α} {k : α → Encoder β} {p q : Prop} {bs bs' : Bytes} {a : α}
    {b : β} (he : e.Writes p bs a) (hk : (k a).Writes q bs' b) :
    (e >>= k).Writes (p ∧ q) (bs ++ bs') b where
  appends h := (he.appends h.1).bind (hk.appends h.2)
  fails h := by
    by_cases hp : p
    · exact (he.appends hp).bind_fails (hk.fails fun hq => h ⟨hp, hq⟩)
    · exact (he.fails hp).bind k

/-- The same with the condition, the bytes and the answer in another form. -/
theorem Writes.congr {e : Encoder α} {p q : Prop} {bs bs' : Bytes} {a : α}
    (he : e.Writes p bs a) (hp : p ↔ q) (hbs : bs = bs') : e.Writes q bs' a := by
  subst hbs
  exact ⟨fun h => he.appends (hp.2 h), fun h => he.fails fun h' => h (hp.1 h')⟩

theorem pure_writes (a : α) : (pure a : Encoder α).Writes True [] a where
  appends _ w := ⟨w, rfl, by rw [List.append_nil]⟩
  fails h := absurd trivial h

theorem bytes_writes (bs : Bytes) : (bytes bs).Writes True bs () where
  appends _ w := ⟨w.put bs, rfl, w.written_put bs⟩
  fails h := absurd trivial h

theorem byte_writes (b : UInt8) : (byte b).Writes True [b] () := bytes_writes [b]

theorem uint16_writes (n : UInt16) : (uint16 n).Writes True (Bytes.ofUInt16 n) () :=
  bytes_writes _

theorem throw_fails (f : Fault) : (throw f : Encoder α).Fails := fun w =>
  ⟨f, w, [], rfl, by rw [List.append_nil]⟩

/-- A check in front of an encoder: what is refused must not hold. -/
theorem check_writes {c : Prop} [Decidable c] (f : Fault) {k : Unit → Encoder β} {q : Prop}
    {bs : Bytes} {b : β} (hk : (k ()).Writes q bs b) :
    (if c then throw f >>= k else k () : Encoder β).Writes (¬c ∧ q) bs b where
  appends h := by
    rw [if_neg h.1]
    exact hk.appends h.2
  fails h := by
    by_cases hc : c
    · rw [if_pos hc]
      exact (throw_fails f).bind k
    · rw [if_neg hc]
      exact hk.fails fun hq => h ⟨hc, hq⟩

theorem binary_writes (bs : Bytes) :
    (binary bs).Writes (bs.length ≤ Bytes.fieldLimit) bs.field () := by
  unfold binary
  refine Writes.congr (check_writes _ ((uint16_writes _).bind (bytes_writes bs))) ?_ rfl
  rw [and_true, and_true, Nat.not_lt]
  rfl

theorem text_writes (s : String) :
    (text s).Writes (s.utf8ByteSize ≤ Bytes.fieldLimit) (Bytes.ofText s).field () :=
  binary_writes (Bytes.ofText s)

/-- One after the other for each item of a list. -/
theorem forM_writes {f : α → Encoder Unit} {p : α → Prop} {g : α → Bytes}
    (h : ∀ a, (f a).Writes (p a) (g a) ()) (l : List α) :
    (l.forM f).Writes (∀ a ∈ l, p a) (l.flatMap g) () := by
  induction l with
  | nil => exact (pure_writes ()).congr (by simp) rfl
  | cons a l ih =>
    have := (h a).bind (k := fun _ => l.forM f) ih
    exact this.congr (by simp) (by rw [List.flatMap_cons])

end Encoder

/-! ### Decoders -/

namespace Decoder

variable {α β : Type}

/-- In front of any rest, the decoder takes these bytes, with this answer. -/
def Reads (d : Decoder α) (bs : Bytes) (a : α) : Prop :=
  ∀ rest : Bytes, d.run (bs ++ rest) = .ok a rest

/-- The decoder takes the whole of these bytes, with this answer. -/
def ReadsAll (d : Decoder α) (bs : Bytes) (a : α) : Prop := d.run bs = .ok a []

theorem Reads.bind {d : Decoder α} {k : α → Decoder β} {s t : Bytes} {a : α} {b : β}
    (hd : d.Reads s a) (hk : (k a).Reads t b) : (d >>= k).Reads (s ++ t) b := by
  intro rest
  rw [List.append_assoc, EStateM.run_bind, hd]
  exact hk rest

theorem Reads.bind_all {d : Decoder α} {k : α → Decoder β} {bs bs' : Bytes} {a : α} {b : β}
    (hd : d.Reads bs a) (hk : (k a).ReadsAll bs' b) : (d >>= k).ReadsAll (bs ++ bs') b := by
  show (d >>= k).run (bs ++ bs') = _
  rw [EStateM.run_bind, hd]
  exact hk

theorem Reads.map {d : Decoder α} {bs : Bytes} {a : α} (hd : d.Reads bs a) (f : α → β) :
    (f <$> d).Reads bs (f a) := by
  intro rest
  have h := hd rest
  rw [EStateM.run] at h
  show EStateM.map f d (bs ++ rest) = _
  rw [EStateM.map, h]

theorem Reads.all {d : Decoder α} {bs : Bytes} {a : α} (hd : d.Reads bs a) : d.ReadsAll bs a := by
  have := hd []
  rwa [List.append_nil] at this

theorem ReadsAll.decode {d : Decoder α} {bs : Bytes} {a : α} (hd : d.ReadsAll bs a) :
    d.decode bs = .ok a := by
  rw [Decoder.decode, hd]

theorem pure_reads (a : α) : (pure a : Decoder α).Reads [] a := fun _ => rfl

/-- A check that lets the decoder go on. -/
theorem check_reads {c : Prop} [Decidable c] (hc : ¬c) (v : Violation) {k : Unit → Decoder β}
    {bs : Bytes} {b : β} (hk : (k ()).Reads bs b) :
    (if c then violated v >>= k else k () : Decoder β).Reads bs b := by
  rw [if_neg hc]
  exact hk

theorem ofExcept_reads {r : Except Fault α} {a : α} (h : r = .ok a) :
    (ofExcept r : Decoder α).Reads [] a := by
  rw [h]
  exact pure_reads a

theorem take_reads (bs : Bytes) : (take bs.length).Reads bs bs := by
  intro rest
  have h : Bytes.hasAtLeast bs.length (bs ++ rest) = true := by
    rw [Bytes.hasAtLeast_eq, decide_eq_true_eq, List.length_append]
    omega
  simp only [take, EStateM.run_bind, EStateM.run_get, h, if_true, EStateM.run_set,
    EStateM.run_pure, List.take_left', List.drop_left']

theorem byte_reads (b : UInt8) : byte.Reads [b] b := by
  exact (take_reads [b]).bind (k := fun bs => pure (bs.headD 0)) (pure_reads b)

theorem uint16_reads (n : UInt16) : uint16.Reads (Bytes.ofUInt16 n) n := by
  intro rest
  have h := take_reads (Bytes.ofUInt16 n) rest
  rw [Bytes.length_ofUInt16] at h
  rw [uint16, EStateM.run_bind, h]
  simp only [Bytes.ofUInt16, EStateM.run_pure, Bytes.toUInt16_ofUInt16]

theorem binary_reads {bs : Bytes} (h : bs.length ≤ Bytes.fieldLimit) :
    binary.Reads bs.field bs := by
  refine (uint16_reads (UInt16.ofNat bs.length)).bind ?_
  rw [Bytes.toNat_ofNat_length h]
  exact take_reads bs

theorem text_reads {s : String} (h : s.utf8ByteSize ≤ Bytes.fieldLimit) :
    text.Reads (Bytes.ofText s).field s := by
  intro rest
  rw [text, EStateM.run_bind, binary_reads (show (Bytes.ofText s).length ≤ _ from h)]
  simp only [Bytes.toText?_ofText, EStateM.run_pure]

/-- Items one after the other, up to the end of the body. -/
theorem untilEmpty_readsAll {item : Decoder α} {g : α → Bytes} {l : List α}
    (h : ∀ a ∈ l, item.Reads (g a) a ∧ g a ≠ []) {fuel : Nat} (hfuel : l.length ≤ fuel)
    (taken : List α) :
    (untilEmpty item fuel taken).ReadsAll (l.flatMap g) (taken.reverse ++ l) := by
  induction l generalizing fuel taken with
  | nil =>
    rw [List.append_nil]
    cases fuel <;> rfl
  | cons a l ih =>
    obtain ⟨fuel, rfl⟩ : ∃ n, fuel = n + 1 :=
      Nat.exists_eq_succ_of_ne_zero (by rw [List.length_cons] at hfuel; omega)
    obtain ⟨hread, hne⟩ := h a List.mem_cons_self
    have hbody : ((a :: l).flatMap g).isEmpty = false := by
      simp [List.flatMap_cons, hne]
    show (untilEmpty item (fuel + 1) taken).run _ = _
    simp only [untilEmpty, EStateM.run_bind, EStateM.run_get, hbody, Bool.false_eq_true, if_false]
    have := hread.bind_all (k := fun a => untilEmpty item fuel (a :: taken))
      (ih (fun x hx => h x (List.mem_cons_of_mem _ hx))
        (by rw [List.length_cons] at hfuel; omega) (a :: taken))
    rw [List.reverse_cons, List.append_assoc, List.singleton_append] at this
    exact this

theorem all_readsAll {item : Decoder α} {g : α → Bytes} {l : List α}
    (h : ∀ a ∈ l, item.Reads (g a) a ∧ g a ≠ []) : (all item).ReadsAll (l.flatMap g) l := by
  have hlen : l.length ≤ (l.flatMap g).length := by
    induction l with
    | nil => simp
    | cons a l ih =>
      have hpos := List.length_pos_iff.2 (h a List.mem_cons_self).2
      have := ih fun x hx => h x (List.mem_cons_of_mem _ hx)
      rw [List.flatMap_cons, List.length_append, List.length_cons]
      omega
  exact untilEmpty_readsAll h hlen []

/-! ### What a decoder has taken

Read backwards, an answer tells the bytes that were taken for it. -/

section Taken

variable {α β : Type} {a : α} {b : β} {body left : Bytes}

theorem bind_eq_ok {d : Decoder α} {k : α → Decoder β} (h : (d >>= k).run body = .ok b left) :
    ∃ a mid, d.run body = .ok a mid ∧ (k a).run mid = .ok b left := by
  rw [EStateM.run_bind] at h
  rcases hd : d.run body with ⟨a, mid⟩ | ⟨e, mid⟩
  · rw [hd] at h
    exact ⟨a, mid, rfl, h⟩
  · rw [hd] at h
    cases h

theorem map_eq_ok {d : Decoder α} {f : α → β} (h : (f <$> d).run body = .ok b left) :
    ∃ a, d.run body = .ok a left ∧ b = f a := by
  change EStateM.map f d body = _ at h
  rw [EStateM.map] at h
  rw [EStateM.run]
  rcases hd : d body with ⟨a, mid⟩ | ⟨e, mid⟩
  · rw [hd] at h
    cases h
    exact ⟨a, rfl, rfl⟩
  · rw [hd] at h
    cases h

theorem pure_eq_ok {a' : α} (h : (pure a' : Decoder α).run body = .ok a left) :
    a = a' ∧ left = body := by
  cases h
  exact ⟨rfl, rfl⟩

theorem ofExcept_eq_ok {r : Except Fault α} (h : (ofExcept r : Decoder α).run body = .ok a left) :
    r = .ok a ∧ left = body := by
  cases r with
  | error e => cases h
  | ok x =>
    cases h
    exact ⟨rfl, rfl⟩

/-- A check has let the decoder go on. -/
theorem check_eq_ok {c : Prop} [Decidable c] {v : Violation} {k : Unit → Decoder β}
    (h : (if c then violated v >>= k else k () : Decoder β).run body = .ok b left) :
    ¬c ∧ (k ()).run body = .ok b left := by
  split_ifs at h with hc
  · cases h
  · exact ⟨hc, h⟩

theorem take_eq_ok {n : Nat} {bs : Bytes} (h : (take n).run body = .ok bs left) :
    body = bs ++ left ∧ bs.length = n := by
  simp only [take, EStateM.run_bind, EStateM.run_get, Bytes.hasAtLeast_eq, decide_eq_true_eq] at h
  split_ifs at h with hn
  · simp only [EStateM.run_bind, EStateM.run_set, EStateM.run_pure, EStateM.Result.ok.injEq] at h
    obtain ⟨rfl, rfl⟩ := h
    exact ⟨(List.take_append_drop n body).symm, List.length_take_of_le hn⟩
  · cases h

theorem byte_eq_ok {b : UInt8} (h : byte.run body = .ok b left) : body = b :: left := by
  obtain ⟨bs, mid, htake, hpure⟩ := bind_eq_ok h
  obtain ⟨rfl, hlength⟩ := take_eq_ok htake
  obtain ⟨x, rfl⟩ := List.length_eq_one_iff.1 hlength
  obtain ⟨rfl, rfl⟩ := pure_eq_ok hpure
  rfl

theorem uint16_eq_ok {n : UInt16} (h : uint16.run body = .ok n left) :
    body = Bytes.ofUInt16 n ++ left := by
  obtain ⟨bs, mid, htake, hpure⟩ := bind_eq_ok h
  obtain ⟨rfl, hlength⟩ := take_eq_ok htake
  obtain ⟨hi, lo, rfl⟩ := List.length_eq_two.1 hlength
  obtain ⟨rfl, rfl⟩ := pure_eq_ok hpure
  rw [Bytes.ofUInt16_toUInt16]

theorem binary_eq_ok {bs : Bytes} (h : binary.run body = .ok bs left) :
    body = bs.field ++ left ∧ bs.length ≤ Bytes.fieldLimit := by
  obtain ⟨n, mid, hn, htake⟩ := bind_eq_ok h
  obtain rfl := uint16_eq_ok hn
  obtain ⟨rfl, hlength⟩ := take_eq_ok htake
  have hlt := n.toNat_lt
  refine ⟨?_, by rw [hlength, Bytes.fieldLimit]; omega⟩
  rw [Bytes.field, hlength, UInt16.ofNat_toNat, List.append_assoc]

theorem text_eq_ok {s : String} (h : text.run body = .ok s left) :
    body = (Bytes.ofText s).field ++ left ∧ (Bytes.ofText s).length ≤ Bytes.fieldLimit := by
  obtain ⟨bs, mid, hbinary, htext⟩ := bind_eq_ok h
  rcases hs : Bytes.toText? bs with _ | s'
  · rw [hs] at htext
    cases htext
  · rw [hs] at htext
    obtain ⟨rfl, rfl⟩ := pure_eq_ok htext
    rw [Bytes.ofText_of_toText? hs]
    exact binary_eq_ok hbinary

theorem rest_eq_ok {bs : Bytes} (h : rest.run body = .ok bs left) : body = bs ∧ left = [] := by
  cases h
  exact ⟨rfl, rfl⟩

/-- Items that were taken one after the other, up to the end of the body. -/
theorem untilEmpty_eq_ok {item : Decoder α} {g : α → Bytes} {p : α → Prop}
    (hitem : ∀ {body a left}, item.run body = .ok a left →
      body = g a ++ left ∧ g a ≠ [] ∧ p a)
    {fuel : Nat} (hfuel : body.length ≤ fuel) {taken l : List α}
    (h : (untilEmpty item fuel taken).run body = .ok l left) :
    ∃ l', l = taken.reverse ++ l' ∧ body = l'.flatMap g ∧ left = [] ∧ ∀ a ∈ l', p a := by
  induction fuel generalizing body taken with
  | zero =>
    obtain rfl : body = [] := List.length_eq_zero_iff.1 (by omega)
    obtain ⟨rfl, rfl⟩ := pure_eq_ok h
    exact ⟨[], (List.append_nil _).symm, rfl, rfl, by simp⟩
  | succ fuel ih =>
    rw [untilEmpty, EStateM.run_bind, EStateM.run_get] at h
    dsimp only at h
    split_ifs at h with hempty
    · obtain rfl : body = [] := List.isEmpty_iff.1 hempty
      obtain ⟨rfl, rfl⟩ := pure_eq_ok h
      exact ⟨[], (List.append_nil _).symm, rfl, rfl, by simp⟩
    · obtain ⟨a, mid, ha, hmore⟩ := bind_eq_ok h
      obtain ⟨rfl, hne, hp⟩ := hitem ha
      -- Every item takes at least a byte, so the fuel lasts for the rest.
      have hpos := List.length_pos_iff.2 hne
      rw [List.length_append] at hfuel
      obtain ⟨l', rfl, rfl, rfl, hl'⟩ := ih (by omega) hmore
      refine ⟨a :: l', ?_, rfl, rfl, List.forall_mem_cons.2 ⟨hp, hl'⟩⟩
      rw [List.reverse_cons, List.append_assoc, List.singleton_append]

theorem all_eq_ok {item : Decoder α} {g : α → Bytes} {p : α → Prop}
    (hitem : ∀ {body a left}, item.run body = .ok a left →
      body = g a ++ left ∧ g a ≠ [] ∧ p a)
    {l : List α} (h : (all item).run body = .ok l left) :
    body = l.flatMap g ∧ left = [] ∧ ∀ a ∈ l, p a := by
  obtain ⟨l', rfl, hbody, hleft, hl'⟩ := untilEmpty_eq_ok hitem (Nat.le_refl _) h
  exact ⟨hbody, hleft, hl'⟩

theorem decode_eq_ok {d : Decoder α} (h : d.decode body = .ok a) :
    ∃ left, d.run body = .ok a left := by
  rw [Decoder.decode] at h
  rcases hd : d.run body with ⟨x, left⟩ | ⟨e, left⟩
  · rw [hd] at h
    cases h
    exact ⟨left, rfl⟩
  · rw [hd] at h
    cases h

end Taken

end Decoder
end Mqtt
