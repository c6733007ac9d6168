import Mathlib.Data.List.Basic
import Mqtt.Writer
/-!
# A writer is a list that grows at its end

The committed bytes of a writer and its scratch space share one storage, and the border between them
moves: a commit moves it up, a truncation and a reset move it down, and bytes that were committed
once are scratch space again, with what they hold. So what a commit adds depends on everything that
was ever written.

An account of the same calls has no border and no storage. It keeps the bytes that were appended, a
tape that holds at every place what was written there last and zero where nothing was, and a number
for the capacity. A growth copies nothing in it: it only raises the number. A writer `Shows` an
account if its storage is the front of the tape. Each call keeps that
(`WriterCall.onWriter_eq_onAccount`), so after any calls the two agree in all that can be seen of
them (`WriterCall.play_writer_refines_account`).

A claim asks for a number, and the size that it reckons with may wrap around. No storage is as large
as half of what a word stands for, so a claim that is met at all is met in full exactly if the sum
of the committed bytes and the number is a word.
-/

namespace Mqtt

/-! ### The account -/

/-- What is kept of the calls on a writer. -/
structure Account where
  /-- The bytes that were appended. -/
  bytes : Bytes
  /-- What was written last at each place, and zero where nothing was. -/
  tape : Nat → UInt8
  /-- How much of the tape is in use. -/
  capacity : Nat

namespace Account

/-- The account before any call. -/
def new : Account := ⟨[], fun _ => 0, 0⟩

/-- A tape with `bs` written over it from `start` on. -/
def overwrite (tape : Nat → UInt8) (start : Nat) (bs : Bytes) (i : Nat) : UInt8 :=
  if i < start then tape i else bs[i - start]?.getD (tape i)

variable (a : Account)

/-- The part of the tape that is in use. -/
def front : Bytes := (List.range a.capacity).map a.tape

/-- What is in use behind the bytes that were appended. -/
def span : Bytes := a.front.drop a.bytes.length

/-- The account with another capacity, if that is larger. -/
def grow (capacity : Nat) : Account := { a with capacity := max a.capacity capacity }

/-- The account with room for `n` more bytes. What is in use at least doubles when it grows. -/
def makeRoom (n : Nat) : Account :=
  if n ≤ a.capacity - a.bytes.length then a
  else a.grow (max (max (a.bytes.length + n) (2 * a.capacity)) Writer.minCapacity)

/-- The capacity that is reckoned with when `n` bytes are claimed. -/
def claimedCapacity (n : Nat) : Nat :=
  if n ≤ a.capacity - a.bytes.length then a.capacity
  else max (max ((a.bytes.length + n) % Writer.wordRange) (2 * a.capacity % Writer.wordRange))
    Writer.minCapacity

/-- The account once `n` bytes were claimed. -/
def claim (n : Nat) : Account := a.grow (a.claimedCapacity n)

/-- Writes `bs` at place `i` of the span. What does not fit is not written at all. -/
def write (i : Nat) (bs : Bytes) : Account :=
  if a.bytes.length + i + bs.length ≤ a.capacity then
    { a with tape := overwrite a.tape (a.bytes.length + i) bs }
  else a

/-- Makes room for `bs`, writes it there and appends it. -/
def put (bs : Bytes) : Account :=
  { (a.makeRoom bs.length).write 0 bs with bytes := a.bytes ++ bs }

/-- Forgets the bytes, and the tape as well if too much of it is in use. -/
def reset : Account :=
  if Writer.keptCapacity < a.capacity then new else { a with bytes := [] }

@[simp] theorem length_front : a.front.length = a.capacity := by
  rw [front, List.length_map, List.length_range]

/-- A growth brings the part of the tape into use that follows, where nothing was written. -/
theorem front_grow {a : Account} (hblank : ∀ i, a.capacity ≤ i → a.tape i = 0) (n : Nat) :
    (a.grow n).front = a.front ++ List.replicate (n - a.capacity) 0 := by
  have hadded : ∀ b ∈ ((List.range (n - a.capacity)).map (a.capacity + ·)).map a.tape, b = 0 :=
    fun b hb => by
      obtain ⟨i, hi, rfl⟩ := List.mem_map.1 hb
      obtain ⟨k, -, rfl⟩ := List.mem_map.1 hi
      exact hblank _ (Nat.le_add_right ..)
  have hcapacity : max a.capacity n = a.capacity + (n - a.capacity) := by omega
  calc (a.grow n).front
      = (List.range (a.capacity + (n - a.capacity))).map a.tape := by
        rw [front, ← hcapacity]
        rfl
    _ = a.front ++ ((List.range (n - a.capacity)).map (a.capacity + ·)).map a.tape := by
        rw [List.range_add, List.map_append, front]
    _ = a.front ++ List.replicate (n - a.capacity) 0 := by
        rw [List.eq_replicate_of_mem hadded, List.length_map, List.length_map, List.length_range]

/-- What is claimed is the capacity that there is, or at least the smallest that is set aside. -/
theorem claimedCapacity_eq_or_le (n : Nat) :
    a.claimedCapacity n = a.capacity ∨ Writer.minCapacity ≤ a.claimedCapacity n := by
  unfold claimedCapacity
  split
  · exact .inl rfl
  · exact .inr (Nat.le_max_right _ _)

/-- The same of the room that is made. -/
theorem makeRoom_capacity_eq_or_le (n : Nat) :
    (a.makeRoom n).capacity = a.capacity ∨
      a.capacity ≤ (a.makeRoom n).capacity ∧ Writer.minCapacity ≤ (a.makeRoom n).capacity := by
  unfold makeRoom
  split
  · exact .inl rfl
  · show _ ∨ a.capacity ≤ max a.capacity _ ∧ _ ≤ max a.capacity (max _ Writer.minCapacity)
    omega

theorem write_bytes (i : Nat) (bs : Bytes) : (a.write i bs).bytes = a.bytes := by
  unfold write
  split <;> rfl

theorem write_capacity (i : Nat) (bs : Bytes) : (a.write i bs).capacity = a.capacity := by
  unfold write
  split <;> rfl

theorem writeAll_capacity (pieces : List (Nat × Bytes)) :
    (pieces.foldl (fun a p => a.write p.1 p.2) a).capacity = a.capacity := by
  induction pieces generalizing a with
  | nil => rfl
  | cons p pieces ih => exact (ih (a.write p.1 p.2)).trans (a.write_capacity ..)

/-- There is no storage, or as much as is set aside at least and at most. -/
def Bounded : Prop :=
  a.capacity = 0 ∨ Writer.minCapacity ≤ a.capacity ∧ a.capacity ≤ Writer.maxCapacity

theorem bounded_new : new.Bounded := .inl rfl

theorem Bounded.capacity_le {a : Account} (h : a.Bounded) : a.capacity ≤ Writer.maxCapacity := by
  rcases h with h | ⟨-, h⟩
  · rw [h]
    exact Nat.zero_le _
  · exact h

/-- What is left behind a reset was kept, and so it is not more than the smallest. -/
theorem Bounded.reset_capacity {a : Account} (h : a.Bounded) :
    a.reset.capacity = 0 ∨ a.reset.capacity = Writer.minCapacity := by
  unfold reset
  split
  · exact .inl rfl
  · next hkept =>
    rcases h with h | ⟨h, -⟩
    · exact .inl h
    · exact .inr (Nat.le_antisymm (Nat.not_lt.1 hkept) h)

theorem overwrite_of_le {tape : Nat → UInt8} {start : Nat} {bs : Bytes} {i : Nat}
    (h : start + bs.length ≤ i) : overwrite tape start bs i = tape i := by
  have hnot : ¬i < start := by omega
  have hnone : bs[i - start]? = none := List.getElem?_eq_none (by omega)
  rw [overwrite, if_neg hnot, hnone, Option.getD_none]

/-- On the tape, writing replaces as many bytes as are written. -/
theorem map_range_overwrite {tape : Nat → UInt8} {start n : Nat} {bs : Bytes}
    (h : start + bs.length ≤ n) :
    (List.range n).map (overwrite tape start bs) =
      ((List.range n).map tape).take start ++ bs ++
        ((List.range n).map tape).drop (start + bs.length) := by
  apply List.ext_getElem
  · simp only [List.length_map, List.length_range, List.length_append, List.length_take,
      List.length_drop]
    omega
  · intro i hi hi'
    simp only [List.length_map, List.length_range] at hi
    simp only [List.getElem_map, List.getElem_range, List.getElem_append, List.length_append,
      List.length_take, List.length_map, List.length_range, List.getElem_take, List.getElem_drop,
      Nat.min_eq_left (show start ≤ n by omega)]
    rcases Nat.lt_or_ge i start with hfront | hback
    · rw [dif_pos (by omega), dif_pos hfront, overwrite, if_pos hfront]
    · rcases Nat.lt_or_ge i (start + bs.length) with hin | hbehind
      · rw [dif_pos hin, dif_neg (by omega), overwrite, if_neg (by omega),
          List.getElem?_eq_getElem (by omega), Option.getD_some]
      · rw [dif_neg (by omega), overwrite_of_le hbehind]
        exact congrArg tape (by omega)

end Account

/-! ### The storage of a writer -/

namespace Writer

/-- The storage, committed or not. -/
def storage (w : Writer) : Bytes := w.written ++ w.scratch

/-- Writes `bs` at place `i` of the scratch space. What does not fit is not written at all. -/
def fillAt (w : Writer) (i : Nat) (bs : Bytes) : Writer :=
  if i + bs.length ≤ w.scratch.length then
    { w with scratch := w.scratch.take i ++ bs ++ w.scratch.drop (i + bs.length) }
  else w

variable (w : Writer)

theorem length_storage : w.storage.length = w.capacity := by
  rw [storage, List.length_append, ← size_eq_length]
  rfl

theorem scratch_eq_drop_storage : w.scratch = w.storage.drop w.size := by
  rw [storage, size_eq_length, List.drop_left]

theorem length_scratch : w.scratch.length = w.capacity - w.size :=
  (Nat.add_sub_cancel_left ..).symm

theorem capacity_grow (n : Nat) : (w.grow n).capacity = max w.capacity n := by
  show w.committed.length + (w.scratch ++ List.replicate (n - w.capacity) 0).length = _
  rw [List.length_append, List.length_replicate, ← Nat.add_assoc]
  show w.capacity + (n - w.capacity) = _
  omega

theorem storage_grow (n : Nat) :
    (w.grow n).storage = w.storage ++ List.replicate (n - w.capacity) 0 :=
  (List.append_assoc ..).symm

/-- A claim adds zeros at the end of the scratch space, and changes nothing in front of them. -/
theorem scratch_prefix_claim (n : Nat) : w.scratch <+: (w.claim n).scratch :=
  List.prefix_append ..

theorem capacity_claim (n : Nat) : (w.claim n).capacity = max w.capacity (w.claimedCapacity n) :=
  w.capacity_grow _

/-- As long as there can be that much storage, exactly the claims whose sum is a word are met in
full. -/
theorem le_length_scratch_claim_iff {w : Writer} (hw : w.capacity ≤ maxCapacity) {n : Nat}
    (hn : w.claimedCapacity n ≤ maxCapacity) :
    n ≤ (w.claim n).scratch.length ↔ w.size + n < wordRange := by
  have hrange : maxCapacity < wordRange := by decide
  have hcapacity : w.size + w.scratch.length = w.capacity := rfl
  have hclaimed : (w.claim n).scratch.length = max w.capacity (w.claimedCapacity n) - w.size := by
    rw [length_scratch, capacity_claim]
    rfl
  rw [hclaimed]
  by_cases hroom : n ≤ w.scratch.length
  · exact iff_of_true (by omega) (by omega)
  · -- The storage has to grow, to the sum or to what is left of it modulo the range.
    rw [claimedCapacity, if_neg hroom] at hn ⊢
    constructor
    · intro h
      by_contra hsum
      omega
    · intro hsum
      rw [Nat.mod_eq_of_lt hsum]
      omega

/-- A claim is refused exactly if it takes a growth to more than there can be. -/
theorem claim?_eq_none_iff {w : Writer} (hw : w.capacity ≤ maxCapacity) (n : Nat) :
    w.claim? n = none ↔ w.capacity - w.size < n ∧
      maxCapacity < max ((w.size + n) % wordRange) (2 * w.capacity) := by
  have hdouble : 2 * w.capacity % wordRange = 2 * w.capacity :=
    Nat.mod_eq_of_lt (Nat.lt_of_le_of_lt (Nat.mul_le_mul_left 2 hw) (by decide))
  have hsmall : minCapacity ≤ maxCapacity := by decide
  rw [claim?, claimedCapacity, hdouble, ← length_scratch]
  by_cases hroom : n ≤ w.scratch.length
  · rw [if_pos hroom, if_neg (by omega)]
    exact iff_of_false (Option.some_ne_none _) (by omega)
  · rw [if_neg hroom]
    split
    · exact iff_of_true rfl (by omega)
    · exact iff_of_false (Option.some_ne_none _) (by omega)

theorem claim?_eq_some_iff {w w' : Writer} {n : Nat} :
    w.claim? n = some w' ↔ w.claimedCapacity n ≤ maxCapacity ∧ w' = w.claim n := by
  rw [claim?]
  split
  · next h => exact iff_of_false (Option.some_ne_none _).symm (by omega)
  · next h =>
    exact ⟨fun heq => ⟨Nat.not_lt.1 h, (Option.some.inj heq).symm⟩, fun ⟨_, heq⟩ => heq ▸ rfl⟩

/-- Bytes that are in memory are put as if the room for them had been claimed. -/
theorem put?_eq_claim {w : Writer} (hw : w.capacity ≤ maxCapacity) {bs : Bytes}
    (hbs : bs.length ≤ maxCapacity) :
    w.put? bs = ((w.claim bs.length).fill bs).commit? bs.length := by
  have hrange : 2 * maxCapacity < wordRange := by decide
  have hsize : w.size ≤ w.capacity := Nat.le_add_right ..
  rw [put?, claim_eq_makeRoom (by omega) (by omega)]

theorem written_fillAt (i : Nat) (bs : Bytes) : (w.fillAt i bs).written = w.written := by
  unfold fillAt
  split <;> rfl

theorem written_fillAll (pieces : List (Nat × Bytes)) :
    (pieces.foldl (fun w p => w.fillAt p.1 p.2) w).written = w.written := by
  induction pieces generalizing w with
  | nil => rfl
  | cons p pieces ih => exact (ih (w.fillAt p.1 p.2)).trans (w.written_fillAt ..)

theorem storage_fillAt {w : Writer} {i : Nat} {bs : Bytes}
    (h : i + bs.length ≤ w.scratch.length) :
    (w.fillAt i bs).storage =
      w.storage.take (w.size + i) ++ bs ++ w.storage.drop (w.size + i + bs.length) := by
  rw [storage, written_fillAt, fillAt, if_pos h, storage, size_eq_length,
    List.take_length_add_append, Nat.add_assoc, List.drop_length_add_append]
  simp only [List.append_assoc]

theorem storage_commit (n : Nat) : (w.commit n).storage = w.storage := by
  rw [storage, written_commit, storage, List.append_assoc]
  exact congrArg (w.written ++ ·) (List.take_append_drop n w.scratch)

/-- What a truncation leaves out of the committed bytes is in front of the scratch space. -/
theorem storage_truncate (n : Nat) : (w.truncate n).storage = w.storage := by
  have hcut : (w.committed.take (w.size - n)).reverse = w.written.drop n := by
    rw [written, List.drop_reverse, size]
  rw [storage, written_truncate, truncate, hcut, ← List.append_assoc, List.take_append_drop,
    storage]

theorem commit?_eq (n : Nat) :
    w.commit? n =
      if w.capacity - w.size < n then .error ⟨n, w.capacity - w.size⟩ else .ok (w.commit n) := by
  rw [← length_scratch, commit?, Bytes.hasAtLeast_eq]
  by_cases hn : n ≤ w.scratch.length
  · rw [if_pos (decide_eq_true hn), if_neg (by omega)]
  · rw [if_neg (by simpa using hn), if_pos (by omega)]

/-- `put` makes room, writes at the front of it, and commits. -/
theorem put_eq_commit_fillAt (bs : Bytes) :
    w.put bs = ((w.makeRoom bs.length).fillAt 0 bs).commit bs.length := by
  have hroom := w.le_length_scratch_makeRoom bs.length
  have hfill : (w.makeRoom bs.length).fillAt 0 bs = (w.makeRoom bs.length).fill bs := by
    rw [fillAt, if_pos (by omega), fill, List.take_of_length_le hroom, Nat.zero_add,
      List.take_zero, List.nil_append]
  have hlength : ((w.makeRoom bs.length).fillAt 0 bs).scratch.length =
      (w.makeRoom bs.length).scratch.length := by
    rw [hfill, fill, List.length_append, List.length_take, List.length_drop]
    omega
  have hput := w.put?_eq_put bs
  rw [put?, ← hfill, commit?_eq, ← length_scratch, hlength, if_neg (Nat.not_lt.2 hroom)] at hput
  exact (Except.ok.inj hput).symm

/-! ### What a writer shows -/

/-- A writer shows an account if its committed bytes are those that were appended, and its storage
is the part of the tape that is in use. Behind that the tape is blank. -/
structure Shows (w : Writer) (a : Account) : Prop where
  written : w.written = a.bytes
  storage : w.storage = a.front
  blank : ∀ i, a.capacity ≤ i → a.tape i = 0

theorem shows_empty : Shows empty .new :=
  ⟨rfl, rfl, fun _ _ => rfl⟩

namespace Shows

variable {w : Writer} {a : Account} (h : Shows w a)
include h

theorem size : w.size = a.bytes.length := by
  rw [size_eq_length, h.written]

theorem capacity : w.capacity = a.capacity := by
  rw [← length_storage, h.storage, Account.length_front]

theorem scratch : w.scratch = a.span := by
  rw [scratch_eq_drop_storage, h.storage, h.size, Account.span]

theorem bytes_le_capacity : a.bytes.length ≤ a.capacity := by
  rw [← h.size, ← h.capacity]
  exact Nat.le_add_right ..

theorem grow (n : Nat) : Shows (w.grow n) (a.grow n) := by
  refine ⟨h.written, ?_, fun i hi => h.blank i (Nat.le_trans (Nat.le_max_left ..) hi)⟩
  rw [storage_grow, h.storage, h.capacity, Account.front_grow h.blank]

theorem length_scratch : w.scratch.length = a.capacity - a.bytes.length := by
  rw [Writer.length_scratch, h.capacity, h.size]

theorem claimedCapacity (n : Nat) : w.claimedCapacity n = a.claimedCapacity n := by
  rw [Writer.claimedCapacity, Account.claimedCapacity, h.length_scratch, h.capacity, h.size]

theorem claim (n : Nat) : Shows (w.claim n) (a.claim n) := by
  rw [Writer.claim, Account.claim, h.claimedCapacity]
  exact h.grow _

theorem makeRoom (n : Nat) : Shows (w.makeRoom n) (a.makeRoom n) := by
  rw [Writer.makeRoom, Account.makeRoom, Bytes.hasAtLeast_eq, h.length_scratch, grownCapacity,
    h.size, h.capacity]
  by_cases hn : n ≤ a.capacity - a.bytes.length
  · rw [if_pos (decide_eq_true hn), if_pos hn]
    exact h
  · rw [if_neg (by simpa using hn), if_neg hn]
    exact h.grow _

theorem fillAt (i : Nat) (bs : Bytes) : Shows (w.fillAt i bs) (a.write i bs) := by
  have hle := h.bytes_le_capacity
  have hroom := h.length_scratch
  by_cases hfits : a.bytes.length + i + bs.length ≤ a.capacity
  · refine ⟨?_, ?_, fun j hj => ?_⟩
    · rw [written_fillAt, h.written, Account.write_bytes]
    · rw [storage_fillAt (by omega), h.storage, h.size, Account.write, if_pos hfits]
      exact (Account.map_range_overwrite hfits).symm
    · rw [Account.write_capacity] at hj
      rw [Account.write, if_pos hfits]
      exact (Account.overwrite_of_le (Nat.le_trans hfits hj)).trans (h.blank j hj)
  · rw [Writer.fillAt, if_neg (by omega), Account.write, if_neg hfits]
    exact h

theorem fillAll (pieces : List (Nat × Bytes)) :
    Shows (pieces.foldl (fun w p => w.fillAt p.1 p.2) w)
      (pieces.foldl (fun a p => a.write p.1 p.2) a) := by
  induction pieces generalizing w a with
  | nil => exact h
  | cons p pieces ih => exact ih (h.fillAt p.1 p.2)

theorem commit (n : Nat) :
    Shows (w.commit n) { a with bytes := a.bytes ++ a.span.take n } := by
  refine ⟨?_, ?_, h.blank⟩
  · rw [written_commit, h.written, h.scratch]
  · rw [storage_commit, h.storage]
    rfl

theorem put (bs : Bytes) : Shows (w.put bs) (a.put bs) := by
  have hfilled := (h.makeRoom bs.length).fillAt 0 bs
  refine ⟨?_, ?_, hfilled.blank⟩
  · rw [written_put, h.written, Account.put]
  · rw [put_eq_commit_fillAt, storage_commit, hfilled.storage]
    rfl

theorem truncate (n : Nat) : Shows (w.truncate n) { a with bytes := a.bytes.take n } := by
  refine ⟨?_, ?_, h.blank⟩
  · rw [written_truncate, h.written]
  · rw [storage_truncate, h.storage]
    rfl

theorem reset : Shows w.reset a.reset := by
  rw [Writer.reset, Account.reset, h.capacity]
  split
  · exact shows_empty
  · exact ⟨rfl, h.storage, h.blank⟩

end Shows
end Writer

/-! ### Calls -/

/-- A call on a writer. Who claims a span may write anywhere in it. -/
inductive WriterCall where
  | claim (n : Nat) (pieces : List (Nat × Bytes))
  | commit (n : Nat)
  | put (bs : Bytes)
  | truncate (n : Nat)
  | reset

/-- What a call is answered with. -/
inductive WriterAnswer where
  /-- The span that was claimed, with what it holds. -/
  | span (bs : Bytes)
  | done
  | overrun (o : Writer.Overrun)
  /-- There can be no storage of the size that the call takes. -/
  | refused

namespace WriterCall

/-- The calls in turn: their answers, and what is left behind. -/
def play {σ : Type} (call : σ → WriterCall → WriterAnswer × σ) :
    σ → List WriterCall → List WriterAnswer × σ
  | s, [] => ([], s)
  | s, c :: cs =>
    let (answer, s) := call s c
    let (answers, s) := play call s cs
    (answer :: answers, s)

/-- A call on a writer. An overrun leaves it as it is, and so does a call that is refused. -/
def onWriter (w : Writer) : WriterCall → WriterAnswer × Writer
  | claim n pieces =>
    match w.claim? n with
    | some w => (.span w.scratch, pieces.foldl (fun w p => w.fillAt p.1 p.2) w)
    | none => (.refused, w)
  | commit n => settle (w.commit? n)
  | put bs =>
    if Writer.maxCapacity < (w.makeRoom bs.length).capacity then (.refused, w)
    else settle (w.put? bs)
  | truncate n => (.done, w.truncate n)
  | reset => (.done, w.reset)
where
  settle : Except Writer.Overrun Writer → WriterAnswer × Writer
    | .ok w => (.done, w)
    | .error o => (.overrun o, w)

/-- A call on an account: a commit appends what is in front of the span, `put` appends what it is
given. -/
def onAccount (a : Account) : WriterCall → WriterAnswer × Account
  | claim n pieces =>
    if Writer.maxCapacity < a.claimedCapacity n then (.refused, a)
    else (.span (a.claim n).span, pieces.foldl (fun a p => a.write p.1 p.2) (a.claim n))
  | commit n =>
    if a.capacity - a.bytes.length < n then
      (.overrun ⟨n, a.capacity - a.bytes.length⟩, a)
    else (.done, { a with bytes := a.bytes ++ a.span.take n })
  | put bs =>
    if Writer.maxCapacity < (a.makeRoom bs.length).capacity then (.refused, a)
    else (.done, a.put bs)
  | truncate n => (.done, { a with bytes := a.bytes.take n })
  | reset => (.done, a.reset)

variable {w : Writer} {a : Account}

theorem onWriter_eq_onAccount (h : w.Shows a) (c : WriterCall) :
    (onWriter w c).1 = (onAccount a c).1 ∧ (onWriter w c).2.Shows (onAccount a c).2 := by
  cases c with
  | claim n pieces =>
    rw [onWriter, onAccount, Writer.claim?, h.claimedCapacity]
    by_cases hlarge : Writer.maxCapacity < a.claimedCapacity n
    · rw [if_pos hlarge, if_pos hlarge]
      exact ⟨rfl, h⟩
    · rw [if_neg hlarge, if_neg hlarge]
      exact ⟨congrArg _ (h.claim n).scratch, (h.claim n).fillAll pieces⟩
  | commit n =>
    rw [onWriter, Writer.commit?_eq, h.capacity, h.size, onAccount]
    split
    · exact ⟨rfl, h⟩
    · exact ⟨rfl, h.commit n⟩
  | put bs =>
    rw [onWriter, onAccount, Writer.put?_eq_put, (h.makeRoom bs.length).capacity]
    split
    · exact ⟨rfl, h⟩
    · exact ⟨rfl, h.put bs⟩
  | truncate n => exact ⟨rfl, h.truncate n⟩
  | reset => exact ⟨rfl, h.reset⟩

theorem play_onWriter_eq_play_onAccount (h : w.Shows a) (calls : List WriterCall) :
    (play onWriter w calls).1 = (play onAccount a calls).1 ∧
      (play onWriter w calls).2.Shows (play onAccount a calls).2 := by
  induction calls generalizing w a with
  | nil => exact ⟨rfl, h⟩
  | cons c calls ih =>
    obtain ⟨hanswer, hstep⟩ := onWriter_eq_onAccount h c
    obtain ⟨hanswers, hplay⟩ := ih hstep
    exact ⟨congrArg₂ List.cons hanswer hanswers, hplay⟩

/-- A call other than a reset leaves the capacity, or raises it within the bounds. -/
theorem onAccount_capacity_eq_or_le {c : WriterCall} (hc : c ≠ .reset) :
    (onAccount a c).2.capacity = a.capacity ∨ a.capacity ≤ (onAccount a c).2.capacity ∧
      Writer.minCapacity ≤ (onAccount a c).2.capacity ∧
      (a.capacity ≤ Writer.maxCapacity → (onAccount a c).2.capacity ≤ Writer.maxCapacity) := by
  cases c with
  | claim n pieces =>
    rw [onAccount]
    split
    · exact .inl rfl
    · rw [Account.writeAll_capacity]
      show max a.capacity (a.claimedCapacity n) = a.capacity ∨
        a.capacity ≤ max a.capacity (a.claimedCapacity n) ∧ _ ≤ max a.capacity _ ∧
          (_ → max a.capacity (a.claimedCapacity n) ≤ _)
      -- A refused claim changes nothing, so what is claimed is within the bounds.
      have := a.claimedCapacity_eq_or_le n
      omega
  | commit n =>
    rw [onAccount]
    split <;> exact .inl rfl
  | put bs =>
    rw [onAccount]
    split
    · exact .inl rfl
    · next hfits =>
      rw [show (a.put bs).capacity = (a.makeRoom bs.length).capacity from
        (a.makeRoom bs.length).write_capacity ..]
      exact (a.makeRoom_capacity_eq_or_le bs.length).imp_right fun ⟨hle, hleast⟩ =>
        ⟨hle, hleast, fun _ => Nat.not_lt.1 hfits⟩
  | truncate n => exact .inl rfl
  | reset => exact absurd rfl hc

theorem le_onAccount_capacity {c : WriterCall} (hc : c ≠ .reset) :
    a.capacity ≤ (onAccount a c).2.capacity :=
  (onAccount_capacity_eq_or_le hc).elim (fun heq => Nat.le_of_eq heq.symm) And.left

theorem bounded_onAccount (h : a.Bounded) (c : WriterCall) : (onAccount a c).2.Bounded := by
  by_cases hc : c = .reset
  · subst hc
    refine h.reset_capacity.imp_right fun heq => ?_
    show Writer.minCapacity ≤ a.reset.capacity ∧ a.reset.capacity ≤ _
    rw [heq]
    decide
  · rcases onAccount_capacity_eq_or_le (a := a) hc with hsame | ⟨-, hleast, hmost⟩
    · rw [Account.Bounded, hsame]
      exact h
    · exact .inr ⟨hleast, hmost h.capacity_le⟩

theorem bounded_play (h : a.Bounded) (calls : List WriterCall) :
    (play onAccount a calls).2.Bounded := by
  induction calls generalizing a with
  | nil => exact h
  | cons c calls ih => exact ih (bounded_onAccount h c)

/-- Bytes that were committed once are handed out again, and a commit shows them again. -/
example : (play onWriter .empty [.put [1, 2, 3], .truncate 0, .commit 2]).2.written = [1, 2] := by
  decide +kernel

end WriterCall
end Mqtt
