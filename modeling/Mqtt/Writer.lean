import Mqtt.Bytes
import Mqtt.Fault
import Mqtt.RemainingLength
/-!
# Writers

A writer is a growing storage area of which a front part is committed: that part is what will be
sent. The rest is scratch space. Who wants to write claims a span of it, fills the span, and
commits as much as was filled; scratch space keeps what it holds until it is filled again.

Bytes that are in memory have lengths whose sum fits a machine word, so room for them is reckoned
with plain numbers (`makeRoom`). A claim may ask for any word. The sizes that it reckons with are
words too: they wrap around, and a claim that asks for too much is left with too little (`claim`).

The committed bytes are kept newest first, so that the place where they end and the scratch space
begins is at hand. The view is `written`, the committed bytes in their order; the lemmas below say
what each operation does to it.
-/

namespace Mqtt

/-- Storage with a committed front part. -/
structure Writer where
  /-- The committed bytes, newest first. -/
  committed : Bytes
  /-- The storage behind them. -/
  scratch : Bytes
deriving DecidableEq, Repr, Inhabited

namespace Writer

/-- The least storage that is set aside at all. -/
def minCapacity : Nat := 1024

/-- The most storage that a reset keeps. -/
def keptCapacity : Nat := 1024

/-- How many numbers a machine word of 64 bits stands for. -/
def wordRange : Nat := 18446744073709551616

/-- The most storage that can be set aside: one byte less than half of `wordRange`. -/
def maxCapacity : Nat := 9223372036854775807

/-- The writer without storage. -/
def empty : Writer := ⟨[], []⟩

/-- The committed bytes. -/
def written (w : Writer) : Bytes := w.committed.reverse

/-- How many bytes are committed. -/
def size (w : Writer) : Nat := w.committed.length

/-- Whether nothing is committed. -/
def isEmpty (w : Writer) : Bool := w.committed.isEmpty

/-- The size of the storage, committed or not. -/
def capacity (w : Writer) : Nat := w.committed.length + w.scratch.length

/-- Storage of another size, with zeros behind what it held. -/
def grow (w : Writer) (capacity : Nat) : Writer :=
  { w with scratch := w.scratch ++ List.replicate (capacity - w.capacity) 0 }

/-- The size that the storage grows to when `n` more bytes are to be put into it: enough for them,
at least twice what there is, and never less than `minCapacity`. -/
def grownCapacity (w : Writer) (n : Nat) : Nat :=
  max (max (w.size + n) (2 * w.capacity)) minCapacity

/-- Makes sure that at least `n` bytes of scratch space follow the committed bytes, where `n` is the
length of bytes that are in memory. -/
def makeRoom (w : Writer) (n : Nat) : Writer :=
  if Bytes.hasAtLeast n w.scratch then w else w.grow (w.grownCapacity n)

/-- The size that the storage has once `n` bytes were claimed, whatever number `n` is. The sum and
the double are words. -/
def claimedCapacity (w : Writer) (n : Nat) : Nat :=
  if n ≤ w.scratch.length then w.capacity
  else max (max ((w.size + n) % wordRange) (2 * w.capacity % wordRange)) minCapacity

/-- Asks for `n` bytes of scratch space behind the committed bytes. -/
def claim (w : Writer) (n : Nat) : Writer := w.grow (w.claimedCapacity n)

/-- Asks for `n` bytes of scratch space if as much storage as this takes can be set aside. -/
def claim? (w : Writer) (n : Nat) : Option Writer :=
  if maxCapacity < w.claimedCapacity n then none else some (w.claim n)

/-- Fills the front of the scratch space, without committing it. What does not fit is left out. -/
def fill (w : Writer) (bs : Bytes) : Writer :=
  { w with scratch := bs.take w.scratch.length ++ w.scratch.drop bs.length }

/-- Commits the first `n` bytes of the scratch space. -/
def commit (w : Writer) (n : Nat) : Writer :=
  ⟨(w.scratch.take n).reverse ++ w.committed, w.scratch.drop n⟩

/-- An attempt to commit more than there is scratch space. -/
structure Overrun where
  asked : Nat
  available : Nat
deriving DecidableEq, Repr

/-- What an overrun says. -/
def Overrun.message (o : Overrun) : String :=
  s!"commit of {o.asked} bytes exceeds claimed span of {o.available}"

/-- Commits the first `n` bytes of the scratch space if there are so many. -/
def commit? (w : Writer) (n : Nat) : Except Overrun Writer :=
  if Bytes.hasAtLeast n w.scratch then .ok (w.commit n)
  else .error ⟨n, w.scratch.length⟩

/-- Appends bytes: makes room for them, fills it and commits it. -/
def put (w : Writer) (bs : Bytes) : Writer :=
  let w := w.makeRoom bs.length
  ⟨bs.reverse ++ w.committed, w.scratch.drop bs.length⟩

/-- Makes room for bytes, fills it and commits it, step by step. -/
def put? (w : Writer) (bs : Bytes) : Except Overrun Writer :=
  ((w.makeRoom bs.length).fill bs).commit? bs.length

/-- Keeps only the first `n` committed bytes. -/
def truncate (w : Writer) (n : Nat) : Writer :=
  let surplus := w.size - n
  ⟨w.committed.drop surplus, (w.committed.take surplus).reverse ++ w.scratch⟩

/-- Overwrites the committed bytes from position `start` on with `lead`, and moves the bytes from
position `body` on down to follow it. The bytes that this frees at the end become scratch space,
with what they hold. -/
def fillReserved (w : Writer) (start body : Nat) (lead : Bytes) : Writer :=
  let bytes := w.written
  let kept := bytes.take start ++ lead ++ bytes.drop body
  ⟨kept.reverse, bytes.drop kept.length ++ w.scratch⟩

/-- A lead that does not fit into the range that is reserved for it, or such a range that is not
committed. -/
structure Misfit where
  lead : Nat
  start : Nat
  body : Nat
deriving DecidableEq, Repr

/-- What a misfit says. -/
def Misfit.message (m : Misfit) : String :=
  s!"prefix of {m.lead} bytes does not fit reserved range {m.start}..{m.body}"

/-- Overwrites the reserved range from `start` to `body` if it is committed and `lead` fits. -/
def fillReserved? (w : Writer) (start body : Nat) (lead : Bytes) : Except Misfit Writer :=
  if start + lead.length ≤ body ∧ body ≤ w.size then .ok (w.fillReserved start body lead)
  else .error ⟨lead.length, start, body⟩

/-- Drops what is committed. Storage above `keptCapacity` is given up. -/
def reset (w : Writer) : Writer :=
  if keptCapacity < w.capacity then empty else ⟨[], w.written ++ w.scratch⟩

/-! ### The view -/

@[simp] theorem written_empty : empty.written = [] := rfl

theorem size_eq_length (w : Writer) : w.size = w.written.length := by
  simp [size, written]

@[simp] theorem written_grow (w : Writer) (n : Nat) : (w.grow n).written = w.written := rfl

@[simp] theorem written_claim (w : Writer) (n : Nat) : (w.claim n).written = w.written := rfl

@[simp] theorem written_makeRoom (w : Writer) (n : Nat) : (w.makeRoom n).written = w.written := by
  unfold makeRoom
  split <;> rfl

/-- As much scratch space is left as room was made for. -/
theorem le_length_scratch_makeRoom (w : Writer) (n : Nat) :
    n ≤ (w.makeRoom n).scratch.length := by
  unfold makeRoom
  rw [Bytes.hasAtLeast_eq]
  split
  · next h => exact of_decide_eq_true h
  · simp only [grow, List.length_append, List.length_replicate, grownCapacity, size, capacity]
    omega

/-- As long as no size wraps around, a claim makes room. -/
theorem claim_eq_makeRoom {w : Writer} {n : Nat} (hsum : w.size + n < wordRange)
    (hdouble : 2 * w.capacity < wordRange) : w.claim n = w.makeRoom n := by
  rw [claim, claimedCapacity, makeRoom, Bytes.hasAtLeast_eq, Nat.mod_eq_of_lt hsum,
    Nat.mod_eq_of_lt hdouble]
  by_cases hn : n ≤ w.scratch.length
  · rw [if_pos hn, if_pos (decide_eq_true hn), grow, Nat.sub_self, List.replicate_zero,
      List.append_nil]
  · rw [if_neg hn, if_neg (by simpa using hn), grownCapacity]

@[simp] theorem written_fill (w : Writer) (bs : Bytes) : (w.fill bs).written = w.written := rfl

@[simp] theorem written_commit (w : Writer) (n : Nat) :
    (w.commit n).written = w.written ++ w.scratch.take n := by
  simp [commit, written]

@[simp] theorem written_put (w : Writer) (bs : Bytes) :
    (w.put bs).written = w.written ++ bs := by
  have h := w.written_makeRoom bs.length
  simp only [written] at h
  simp [put, written, h]

@[simp] theorem written_truncate (w : Writer) (n : Nat) :
    (w.truncate n).written = w.written.take n := by
  simp [truncate, written, size, List.take_reverse]

/-- The bytes in front stay, and the new lead stands between them and the bytes behind. -/
theorem written_fillReserved (w : Writer) (start body : Nat) (lead : Bytes) :
    (w.fillReserved start body lead).written =
      w.written.take start ++ lead ++ w.written.drop body := by
  simp [fillReserved, written]

@[simp] theorem written_reset (w : Writer) : w.reset.written = [] := by
  unfold reset
  split <;> rfl

/-- A row of byte strings, put one after the other. -/
theorem written_foldl_put (pieces : List Bytes) (w : Writer) :
    (pieces.foldl put w).written = w.written ++ pieces.flatten := by
  induction pieces generalizing w with
  | nil => rw [List.foldl_nil, List.flatten_nil, List.append_nil]
  | cons bs pieces ih =>
    rw [List.foldl_cons, ih, written_put, List.flatten_cons, List.append_assoc]

/-! ### The guards -/

/-- Room that was made can be committed. -/
theorem commit?_makeRoom (w : Writer) (n : Nat) :
    (w.makeRoom n).commit? n = .ok ((w.makeRoom n).commit n) := by
  rw [commit?, if_pos]
  rw [Bytes.hasAtLeast_eq]
  exact decide_eq_true (w.le_length_scratch_makeRoom n)

/-- `put` makes room, fills and commits, and the commit finds the room that was made. -/
theorem put?_eq_put (w : Writer) (bs : Bytes) : w.put? bs = .ok (w.put bs) := by
  have hroom := w.le_length_scratch_makeRoom bs.length
  have hlength : ((w.makeRoom bs.length).fill bs).scratch.length =
      (w.makeRoom bs.length).scratch.length := by
    simp only [fill, List.length_append, List.length_take, List.length_drop]
    omega
  have hfront : bs.take (w.makeRoom bs.length).scratch.length = bs := List.take_of_length_le hroom
  have hcommitted : (w.makeRoom bs.length).committed = w.committed := by
    unfold makeRoom
    split <;> rfl
  rw [put?, commit?, if_pos (by rw [Bytes.hasAtLeast_eq, hlength]; exact decide_eq_true hroom)]
  simp only [commit, fill, hfront, List.take_left', List.drop_left', put, hcommitted]

end Writer
end Mqtt
