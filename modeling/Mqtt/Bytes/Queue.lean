import Mqtt.Bytes
/-!
# Queues of bytes

Bytes that were sent and not yet taken. A queue keeps its oldest bytes in one list and the pieces
that were added later in a stack, so that adding a piece costs as much as the piece is long, and
taking bytes as much as is taken, whatever the queue holds.

The view is `toList`; `toList_push`, `take_eq`, `toList_drop` and `size_eq_length` say what each
operation does to it, and nothing else about the layout matters.
-/

namespace Mqtt

/-- A first-in first-out queue of bytes. -/
structure ByteQueue where
  /-- The oldest bytes. -/
  front : Bytes
  /-- The pieces added behind them, newest first. -/
  back : List Bytes
  /-- How many bytes there are. -/
  size : Nat
  /-- The count is right. -/
  size_eq : size = (front ++ back.reverse.flatten).length

namespace ByteQueue

/-- The bytes of a queue, oldest first. -/
def toList (q : ByteQueue) : Bytes :=
  q.front ++ q.back.reverse.flatten

theorem size_eq_length (q : ByteQueue) : q.size = q.toList.length :=
  q.size_eq

/-- The queue that holds the given bytes. -/
def ofList (bs : Bytes) : ByteQueue where
  front := bs
  back := []
  size := bs.length
  size_eq := by simp

/-- The queue without bytes. -/
def empty : ByteQueue := ofList []

instance : Inhabited ByteQueue := ⟨empty⟩

/-- Whether there are no bytes. -/
def isEmpty (q : ByteQueue) : Bool := q.size == 0

/-- Adds bytes at the end. A queue whose oldest part has become short is laid out anew, so that a
look at the first few bytes stays cheap. -/
def push (q : ByteQueue) (bs : Bytes) : ByteQueue :=
  if Bytes.hasAtLeast 5 q.front then
    { front := q.front
      back := bs :: q.back
      size := q.size + bs.length
      size_eq := by simp [q.size_eq, Nat.add_assoc] }
  else
    { front := q.toList ++ bs
      back := []
      size := q.size + bs.length
      size_eq := by simp [q.size_eq, toList, Nat.add_assoc] }

/-- The first `n` bytes, and the queue of those behind them. -/
def splitAt (q : ByteQueue) (n : Nat) : Bytes × ByteQueue :=
  if h : Bytes.hasAtLeast n q.front || q.back.isEmpty then
    (q.front.take n,
      { front := q.front.drop n
        back := q.back
        size := q.size - n
        size_eq := by
          simp only [Bytes.hasAtLeast_eq, Bool.or_eq_true, decide_eq_true_eq,
            List.isEmpty_iff] at h
          rcases h with h | h
          · simp [q.size_eq]; omega
          · simp [q.size_eq, h] })
  else
    (q.toList.take n, ofList (q.toList.drop n))

/-- The first `n` bytes. -/
def take (q : ByteQueue) (n : Nat) : Bytes := (q.splitAt n).1

/-- The queue without its first `n` bytes. -/
def drop (q : ByteQueue) (n : Nat) : ByteQueue := (q.splitAt n).2

@[simp] theorem toList_empty : empty.toList = [] := rfl

@[simp] theorem toList_ofList (bs : Bytes) : (ofList bs).toList = bs := by
  simp [ofList, toList]

@[simp] theorem toList_push (q : ByteQueue) (bs : Bytes) :
    (q.push bs).toList = q.toList ++ bs := by
  unfold push
  split <;> simp [toList]

theorem take_eq (q : ByteQueue) (n : Nat) : q.take n = q.toList.take n := by
  unfold take splitAt
  split
  · next h =>
    simp only [Bytes.hasAtLeast_eq, Bool.or_eq_true, decide_eq_true_eq, List.isEmpty_iff] at h
    rcases h with h | h
    · simp [toList, List.take_append_of_le_length h]
    · simp [toList, h]
  · rfl

@[simp] theorem toList_drop (q : ByteQueue) (n : Nat) : (q.drop n).toList = q.toList.drop n := by
  unfold drop splitAt
  split
  · next h =>
    simp only [Bytes.hasAtLeast_eq, Bool.or_eq_true, decide_eq_true_eq, List.isEmpty_iff] at h
    rcases h with h | h
    · simp [toList, List.drop_append_of_le_length h]
    · simp [toList, h]
  · simp

theorem isEmpty_iff (q : ByteQueue) : q.isEmpty = true ↔ q.toList = [] := by
  simp [isEmpty, size_eq_length]

end ByteQueue
end Mqtt
