import Mqtt.Proofs.Field.Rows
/-!
# Reading at a place

A `Decoder` drops what it has taken, so there is no place in a body where it could be wrong. A
`Cursor` keeps the whole body and a place in it, and a read at the place is a subtraction, a slice
and an index, each of which can be out of bounds. Here every one of them is checked, and a read that
is out of bounds ends in `Stop.outOfBounds`. A slice that is not has its ends within the body, so
the sum of the place and a length is no larger than the size of the body either.

`Follows` says that from any place within a body a placed decoder ends as its decoder does on what
is left behind the place, and leads to a place in the same body that is neither before the first
nor behind the end. It goes along `>>=` (`Follows.bind`), so it is proved where a place is moved
(`take_follows`, `rest_follows`) and composed from there, failures included. Hence any calls on a
cursor get the answers that they get on the body, and the place only moves forward
(`walk_follows`).
-/

namespace Mqtt

/-- A body, and how much of it has been read. -/
structure Cursor where
  body : Bytes
  pos : Nat

namespace Cursor

/-- The start of a body. -/
def start (body : Bytes) : Cursor := ⟨body, 0⟩

/-- What is left behind the place. -/
def left (c : Cursor) : Bytes := c.body.drop c.pos

/-- What ends a read before it has an answer. -/
inductive Stop where
  | fault (e : Fault)
  /-- A byte is asked for that the body does not have. -/
  | outOfBounds
deriving DecidableEq, Repr

/-- A place is in the same body as another one, not before it, and not behind the end. -/
structure Leads (c c' : Cursor) : Prop where
  body : c'.body = c.body
  forward : c.pos ≤ c'.pos
  within : c'.pos ≤ c'.body.length

variable {c c' c'' : Cursor}

theorem leads_refl (h : c.pos ≤ c.body.length) : c.Leads c := ⟨rfl, Nat.le_refl _, h⟩

theorem Leads.trans (h : c.Leads c') (h' : c'.Leads c'') : c.Leads c'' :=
  ⟨h'.body.trans h.body, Nat.le_trans h.forward h'.forward, h'.within⟩

theorem length_left (c : Cursor) : c.left.length = c.body.length - c.pos := List.length_drop

end Cursor

/-- A decoder that keeps the body and moves a place in it. -/
abbrev PlacedDecoder := EStateM Cursor.Stop Cursor

namespace PlacedDecoder

open Cursor

/-- The bytes from `first` up to `last`, both of which have to be within the bytes in this order. -/
def slice (bs : Bytes) (first last : Nat) : PlacedDecoder Bytes :=
  if first ≤ last ∧ last ≤ bs.length then return (bs.take last).drop first
  else throw .outOfBounds

/-- The byte at a place that has to be within the bytes. -/
def index (bs : Bytes) (i : Nat) : PlacedDecoder UInt8 :=
  match bs[i]? with
  | some b => return b
  | none => throw .outOfBounds

/-- How many bytes are left. The place must not be behind the end. -/
def remaining : PlacedDecoder Nat := do
  let c ← get
  if c.pos ≤ c.body.length then return c.body.length - c.pos
  else throw .outOfBounds

/-- Takes `n` bytes. -/
def take (n : Nat) : PlacedDecoder Bytes := do
  let left ← remaining
  if left < n then throw (.fault (.violation (.bodyTooShort n left)))
  let c ← get
  let bs ← slice c.body c.pos (c.pos + n)
  set { c with pos := c.pos + n }
  return bs

/-- Takes one byte. -/
def byte : PlacedDecoder UInt8 := do
  let bs ← take 1
  index bs 0

/-- Takes a 16-bit number. -/
def uint16 : PlacedDecoder UInt16 := do
  let bs ← take 2
  return Bytes.toUInt16 (← index bs 0) (← index bs 1)

/-- Takes a byte string behind its length. -/
def binary : PlacedDecoder Bytes := do
  let n ← uint16
  take n.toNat

/-- Takes a text behind its length. -/
def text : PlacedDecoder String := do
  match Bytes.toText? (← binary) with
  | some s => return s
  | none => throw (.fault (.violation .invalidText))

/-- Takes everything that is left. -/
def rest : PlacedDecoder Bytes := do
  let c ← get
  let bs ← slice c.body c.pos c.body.length
  set { c with pos := c.body.length }
  return bs

/-! ### Following a decoder -/

variable {α β : Type}

/-- A run from a place ends like a run on what is left behind it, within the bounds. -/
inductive Alike (c : Cursor) : EStateM.Result Stop Cursor α → EStateM.Result Fault Bytes α → Prop
  | ok {a : α} {c' : Cursor} : c.Leads c' → Alike c (.ok a c') (.ok a c'.left)
  | fault {e : Fault} {c' : Cursor} : c.Leads c' → Alike c (.error (.fault e) c') (.error e c'.left)

/-- From any place within a body, a placed decoder ends like a decoder. -/
def Follows (p : PlacedDecoder α) (d : Decoder α) : Prop :=
  ∀ c : Cursor, c.pos ≤ c.body.length → Alike c (p.run c) (d.run c.left)

variable {p : PlacedDecoder α} {d : Decoder α}

theorem pure_follows (a : α) : Follows (pure a) (pure a) := fun _ hc => .ok (leads_refl hc)

theorem throw_follows (v : Violation) :
    Follows (throw (.fault (.violation v)) : PlacedDecoder α) (Decoder.violated v) :=
  fun _ hc => .fault (leads_refl hc)

/-- One after the other. What comes second need only follow for answers that the first can give. -/
theorem Follows.bind {k : α → PlacedDecoder β} {l : α → Decoder β} (h : Follows p d)
    (hk : ∀ {body left a}, d.run body = .ok a left → Follows (k a) (l a)) :
    Follows (p >>= k) (d >>= l) := by
  intro c hc
  have hfirst := h c hc
  rw [EStateM.run_bind, EStateM.run_bind]
  generalize hp : p.run c = r, hd : d.run c.left = q at hfirst
  cases hfirst with
  | fault hleads => exact .fault hleads
  | ok hleads =>
    dsimp only
    have hsecond := hk hd _ hleads.within
    generalize (k _).run _ = r', (l _).run _ = q' at hsecond
    cases hsecond with
    | ok hleads' => exact .ok (hleads.trans hleads')
    | fault hleads' => exact .fault (hleads.trans hleads')

theorem Follows.map (h : Follows p d) (f : α → β) : Follows (f <$> p) (f <$> d) := by
  rw [map_eq_pure_bind, map_eq_pure_bind]
  exact h.bind fun _ => pure_follows _

/-- Within its bounds a slice is what is left, up to its length. -/
theorem run_slice {c : Cursor} {n : Nat} (h : c.pos + n ≤ c.body.length) :
    (slice c.body c.pos (c.pos + n)).run c = .ok (c.left.take n) c := by
  rw [slice, if_pos ⟨Nat.le_add_right _ _, h⟩, List.drop_take, Nat.add_sub_cancel_left]
  rfl

theorem take_follows (n : Nat) : Follows (take n) (Decoder.take n) := by
  intro c hc
  have hlength := c.length_left
  have hremaining : remaining.run c = .ok (c.body.length - c.pos) c := by
    simp only [remaining, EStateM.run_bind, EStateM.run_get, if_pos hc, EStateM.run_pure]
  rw [take, EStateM.run_bind, hremaining, Decoder.take, EStateM.run_bind, EStateM.run_get]
  dsimp only
  rw [Bytes.hasAtLeast_eq, hlength]
  by_cases hn : n ≤ c.body.length - c.pos
  · rw [if_neg (Nat.not_lt.2 hn), if_pos (decide_eq_true hn)]
    have hend : c.pos + n ≤ c.body.length := by omega
    have hleft : c.left.drop n = ({ c with pos := c.pos + n } : Cursor).left := List.drop_drop
    simp only [EStateM.run_bind, EStateM.run_get, EStateM.run_set, EStateM.run_pure, run_slice hend,
      hleft]
    exact .ok ⟨rfl, Nat.le_add_right _ _, hend⟩
  · rw [if_pos (Nat.not_le.1 hn), if_neg (by simpa using hn)]
    exact .fault (leads_refl hc)

theorem byte_follows : Follows byte Decoder.byte := by
  refine (take_follows 1).bind fun {body left bs} h => ?_
  obtain ⟨b, rfl⟩ := List.length_eq_one_iff.1 (Decoder.take_eq_ok h).2
  exact pure_follows b

theorem uint16_follows : Follows uint16 Decoder.uint16 := by
  refine (take_follows 2).bind fun {body left bs} h => ?_
  obtain ⟨hi, lo, rfl⟩ := List.length_eq_two.1 (Decoder.take_eq_ok h).2
  exact pure_follows (Bytes.toUInt16 hi lo)

theorem binary_follows : Follows binary Decoder.binary :=
  uint16_follows.bind fun {_ _ n} _ => take_follows n.toNat

theorem text_follows : Follows text Decoder.text := by
  refine binary_follows.bind fun {_ _ bs} _ => ?_
  cases Bytes.toText? bs with
  | some s => exact pure_follows s
  | none => exact throw_follows .invalidText

theorem rest_follows : Follows rest Decoder.rest := by
  intro c hc
  have hend : c.pos + (c.body.length - c.pos) = c.body.length := by omega
  have hslice := run_slice (Nat.le_of_eq hend)
  rw [hend, ← c.length_left, List.take_length] at hslice
  have hnothing : ({ c with pos := c.body.length } : Cursor).left = [] := List.drop_length
  rw [rest, EStateM.run_bind, EStateM.run_get]
  simp only [EStateM.run_bind, hslice, EStateM.run_set, EStateM.run_pure]
  show Alike c _ (.ok c.left [])
  rw [← hnothing]
  exact .ok ⟨rfl, hc, Nat.le_refl _⟩

end PlacedDecoder

/-! ### Calls -/

namespace FieldKind

/-- Takes a field at the place. -/
def readAt : FieldKind → PlacedDecoder Field
  | byte => .byte <$> PlacedDecoder.byte
  | uint16 => .uint16 <$> PlacedDecoder.uint16
  | text => .text <$> PlacedDecoder.text
  | binary => .binary <$> PlacedDecoder.binary

theorem readAt_follows (k : FieldKind) : k.readAt.Follows k.read := by
  cases k with
  | byte => exact PlacedDecoder.byte_follows.map _
  | uint16 => exact PlacedDecoder.uint16_follows.map _
  | text => exact PlacedDecoder.text_follows.map _
  | binary => exact PlacedDecoder.binary_follows.map _

end FieldKind

namespace BodyCall

/-- The placed decoder of a call. -/
def placedDecoder : BodyCall → PlacedDecoder BodyAnswer
  | read k => .field <$> k.readAt
  | rest => .rest <$> PlacedDecoder.rest

/-- A call on a cursor, and where it leads. Nothing if it is out of bounds. -/
def onCursor (c : Cursor) (call : BodyCall) : Option (BodyAnswer × Cursor) :=
  match call.placedDecoder.run c with
  | .ok a c' => some (a, c')
  | .error (.fault e) c' => some (.failed e, c')
  | .error .outOfBounds _ => none

/-- Calls in turn, with the place that each leads to. Nothing if one of them is out of bounds. -/
def walk : Cursor → List BodyCall → Option (List (BodyAnswer × Cursor))
  | _, [] => some []
  | c, call :: calls => do
    let step ← call.onCursor c
    let steps ← walk step.2 calls
    return step :: steps

theorem placedDecoder_follows (call : BodyCall) : call.placedDecoder.Follows call.decoder := by
  cases call with
  | read k => exact k.readAt_follows.map _
  | rest => exact PlacedDecoder.rest_follows.map _

theorem onCursor_follows {c : Cursor} (hc : c.pos ≤ c.body.length) (call : BodyCall) :
    ∃ a c', call.onCursor c = some (a, c') ∧ c.Leads c' ∧ call.onBody c.left = (a, c'.left) := by
  have h := call.placedDecoder_follows c hc
  rw [onCursor, onBody]
  generalize call.placedDecoder.run c = r, call.decoder.run c.left = q at h
  cases h with
  | ok hleads => exact ⟨_, _, rfl, hleads, rfl⟩
  | fault hleads => exact ⟨_, _, rfl, hleads, rfl⟩

/-- **Calls on a cursor stay within the body**, and get the answers of calls on what is left. -/
theorem walk_follows {c : Cursor} (hc : c.pos ≤ c.body.length) (calls : List BodyCall) :
    ∃ steps, walk c calls = some steps ∧ steps.map Prod.fst = answers c.left calls ∧
      (c :: steps.map Prod.snd).IsChain Cursor.Leads := by
  induction calls generalizing c with
  | nil => exact ⟨[], rfl, rfl, .singleton _⟩
  | cons call calls ih =>
    obtain ⟨a, c', hcursor, hleads, hbody⟩ := onCursor_follows hc call
    obtain ⟨steps, hwalk, hanswers, hchain⟩ := ih hleads.within
    refine ⟨(a, c') :: steps, ?_, ?_, List.isChain_cons_cons.2 ⟨hleads, hchain⟩⟩
    · rw [walk, hcursor]
      show (walk c' calls).bind _ = _
      rw [hwalk]
      rfl
    · rw [List.map_cons, answers, hbody, hanswers]

/-! ### Rows -/

/-- A byte string is the row of some fields, whatever it is appended to and whatever follows. -/
structure IsRow (fields : List Field) (row : Bytes) : Prop where
  /-- The fields, written in turn, append it to any writer. -/
  written : ∀ w : Writer, ∃ w', (fields.forM Field.write).run w = .ok () w' ∧
    w'.written = w.written ++ row
  /-- The same kinds, read in turn, give the fields, and what follows is left. -/
  comesBack : ∀ s, answers (row ++ s) (askFor fields ++ [.rest]) = fields.map .field ++ [.rest s]
  /-- If bytes are missing at the end, a read fails for want of them, and those before it give their
  fields. -/
  fails : ∀ part, part <+: row → part ≠ row →
    ∃ earlier need left later, earlier <+: fields ∧
      answers part (askFor fields) =
        earlier.map .field ++ .failed (.violation (.bodyTooShort need left)) :: later

/-- Calls from the start of a body are never out of bounds, each leads to a place in this body that
is neither before the last one nor behind the end, and the answers are those of the decoders. -/
def StaysWithin (body : Bytes) (calls : List BodyCall) : Prop :=
  ∃ steps, walk (.start body) calls = some steps ∧ steps.map Prod.fst = answers body calls ∧
    (.start body :: steps.map Prod.snd).IsChain Cursor.Leads

/-- **Fields are written and read exactly.** Fields that fit behind their lengths are written as one
row, which comes back field by field whatever follows it, and of which nothing but whole fields
comes back if bytes are missing at its end. Any calls on any body stay within it, those included
that come after one that has failed. -/
theorem isRow_and_staysWithin (fields : List Field) (hfits : ∀ f ∈ fields, f.Fits) :
    IsRow fields (fields.flatMap Field.bytes) ∧ ∀ body calls, StaysWithin body calls := by
  refine ⟨⟨fun w => ?_, fun s => ?_, fun part => answers_part hfits⟩, fun body calls => ?_⟩
  · exact (Encoder.forM_writes Field.writes fields).appends hfits w
  · exact answers_row hfits s [.rest]
  · exact walk_follows (Nat.zero_le _) calls

/-- A number, a text of two bytes, an empty byte string, and a byte. -/
def mixedRow : List Field := [.uint16 300, .text "é", .binary [], .byte 7]

theorem isRow_mixedRow :
    (∀ f ∈ mixedRow, f.Fits) ∧
      IsRow mixedRow [0x01, 0x2C, 0x00, 0x02, 0xC3, 0xA9, 0x00, 0x00, 0x07] ∧
      ∀ body calls, StaysWithin body calls := by
  have hfits : ∀ f ∈ mixedRow, f.Fits := by decide +kernel
  have hbytes : mixedRow.flatMap Field.bytes =
      [0x01, 0x2C, 0x00, 0x02, 0xC3, 0xA9, 0x00, 0x00, 0x07] := by decide +kernel
  rw [← hbytes]
  exact ⟨hfits, isRow_and_staysWithin mixedRow hfits⟩

end BodyCall
end Mqtt
