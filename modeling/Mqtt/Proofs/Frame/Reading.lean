import Mqtt.Proofs.Frame.Assembler
/-!
# Frames read from a source

However the bytes of a stream are cut into reads, and whatever reads fail, bring nothing or are
given up in between, an assembler hands out the frames that `Frame.split` finds at the front of the
stream (`readFrame_play`). What carries this is that the bytes handed out and the bytes still held
are together the bytes that were read (`Kept`): a call that ends without a frame leaves them as they
are, and so does an assembler that is told once more to retire.
-/

namespace Mqtt

/-! ### What reads bring -/

namespace Reading

/-- The bytes that a read brings. -/
def bytes : Reading → Bytes
  | .arrived bs => bs
  | .failed _ => []
  | .nothing => []

/-- The bytes that the reads of a source bring. -/
def bytesOf (source : List Reading) : Bytes := source.flatMap bytes

@[simp] theorem bytesOf_nil : bytesOf [] = [] := rfl

@[simp] theorem bytesOf_cons (r : Reading) (source : List Reading) :
    bytesOf (r :: source) = r.bytes ++ bytesOf source := rfl

/-- Reads that all bring bytes, what they bring together, and the source behind them. One read need
not bring all that has arrived. -/
inductive Brings : List Reading → Bytes → List Reading → Prop
  | done {source : List Reading} : Brings source [] source
  | whole {bs more : Bytes} {rest tail : List Reading} : bs ≠ [] → Brings rest more tail →
    Brings (.arrived bs :: rest) (bs ++ more) tail
  | piece {bs left more : Bytes} {rest tail : List Reading} : bs ≠ [] → left ≠ [] →
    Brings (.arrived left :: rest) more tail →
    Brings (.arrived (bs ++ left) :: rest) (bs ++ more) tail

/-- A read that brings no bytes, what the call answers that makes it, and the source behind it. -/
inductive Fruitless : List Reading → Option (Except Fault Frame) → List Reading → Prop
  | ended : Fruitless [] (some (.error .connectionClosed)) []
  | empty {rest : List Reading} :
    Fruitless (.arrived [] :: rest) (some (.error .connectionClosed)) rest
  | failed {reason : String} {rest : List Reading} :
    Fruitless (.failed reason :: rest) (some (.error (.io reason))) rest
  | nothing {rest : List Reading} : Fruitless (.nothing :: rest) none rest

variable {source tail rest : List Reading} {more : Bytes} {answer : Option (Except Fault Frame)}

/-- No byte is lost between two reads, and none is read twice. -/
theorem Brings.bytesOf_eq (h : Brings source more tail) :
    bytesOf source = more ++ bytesOf tail := by
  induction h with
  | done => rfl
  | whole _ _ ih => rw [bytesOf_cons, ih, List.append_assoc]; rfl
  | piece _ _ _ ih =>
    rw [bytesOf_cons] at ih ⊢
    simp only [bytes, List.append_assoc] at ih ⊢
    rw [ih]

theorem Fruitless.bytesOf_eq (h : Fruitless source answer rest) :
    bytesOf source = bytesOf rest := by
  cases h <;> rfl

/-- A read that brings no bytes brings no frame. -/
theorem Fruitless.ne_ok (h : Fruitless source answer rest) (f : Frame) : answer ≠ some (.ok f) := by
  cases h <;> simp

end Reading

namespace Assembler

open Reading

variable {limit n : Nat} {a : Assembler} {seen : Bytes} {fs : List Frame} {f : Frame} {e : Fault}

/-! ### One call -/

/-- How a call ends, from the assembler that has received all that the call reads, and the source
that is then left. -/
inductive Ends (a : Assembler) (tail : List Reading) :
    Option (Except Fault Frame) × Assembler × List Reading → Prop
  | frame {f : Frame} {n : Nat} : Frame.look a.limit a.buffer.toList = .ok (some (f, n)) →
    Ends a tail (some (.ok f), { a with pending := n }, tail)
  | refused {e : Fault} : Frame.look a.limit a.buffer.toList = .error e →
    Ends a tail (some (.error e), a, tail)
  | fruitless {answer : Option (Except Fault Frame)} {rest : List Reading} :
    Frame.look a.limit a.buffer.toList = .ok none → Fruitless tail answer rest →
    Ends a tail (answer, a, rest)

/-- A read takes all that has arrived, if it is not too much for one. -/
theorem go_of_drop_eq_nil {bs : Bytes} {rest : List Reading} (h : a.next = .ok none)
    (hbs : bs ≠ []) (hdrop : bs.drop readSize = []) :
    readFrame.go a (.arrived bs :: rest) = readFrame.go (a.receive bs) rest := by
  rw [readFrame.go, h]
  dsimp only
  rw [if_neg hbs]
  split
  · rfl
  · next hdrop' =>
    rw [hdrop] at hdrop'
    cases hdrop'

/-- What is too much for one read is left for the next. -/
theorem go_of_drop_eq_cons {bs left : Bytes} {b : UInt8} {rest : List Reading}
    (h : a.next = .ok none) (hbs : bs ≠ []) (hdrop : bs.drop readSize = b :: left) :
    readFrame.go a (.arrived bs :: rest) =
      readFrame.go (a.receive (bs.take readSize)) (.arrived (b :: left) :: rest) := by
  rw [readFrame.go, h]
  dsimp only
  rw [if_neg hbs]
  split
  · next hdrop' =>
    rw [hdrop] at hdrop'
    cases hdrop'
  · next hdrop' =>
    rw [hdrop] at hdrop'
    cases hdrop'
    rfl

/-- A call reads as long as its reads bring bytes and the frame in front is neither whole nor
refused. -/
theorem go_ends (a : Assembler) (source : List Reading) :
    ∃ a' more tail, Brings source more tail ∧ a'.limit = a.limit ∧ a'.pending = a.pending ∧
      a'.buffer.toList = a.buffer.toList ++ more ∧ Ends a' tail (readFrame.go a source) := by
  -- What a call does that need not read.
  have stays : ∀ {a source} (_ : Ends a source (readFrame.go a source)), ∃ a' more tail,
      Brings source more tail ∧ a'.limit = a.limit ∧ a'.pending = a.pending ∧
        a'.buffer.toList = a.buffer.toList ++ more ∧ Ends a' tail (readFrame.go a source) :=
    fun {a source} h => ⟨a, [], source, .done, rfl, rfl, (List.append_nil _).symm, h⟩
  induction a, source using readFrame.go.induct with
  | case1 a source e h =>
    apply stays
    rw [readFrame.go.eq_def, h]
    exact .refused (look_of_next_eq_error h)
  | case2 a source f a' h =>
    apply stays
    obtain ⟨n, hlook, rfl⟩ := look_of_next_eq_some h
    rw [readFrame.go.eq_def, h]
    exact .frame hlook
  | case3 a h =>
    apply stays
    rw [readFrame.go, h]
    exact .fruitless (look_of_next_eq_none h) .ended
  | case4 a h reason rest =>
    apply stays
    rw [readFrame.go, h]
    exact .fruitless (look_of_next_eq_none h) .failed
  | case5 a h rest =>
    apply stays
    rw [readFrame.go, h]
    exact .fruitless (look_of_next_eq_none h) .nothing
  | case6 a h rest =>
    apply stays
    rw [readFrame.go, h]
    exact .fruitless (look_of_next_eq_none h) .empty
  | case7 a h bs rest hbs hdrop ih =>
    obtain ⟨a', more, tail, hbrings, hlimit, hpending, hbuffer, hends⟩ := ih
    have hgo : readFrame.go a (.arrived bs :: rest) = readFrame.go (a.receive bs) rest :=
      go_of_drop_eq_nil h hbs hdrop
    refine ⟨a', bs ++ more, tail, .whole hbs hbrings, hlimit, hpending, ?_, hgo ▸ hends⟩
    rw [hbuffer, receive, ByteQueue.toList_push, List.append_assoc]
  | case8 a h bs rest hbs b left hdrop ih =>
    obtain ⟨a', more, tail, hbrings, hlimit, hpending, hbuffer, hends⟩ := ih
    have hgo : readFrame.go a (.arrived bs :: rest) =
        readFrame.go (a.receive (bs.take readSize)) (.arrived (b :: left) :: rest) :=
      go_of_drop_eq_cons h hbs hdrop
    have hbrings' : Brings (.arrived bs :: rest) (bs.take readSize ++ more) tail := by
      have htake : bs.take readSize ≠ [] := by
        rw [Ne, List.take_eq_nil_iff]
        rintro (hsize | hnil)
        · cases hsize
        · exact hbs hnil
      have := Brings.piece htake (List.cons_ne_nil b left) hbrings
      rwa [← hdrop, List.take_append_drop] at this
    refine ⟨a', bs.take readSize ++ more, tail, hbrings', hlimit, hpending, ?_, hgo ▸ hends⟩
    rw [hbuffer, receive, ByteQueue.toList_push, List.append_assoc]

theorem readFrame_ends (a : Assembler) (source : List Reading) :
    ∃ a' more tail, Brings source more tail ∧ a'.limit = a.limit ∧ a'.pending = 0 ∧
      a'.buffer.toList = a.rest ++ more ∧ Ends a' tail (a.readFrame source) := by
  obtain ⟨a', more, tail, hbrings, hlimit, hpending, hbuffer, hends⟩ := go_ends a.retire source
  refine ⟨a', more, tail, hbrings, hlimit, hpending, ?_, hends⟩
  rw [hbuffer, retire, ByteQueue.toList_drop, rest]

theorem Ends.bytesOf_eq {a : Assembler} {tail : List Reading}
    {r : Option (Except Fault Frame) × Assembler × List Reading} (h : Ends a tail r) :
    bytesOf tail = bytesOf r.2.2 := by
  cases h with
  | frame _ => rfl
  | refused _ => rfl
  | fruitless _ hfruit => exact hfruit.bytesOf_eq

/-! ### What an assembler keeps -/

/-- An assembler has received these bytes and handed out these frames: the bytes of the frames are
in front of those that it holds. -/
def Kept (limit : Nat) (a : Assembler) (seen : Bytes) (fs : List Frame) : Prop :=
  a.limit = limit ∧ ∃ front, seen = front ++ a.rest ∧ Frame.split limit front = (fs, [])

theorem kept_empty (limit : Nat) : Kept limit (empty limit) [] [] :=
  ⟨rfl, [], rfl, Frame.split_nil⟩

theorem Kept.retire (h : Kept limit a seen fs) : Kept limit a.retire seen fs := by
  obtain ⟨hlimit, front, hseen, hsplit⟩ := h
  exact ⟨hlimit, front, by rw [rest_retire, hseen], hsplit⟩

theorem Kept.receive (h : Kept limit a seen fs) (hs : a.pending = 0) (bs : Bytes) :
    Kept limit (a.receive bs) (seen ++ bs) fs := by
  obtain ⟨hlimit, front, rfl, hsplit⟩ := h
  exact ⟨hlimit, front, by rw [rest_receive hs, List.append_assoc], hsplit⟩

/-- The bytes of a frame that is handed out come to those in front. -/
theorem Kept.look (h : Kept limit a seen fs) (hs : a.pending = 0)
    (hlook : Frame.look a.limit a.buffer.toList = .ok (some (f, n))) :
    Kept limit { a with pending := n } seen (fs ++ [f]) := by
  obtain ⟨hlimit, front, rfl, hsplit⟩ := h
  refine ⟨hlimit, front ++ a.buffer.toList.take n, ?_, ?_⟩
  · rw [rest_of_retired hs, List.append_assoc]
    exact congrArg (front ++ ·) (List.take_append_drop n _).symm
  · rw [Frame.split_append, hsplit, List.nil_append, Frame.split_take (hlimit ▸ hlook)]

/-- The frames that have been handed out are the first ones in all that may come. -/
theorem Kept.isPrefix_split (h : Kept limit a seen fs) (more : Bytes) :
    fs <+: (Frame.split limit (seen ++ more)).1 := by
  obtain ⟨-, front, rfl, hsplit⟩ := h
  rw [List.append_assoc, Frame.split_append, hsplit]
  exact List.prefix_append _ _

/-- Every frame has been handed out if none is in front. -/
theorem Kept.split_eq (h : Kept limit a seen fs) (hs : a.pending = 0)
    (hlook : Frame.look a.limit a.buffer.toList = .ok none) : (Frame.split limit seen).1 = fs := by
  obtain ⟨hlimit, front, rfl, hsplit⟩ := h
  rw [Frame.split_append, hsplit, List.nil_append, rest_of_retired hs,
    Frame.split_of_none (hlimit ▸ hlook), List.append_nil]

/-- The frames among some answers. -/
def framesOf (answers : List (Option (Except Fault Frame))) : List Frame :=
  answers.filterMap fun
    | some (.ok f) => some f
    | _ => none

theorem framesOf_cons (answer : Option (Except Fault Frame))
    (answers : List (Option (Except Fault Frame))) :
    framesOf (answer :: answers) = framesOf [answer] ++ framesOf answers := by
  rw [← List.singleton_append, framesOf, List.filterMap_append]
  rfl

theorem framesOf_of_ne_ok {answer : Option (Except Fault Frame)}
    (h : ∀ f, answer ≠ some (.ok f)) : framesOf [answer] = [] := by
  rcases answer with _ | e | f
  · rfl
  · rfl
  · exact absurd rfl (h f)

/-- **One call reads bytes, and hands out the next frame or none.** -/
theorem Kept.readFrame (h : Kept limit a seen fs) (source : List Reading) :
    let r := a.readFrame source
    ∃ more, bytesOf source = more ++ bytesOf r.2.2 ∧
      Kept limit r.2.1 (seen ++ more) (fs ++ framesOf [r.1]) := by
  obtain ⟨hlimit, front, hseen, hsplit⟩ := h
  obtain ⟨a', more, tail, hbrings, hlimit', hpending, hbuffer, hends⟩ := readFrame_ends a source
  have hkept : Kept limit a' (seen ++ more) fs := by
    refine ⟨hlimit'.trans hlimit, front, ?_, hsplit⟩
    rw [rest_of_retired hpending, hbuffer, hseen, List.append_assoc]
  intro r
  refine ⟨more, by rw [← hends.bytesOf_eq, hbrings.bytesOf_eq], ?_⟩
  change Ends a' tail r at hends
  generalize r = r at hends
  cases hends with
  | frame hlook => exact hkept.look hpending hlook
  | refused _ =>
    rw [framesOf_of_ne_ok (by simp), List.append_nil]
    exact hkept
  | fruitless _ hfruit =>
    rw [framesOf_of_ne_ok hfruit.ne_ok, List.append_nil]
    exact hkept

/-! ### Many calls -/

/-- What the owner of an assembler does with it. -/
inductive Use where
  /-- Asks for the next frame. -/
  | next
  /-- Retires the last frame. -/
  | retire

/-- What has come of some uses. -/
structure Played where
  /-- The answers to the calls for a frame, in order. -/
  answers : List (Option (Except Fault Frame))
  /-- The assembler afterwards. -/
  assembler : Assembler
  /-- The source afterwards. -/
  source : List Reading

/-- The frames that were handed out, in order. -/
def Played.frames (p : Played) : List Frame := framesOf p.answers

/-- Uses an assembler many times on one source. -/
def play (a : Assembler) : List Use → List Reading → Played
  | [], source => ⟨[], a, source⟩
  | .retire :: uses, source => a.retire.play uses source
  | .next :: uses, source =>
    let r := a.readFrame source
    let p := r.2.1.play uses r.2.2
    { p with answers := r.1 :: p.answers }

theorem Kept.play (h : Kept limit a seen fs) (uses : List Use) (source : List Reading) :
    let p := a.play uses source
    ∃ more, bytesOf source = more ++ bytesOf p.source ∧
      Kept limit p.assembler (seen ++ more) (fs ++ p.frames) := by
  induction uses generalizing a seen fs source with
  | nil =>
    refine ⟨[], rfl, ?_⟩
    simpa [Assembler.play, Played.frames, framesOf] using h
  | cons use uses ih =>
    cases use with
    | retire => exact ih h.retire source
    | next =>
      obtain ⟨more, hmore, hkept⟩ := h.readFrame source
      obtain ⟨more', hmore', hkept'⟩ := ih hkept _
      refine ⟨more ++ more', by rw [hmore, hmore', List.append_assoc]; rfl, ?_⟩
      rw [Played.frames, Assembler.play, framesOf_cons, ← List.append_assoc, ← List.append_assoc]
      exact hkept'

/-- A refusal is met by every later call, whatever the source still brings. -/
theorem play_of_refused (h : Frame.look a.limit a.rest = .error e) (uses : List Use)
    (source : List Reading) :
    ∀ answer ∈ (a.play uses source).answers, answer = some (.error e) := by
  induction uses generalizing a source with
  | nil => exact fun answer hanswer => nomatch hanswer
  | cons use uses ih =>
    cases use with
    | retire => exact ih (rest_retire.symm ▸ h) source
    | next =>
      -- More bytes may have come behind those that are refused, and do not mend them.
      obtain ⟨a', more, tail, -, hlimit, hpending, hbuffer, hends⟩ := readFrame_ends a source
      have hlook : Frame.look a'.limit a'.buffer.toList = .error e := by
        rw [hlimit, hbuffer]
        exact Frame.look_append_of_error h more
      rw [play]
      generalize a.readFrame source = r at hends
      cases hends with
      | frame hlook' =>
        rw [hlook] at hlook'
        cases hlook'
      | @refused e' hlook' =>
        rw [hlook] at hlook'
        cases hlook'
        refine List.forall_mem_cons.2 ⟨rfl, ih ?_ _⟩
        rwa [rest, hpending, List.drop_zero]
      | fruitless hlook' _ =>
        rw [hlook] at hlook'
        cases hlook'

/-- **What is read from a stream.** Take any uses of a new assembler on any source, and the call for
a frame that follows them. The bytes of the frames that were handed out, those still held, and those
of the reads to come are together the bytes of the source. The call makes reads that bring bytes,
and then it

* hands out the frame that comes next in the source,
* or has met a frame that is refused, behind all frames that can be taken from the source, and every
  later call meets it too,
* or makes a read that brings no bytes, which alone decides what it answers, when every whole frame
  among the bytes that were read has been handed out. -/
theorem readFrame_play (limit : Nat) (uses : List Use) (source : List Reading) :
    let p := (empty limit).play uses source
    let r := p.assembler.readFrame p.source
    ∃ front more tail,
      bytesOf source = front ++ p.assembler.rest ++ bytesOf p.source ∧
      Frame.split limit front = (p.frames, []) ∧
      bytesOf p.source = more ++ bytesOf r.2.2 ∧ Brings p.source more tail ∧
      ((∃ f, r.1 = some (.ok f) ∧ r.2.2 = tail ∧
          p.frames ++ [f] <+: (Frame.split limit (bytesOf source)).1) ∨
        (∃ e left, r.1 = some (.error e) ∧ r.2.2 = tail ∧
          Frame.split limit (bytesOf source) = (p.frames, left) ∧
          Frame.look limit left = .error e ∧
          ∀ uses' source', ∀ answer ∈ (r.2.1.play uses' source').answers,
            answer = some (.error e)) ∨
        (Fruitless tail r.1 r.2.2 ∧
          Frame.split limit (front ++ p.assembler.rest ++ more) =
            (p.frames, p.assembler.rest ++ more) ∧
          Frame.look limit (p.assembler.rest ++ more) = .ok none)) := by
  intro p r
  obtain ⟨seen, hsource, hlimit, front, hseen, hsplit⟩ := (kept_empty limit).play uses source
  change bytesOf source = seen ++ bytesOf p.source at hsource
  change p.assembler.limit = limit at hlimit
  rw [List.nil_append] at hseen hsplit
  change seen = front ++ p.assembler.rest at hseen
  change Frame.split limit front = (p.frames, []) at hsplit
  rw [hseen] at hsource
  obtain ⟨a', more, tail, hbrings, hlimit', hpending, hbuffer, hends⟩ :=
    readFrame_ends p.assembler p.source
  rw [hlimit] at hlimit'
  have hbytes : bytesOf p.source = more ++ bytesOf r.2.2 := by
    rw [hbrings.bytesOf_eq, hends.bytesOf_eq]
  have hfront (bs : Bytes) : Frame.split limit (front ++ bs) =
      (p.frames ++ (Frame.split limit bs).1, (Frame.split limit bs).2) := by
    rw [Frame.split_append, hsplit]
    rfl
  -- The bytes that are held at the end of the call are in front of those that have not come.
  have hall : bytesOf source = front ++ (a'.buffer.toList ++ bytesOf r.2.2) := by
    rw [hsource, hbytes, hbuffer, List.append_assoc, List.append_assoc]
  refine ⟨front, more, tail, hsource, hsplit, hbytes, hbrings, ?_⟩
  rw [hall, hfront, List.append_assoc, hfront, ← hbuffer]
  change Ends a' tail r at hends
  generalize r = r at hends
  cases hends with
  | @frame f n hlook =>
    rw [hlimit'] at hlook
    refine .inl ⟨f, rfl, rfl, ?_⟩
    rw [Frame.split_of_some (Frame.look_append hlook _)]
    exact (List.prefix_append_right_inj _).2 (List.cons_prefix_cons.2 ⟨rfl, List.nil_prefix⟩)
  | @refused e hlook =>
    have hrest : a'.rest = a'.buffer.toList := by
      rw [rest, hpending, List.drop_zero]
    have hstays := play_of_refused (hrest.symm ▸ hlook)
    rw [hlimit'] at hlook
    have hlook' := Frame.look_append_of_error hlook (bytesOf tail)
    refine .inr (.inl ⟨e, _, rfl, rfl, ?_, hlook', hstays⟩)
    rw [Frame.split_of_error hlook', List.append_nil]
  | fruitless hlook hfruit =>
    rw [hlimit'] at hlook
    refine .inr (.inr ⟨hfruit, ?_, hlook⟩)
    rw [Frame.split_of_none hlook, List.append_nil]

end Assembler
end Mqtt
