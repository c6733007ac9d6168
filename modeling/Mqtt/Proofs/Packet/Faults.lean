import Mqtt.Broker.Step
import Mqtt.Proofs.Frame.Assembler
/-!
# What can be wrong with what a peer has sent

A byte string that is no frame, a frame that is no packet, and a first packet that is not welcome
break a rule of the protocol or ask for a version of it that is not spoken (`Fault.IsBreach`), and
that is all that can be wrong with them: none of the other faults, such as that a token is cancelled
or that nothing has come for too long, is ever found in what a peer has sent. The version itself is
found wanting only at the front of a CONNECT; every other field breaks a rule that has nothing to do
with versions (`Fault.IsPlain`).

`Blames P` says of a result that it fails for such faults only, and `StepBlames P` says so of a
decoder. Both go along `>>=`, so each decoder is taken apart into its fields, and
`Packet.decode_blames` and `Broker.greet_blames` come out in the end.
-/

namespace Mqtt

/-- A breach of the rules of the protocol, or a version of it that is not spoken. -/
def Fault.IsBreach (f : Fault) : Prop := f.kind = .protocol ∨ f.kind = .unsupported

/-- A fault with the version that a CONNECT asks for. -/
def Fault.IsAboutVersion : Fault → Prop
  | .violation (.unknownProtocol ..) | .violation (.versionMismatch ..) => True
  | .unsupportedVersion _ => True
  | _ => False

/-- A breach of the rules of the protocol that has nothing to do with versions. -/
def Fault.IsPlain (f : Fault) : Prop := f.kind = .protocol ∧ ¬f.IsAboutVersion

theorem Violation.isBreach (v : Violation) : (Fault.violation v).IsBreach := .inl rfl

theorem Violation.isPlain {v : Violation} (h : ¬(Fault.violation v).IsAboutVersion) :
    (Fault.violation v).IsPlain := ⟨rfl, h⟩

theorem Fault.IsPlain.isBreach {f : Fault} (h : f.IsPlain) : f.IsBreach := .inl h.1

/-- What fails here fails for such a fault. -/
def Blames {α : Type} (P : Fault → Prop) (r : Except Fault α) : Prop := ∀ f, r = .error f → P f

/-- What fails here fails for such a fault, whatever the step finds. -/
def StepBlames {σ α : Type} (P : Fault → Prop) (x : EStateM Fault σ α) : Prop :=
  ∀ s f s', x.run s = .error f s' → P f

variable {σ α β : Type} {P Q : Fault → Prop}

/-! ### Results -/

theorem blames_ok (a : α) : Blames P (.ok a : Except Fault α) := by
  rintro f ⟨⟩

theorem blames_violate {v : Violation} (hv : P (.violation v)) :
    Blames P (violate v : Except Fault α) := by
  rintro f ⟨⟩
  exact hv

theorem Blames.mono {r : Except Fault α} (hr : Blames P r) (hPQ : ∀ f, P f → Q f) : Blames Q r :=
  fun f h => hPQ f (hr f h)

theorem Blames.bind_of_eq {r : Except Fault α} {k : α → Except Fault β} (hr : Blames P r)
    (hk : ∀ a, r = .ok a → Blames P (k a)) : Blames P (r >>= k) := by
  intro f h
  rcases r with e | a
  · cases h
    exact hr f rfl
  · exact hk a rfl f h

theorem Blames.bind {r : Except Fault α} {k : α → Except Fault β} (hr : Blames P r)
    (hk : ∀ a, Blames P (k a)) : Blames P (r >>= k) := hr.bind_of_eq fun a _ => hk a

theorem blames_check {c : Prop} [Decidable c] {v : Violation} {k : Unit → Except Fault α}
    (hv : P (.violation v)) (hk : Blames P (k ())) :
    Blames P (if c then violate v >>= k else k ()) := by
  split
  · exact (blames_violate hv).bind fun _ => hk
  · exact hk

/-! ### Steps -/

theorem stepBlames_pure (a : α) : StepBlames P (pure a : EStateM Fault σ α) := by
  rintro s f s' ⟨⟩

theorem stepBlames_get : StepBlames P (get : EStateM Fault σ σ) := by
  rintro s f s' ⟨⟩

theorem stepBlames_set (s : σ) : StepBlames P (set s : EStateM Fault σ PUnit) := by
  rintro s f s' ⟨⟩

theorem stepBlames_throw {v : Violation} (hv : P (.violation v)) :
    StepBlames P (throw (.violation v) : EStateM Fault σ α) := by
  rintro s f s' ⟨⟩
  exact hv

theorem StepBlames.mono {x : EStateM Fault σ α} (hx : StepBlames P x) (hPQ : ∀ f, P f → Q f) :
    StepBlames Q x := fun s f s' h => hPQ f (hx s f s' h)

theorem StepBlames.bind {x : EStateM Fault σ α} {k : α → EStateM Fault σ β} (hx : StepBlames P x)
    (hk : ∀ a, StepBlames P (k a)) : StepBlames P (x >>= k) := by
  intro s f s' h
  rw [EStateM.run_bind] at h
  cases hrun : x.run s with
  | ok a s₁ =>
    rw [hrun] at h
    exact hk a s₁ f s' h
  | error e s₁ =>
    rw [hrun] at h
    cases h
    exact hx s f s' hrun

theorem stepBlames_ite {c : Prop} [Decidable c] {x y : EStateM Fault σ α} (hx : StepBlames P x)
    (hy : StepBlames P y) : StepBlames P (if c then x else y) := by
  split
  · exact hx
  · exact hy

theorem stepBlames_check {c : Prop} [Decidable c] {v : Violation} {k : Unit → EStateM Fault σ β}
    (hv : P (.violation v)) (hk : StepBlames P (k ())) :
    StepBlames P (if c then throw (.violation v) >>= k else k () : EStateM Fault σ β) :=
  stepBlames_ite ((stepBlames_throw hv).bind fun _ => hk) hk

theorem stepBlames_ofExcept {r : Except Fault α} (hr : Blames P r) :
    StepBlames P (ofExcept r : EStateM Fault σ α) := by
  rcases r with e | a
  · rintro s f s' ⟨⟩
    exact hr e rfl
  · exact stepBlames_pure a

/-! ### Decoders -/

namespace Decoder

theorem take_blames (n : Nat) : StepBlames Fault.IsPlain (take n) := by
  refine StepBlames.bind stepBlames_get fun rest =>
    stepBlames_ite ?_ (stepBlames_throw (Violation.isPlain id))
  exact StepBlames.bind (stepBlames_set _) fun _ => stepBlames_pure _

theorem byte_blames : StepBlames Fault.IsPlain byte :=
  (take_blames 1).bind fun _ => stepBlames_pure _

theorem uint16_blames : StepBlames Fault.IsPlain uint16 := by
  refine (take_blames 2).bind fun bs => ?_
  split <;> exact stepBlames_pure _

theorem binary_blames : StepBlames Fault.IsPlain binary := uint16_blames.bind fun _ => take_blames _

theorem text_blames : StepBlames Fault.IsPlain text := by
  refine binary_blames.bind fun bs => ?_
  split
  · exact stepBlames_pure _
  · exact stepBlames_throw (Violation.isPlain id)

theorem rest_blames : StepBlames Fault.IsPlain rest :=
  stepBlames_get.bind fun _ => (stepBlames_set _).bind fun _ => stepBlames_pure _

theorem untilEmpty_blames {item : Decoder α} (h : StepBlames P item) (fuel : Nat)
    (taken : List α) : StepBlames P (untilEmpty item fuel taken) := by
  induction fuel generalizing taken with
  | zero => exact stepBlames_pure _
  | succ fuel ih =>
    refine StepBlames.bind stepBlames_get fun rest => ?_
    exact stepBlames_ite (stepBlames_pure _) (h.bind fun a => ih (a :: taken))

theorem all_blames {item : Decoder α} (h : StepBlames P item) : StepBlames P (all item) :=
  StepBlames.bind stepBlames_get fun _ => untilEmpty_blames h _ _

theorem decode_blames {d : Decoder α} (h : StepBlames P d) (body : Bytes) :
    Blames P (d.decode body) := by
  intro f hf
  rw [decode] at hf
  cases hrun : d.run body with
  | ok a left =>
    rw [hrun] at hf
    cases hf
  | error e left =>
    rw [hrun] at hf
    cases hf
    exact h body f left hrun

end Decoder

/-! ### Numbers that name something -/

theorem QoS.parse_blames (n : UInt8) : Blames Fault.IsPlain (QoS.parse n) := by
  unfold QoS.parse
  split
  · exact blames_ok _
  · exact blames_violate (Violation.isPlain id)

theorem ConnectCode.parse_blames (n : UInt8) : Blames Fault.IsPlain (ConnectCode.parse n) := by
  unfold ConnectCode.parse
  split
  · exact blames_ok _
  · exact blames_violate (Violation.isPlain id)

theorem SubscribeCode.parse_blames (n : UInt8) : Blames Fault.IsPlain (SubscribeCode.parse n) := by
  unfold SubscribeCode.parse
  split
  · exact blames_ok _
  · exact blames_violate (Violation.isPlain id)

theorem Version.ofProtocol_blames (name : String) (level : UInt8) :
    Blames Fault.IsBreach (Version.ofProtocol name level) := by
  unfold Version.ofProtocol
  split_ifs
  · exact blames_ok _
  · exact blames_ok _
  · rintro f ⟨⟩
    exact .inr rfl
  · exact blames_violate (Violation.isBreach _)

/-! ### Topics -/

theorem Topic.checkText_blames (role : TopicRole) (s : String) :
    Blames Fault.IsBreach (checkText role s) := by
  unfold checkText
  split_ifs
  · exact blames_violate (Violation.isBreach _)
  · exact blames_violate (Violation.isBreach _)
  · exact blames_violate (Violation.isBreach _)
  · exact blames_ok _

theorem Topic.validate_blames (topic : String) : Blames Fault.IsBreach (validate topic) := by
  refine (checkText_blames .topic topic).bind fun _ => ?_
  split_ifs
  · exact blames_violate (Violation.isBreach _)
  · exact blames_ok _

/-! ### Frames -/

/-- Takes the name and the level at the front of a CONNECT, and finds the version that they stand
for. -/
def Decoder.version : Decoder Version := do
  let name ← Decoder.text
  let level ← Decoder.byte
  ofExcept (Version.ofProtocol name level)

theorem Decoder.version_blames : StepBlames Fault.IsBreach Decoder.version := by
  refine (text_blames.mono fun _ => Fault.IsPlain.isBreach).bind fun name => ?_
  refine (byte_blames.mono fun _ => Fault.IsPlain.isBreach).bind fun level => ?_
  exact stepBlames_ofExcept (Version.ofProtocol_blames name level)

namespace Frame

variable {f : Frame}

theorem kind_blames (f : Frame) : Blames Fault.IsPlain f.kind := by
  unfold kind PacketKind.ofHeader
  split
  · exact blames_ok _
  · exact blames_violate (Violation.isPlain id)

theorem decodeBody_blames {d : Decoder α} (hmissing : P (.violation .missingBody))
    (h : StepBlames P d) : Blames P (f.decodeBody d) := by
  unfold decodeBody
  split_ifs
  · exact blames_violate hmissing
  · exact Decoder.decode_blames h _

theorem version_blames (f : Frame) : Blames Fault.IsBreach f.version := by
  refine (f.kind_blames.mono fun _ => Fault.IsPlain.isBreach).bind fun k => ?_
  exact blames_check (Violation.isBreach _)
    (decodeBody_blames (Violation.isBreach _) Decoder.version_blames)

end Frame

/-- What is found in front is a frame, unless a rule is broken. -/
theorem Assembler.next_blames (a : Assembler) : Blames Fault.IsBreach a.next := by
  intro e h
  rcases Frame.look_eq_error.1 (look_of_next_eq_error h) with ⟨-, rfl⟩ | ⟨n, -, -, rfl⟩
  · exact Violation.isBreach _
  · exact Violation.isBreach _

/-! ### Packets -/

namespace Packet

open Decoder (text_blames byte_blames uint16_blames binary_blames rest_blames)

theorem decodeOptional_blames {present : Bool} {d : Decoder α} (h : StepBlames P d) :
    StepBlames P (decodeOptional present d) := by
  refine stepBlames_ite ?_ (stepBlames_pure _)
  rw [map_eq_pure_bind]
  exact h.bind fun a => stepBlames_pure _

/-- Behind the version a CONNECT is read alike whichever it is, and nothing there is at odds with
it. -/
theorem exists_connectFields : ∃ fields : Decoder Connect, StepBlames Fault.IsPlain fields ∧
    ∀ v, decodeConnect v = (do
      let asked ← Decoder.version
      if asked ≠ v then Decoder.violated (.versionMismatch asked v)
      fields) := by
  refine ⟨?fields, ?plain, fun v => ?read⟩
  case read =>
    simp only [Decoder.version, bind_assoc]
    rfl
  case plain =>
    refine byte_blames.bind fun flags => stepBlames_check (Violation.isPlain id) ?_
    refine (stepBlames_ofExcept (QoS.parse_blames _)).bind fun willQoS => ?_
    refine stepBlames_check (Violation.isPlain id) (stepBlames_check (Violation.isPlain id) ?_)
    refine uint16_blames.bind fun keepAlive => text_blames.bind fun clientId => ?_
    refine stepBlames_check (Violation.isPlain id) ((decodeOptional_blames ?_).bind fun will => ?_)
    · exact text_blames.bind fun topic => binary_blames.bind fun payload => stepBlames_pure _
    refine (decodeOptional_blames text_blames).bind fun username => ?_
    exact (decodeOptional_blames binary_blames).bind fun password => stepBlames_pure _

theorem decodeConnect_blames (v : Version) : StepBlames Fault.IsBreach (decodeConnect v) := by
  obtain ⟨fields, hfields, hread⟩ := exists_connectFields
  rw [hread]
  refine Decoder.version_blames.bind fun asked => stepBlames_check (Violation.isBreach _) ?_
  exact hfields.mono fun _ => Fault.IsPlain.isBreach

theorem decodeConnAck_blames (v : Version) : StepBlames Fault.IsPlain (decodeConnAck v) := by
  refine byte_blames.bind fun first => byte_blames.bind fun code => ?_
  exact (stepBlames_ofExcept (ConnectCode.parse_blames code)).bind fun _ => stepBlames_pure _

theorem decodePublish_blames (f : Frame) : Blames Fault.IsPlain (decodePublish f) := by
  refine (QoS.parse_blames _).bind fun qos => Frame.decodeBody_blames (Violation.isPlain id) ?_
  refine text_blames.bind fun topic => (decodeOptional_blames ?_).bind fun packetId => ?_
  · exact uint16_blames.bind fun n => stepBlames_check (Violation.isPlain id) (stepBlames_pure n)
  · exact rest_blames.bind fun payload => stepBlames_pure _

theorem decodeSubscription_blames : StepBlames Fault.IsPlain decodeSubscription := by
  refine text_blames.bind fun filter => byte_blames.bind fun asked => ?_
  refine stepBlames_check (Violation.isPlain id) ?_
  exact (stepBlames_ofExcept (QoS.parse_blames asked)).bind fun qos => stepBlames_pure _

theorem decodeList_blames {item : Decoder α} {missing : Violation}
    (h : StepBlames Fault.IsPlain item) (hmissing : Fault.IsPlain (.violation missing)) :
    StepBlames Fault.IsPlain (decodeList item missing) :=
  uint16_blames.bind fun _ => (Decoder.all_blames h).bind fun _ =>
    stepBlames_check hmissing (stepBlames_pure _)

theorem decodeId_blames (f : Frame) : Blames Fault.IsPlain (decodeId f) := by
  unfold decodeId
  split
  · exact blames_violate (Violation.isPlain id)
  · exact blames_ok _
  · exact blames_violate (Violation.isPlain id)

theorem decodeEmpty_blames (f : Frame) (p : Packet) : Blames Fault.IsPlain (decodeEmpty f p) := by
  unfold decodeEmpty
  split_ifs
  · exact blames_ok _
  · exact blames_violate (Violation.isPlain id)

/-- Only a CONNECT can be at odds with a version. -/
theorem decode_isPlain {v : Version} {f : Frame} (hkind : f.kind ≠ .ok .connect) :
    Blames Fault.IsPlain (decode v f) := by
  refine f.kind_blames.bind_of_eq fun kind hk => ?_
  have hmissing : Fault.IsPlain (.violation .missingBody) := Violation.isPlain id
  have hid (p : UInt16 → Packet) : Blames Fault.IsPlain (decodeId f >>= fun id => pure (p id)) :=
    (decodeId_blames f).bind fun _ => blames_ok _
  cases kind with
  | connect => exact absurd hk hkind
  | connAck =>
    exact (Frame.decodeBody_blames hmissing (decodeConnAck_blames v)).bind fun _ => blames_ok _
  | publish => exact (decodePublish_blames f).bind fun _ => blames_ok _
  | pubAck | pubRec | pubRel | pubComp | unsubAck => exact hid _
  | subscribe =>
    exact (Frame.decodeBody_blames hmissing (decodeList_blames decodeSubscription_blames
      (Violation.isPlain id))).bind fun _ => blames_ok _
  | subAck =>
    refine (Frame.decodeBody_blames hmissing (decodeList_blames ?_ (Violation.isPlain id))).bind
      fun _ => blames_ok _
    exact byte_blames.bind fun code => stepBlames_ofExcept (SubscribeCode.parse_blames code)
  | unsubscribe =>
    exact (Frame.decodeBody_blames hmissing (decodeList_blames text_blames
      (Violation.isPlain id))).bind fun _ => blames_ok _
  | pingReq | pingResp | disconnect => exact decodeEmpty_blames f _

/-- **A frame that cannot be decoded breaks a rule of the protocol**, or asks for a version of it
that is not spoken. -/
theorem decode_blames (v : Version) (f : Frame) : Blames Fault.IsBreach (decode v f) := by
  by_cases hkind : f.kind = .ok .connect
  · rw [decode, hkind]
    have hbody : Blames Fault.IsBreach (f.decodeBody (decodeConnect v)) :=
      Frame.decodeBody_blames (Violation.isBreach _) (decodeConnect_blames v)
    exact hbody.bind fun _ => blames_ok _
  · exact (decode_isPlain hkind).mono fun _ => Fault.IsPlain.isBreach

end Packet

/-- A first frame that is refused breaks a rule as well. -/
theorem Broker.greet_blames (f : Frame) : Blames Fault.IsBreach (greet f) := by
  refine f.version_blames.bind fun v => (Packet.decode_blames v f).bind fun p => ?_
  cases p with
  | connect c => exact blames_ok _
  | _ => exact blames_violate (Violation.isBreach _)

end Mqtt
