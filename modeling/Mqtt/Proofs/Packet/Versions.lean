import Mqtt.Proofs.Packet.Canonical
import Mqtt.Proofs.Packet.Faults
import Mqtt.Proofs.Packet.Filters
/-!
# The version of a CONNECT

Which version a CONNECT asks for is found out twice: a session reads its first two fields to pick
the version (`Frame.version`), and the decoder of that version reads the same two fields again.
Since both do so with one decoder, and look at nothing before it, the second answer is the first.
Only then do the versions part: the one that was found goes on to fields that it shares with the
other, and the other stops (`exists_decode_of_version`).

`decode_version` says this of every frame. Apart from CONNECT and CONNACK the version makes no
difference at all (`decode_eq_decode`).
-/

namespace Mqtt

variable {α β : Type} {f : Frame}

/-! ### The front of a body -/

namespace Frame

/-- What stops a decoder stops it with more to come. -/
theorem decodeBody_bind_of_error {d : Decoder α} {e : Fault} (k : α → Decoder β)
    (h : f.decodeBody d = .error e) : f.decodeBody (d >>= k) = .error e := by
  unfold decodeBody at h ⊢
  split_ifs at h ⊢ with hbody
  · cases h
    rfl
  · unfold Decoder.decode at h ⊢
    rw [EStateM.run_bind]
    cases hrun : d.run f.body with
    | ok a left => simp [hrun] at h
    | error e' left => simpa [hrun] using h

/-- What follows a decoder reads what it has left. -/
theorem exists_decodeBody_bind {d : Decoder α} {a : α} (h : f.decodeBody d = .ok a) :
    ∃ left, ∀ {β : Type} (k : α → Decoder β), f.decodeBody (d >>= k) = (k a).decode left := by
  unfold decodeBody at h ⊢
  split_ifs at h ⊢ with hbody
  · cases h
  · unfold Decoder.decode at h ⊢
    cases hrun : d.run f.body with
    | ok a' left =>
      simp only [hrun] at h
      cases h
      exact ⟨left, fun k => by rw [EStateM.run_bind, hrun]⟩
    | error e left => simp [hrun] at h

theorem kind_of_version {v : Version} (h : f.version = .ok v) : f.kind = .ok .connect := by
  unfold version at h
  rcases hkind : f.kind with e | k
  · rw [hkind] at h
    cases h
  · by_contra hne
    rw [hkind, Packet.bind_of_eq_ok rfl, if_pos (fun hk => hne (congrArg _ hk))] at h
    cases h

/-- Of a CONNECT the version is what is found in front. -/
theorem version_eq (hkind : f.kind = .ok .connect) : f.version = f.decodeBody Decoder.version := by
  rw [version, hkind]
  rfl

end Frame

namespace Packet

/-! ### A CONNECT -/

theorem decode_connect (v : Version) (hkind : f.kind = .ok .connect) :
    decode v f = connect <$> f.decodeBody (decodeConnect v) := by
  rw [decode, hkind, map_eq_pure_bind]
  rfl

/-- If no version is found, no version decodes the frame, and for the same reason. -/
theorem decode_of_version_error {e : Fault} (hkind : f.kind = .ok .connect)
    (h : f.version = .error e) (v : Version) : decode v f = .error e := by
  obtain ⟨fields, -, hread⟩ := exists_connectFields
  rw [Frame.version_eq hkind] at h
  rw [decode_connect v hkind, hread v, Frame.decodeBody_bind_of_error _ h]
  rfl

/-- The version that is found decodes the frame or breaks a rule that has nothing to do with
versions; every other version stops at it. -/
theorem exists_decode_of_version {v : Version} (h : f.version = .ok v) :
    Blames Fault.IsPlain (decode v f) ∧
      ∀ v', v' ≠ v → decode v' f = violate (.versionMismatch v v') := by
  have hkind := Frame.kind_of_version h
  rw [Frame.version_eq hkind] at h
  obtain ⟨fields, hfields, hread⟩ := exists_connectFields
  obtain ⟨left, hleft⟩ := Frame.exists_decodeBody_bind h
  refine ⟨?_, fun v' hne => ?_⟩
  · rw [decode_connect v hkind, hread v, hleft, if_neg (not_not.2 rfl), map_eq_pure_bind]
    exact (Decoder.decode_blames hfields left).bind fun _ => blames_ok _
  · rw [decode_connect v' hkind, hread v', hleft, if_pos hne.symm]
    rfl

/-- What is decoded as a CONNECT is decoded under the version that is found. -/
theorem version_of_decode {v : Version} {c : Connect} (h : decode v f = .ok (connect c)) :
    f.version = .ok v := by
  rcases hversion : f.version with e | v'
  · rw [decode_of_version_error (kind_of_decode h) hversion] at h
    cases h
  · by_contra hne
    rw [(exists_decode_of_version hversion).2 v fun heq => hne (congrArg _ heq.symm)] at h
    cases h

/-! ### Every frame -/

/-- Only CONNECT and CONNACK are read by version. -/
theorem decode_eq_decode (hconnect : f.kind ≠ .ok .connect) (hconnAck : f.kind ≠ .ok .connAck)
    (v v' : Version) : decode v f = decode v' f := by
  unfold decode
  rcases hkind : f.kind with e | kind
  · rfl
  · cases kind with
    | connect => exact absurd hkind hconnect
    | connAck => exact absurd hkind hconnAck
    | _ => rfl

/-- **A CONNECT is decoded under the version that is found in it, and under no other.** If a version
is found in a CONNECT, every other stops at that, and the one that is found never does: what it may
find wrong has nothing to do with versions. If none is found, all decoders fail as the search has.
So what is decoded as a CONNECT is decoded under the version that is found. A frame that is neither
CONNECT nor CONNACK is the same packet, or has the same fault, in all versions. -/
theorem decode_version (f : Frame) :
    (f.kind = .ok .connect →
      (∀ v, f.version = .ok v →
        (∀ v', v' ≠ v → decode v' f = violate (.versionMismatch v v')) ∧
        ∀ e, decode v f = .error e → ¬e.IsAboutVersion) ∧
      ∀ e, f.version = .error e → ∀ v, decode v f = .error e) ∧
    (∀ v c, decode v f = .ok (connect c) → f.version = .ok v) ∧
    (f.kind ≠ .ok .connect → f.kind ≠ .ok .connAck → ∀ v v', decode v f = decode v' f) := by
  refine ⟨fun hkind => ⟨fun v hv => ?_, fun e he v => decode_of_version_error hkind he v⟩,
    fun _ _ => version_of_decode, decode_eq_decode⟩
  obtain ⟨hplain, hother⟩ := exists_decode_of_version hv
  exact ⟨hother, fun e he => (hplain e he).2⟩

end Packet

/-- A session is opened in the version whose decoder takes its first frame for a CONNECT. -/
theorem Broker.greet_eq_ok {v : Version} {c : Connect} :
    greet f = .ok (v, c) ↔ Packet.decode v f = .ok (.connect c) := by
  refine ⟨fun h => ?_, fun h => ?_⟩
  · obtain ⟨v', -, h⟩ := Packet.of_bind_eq_ok h
    obtain ⟨p, hp, h⟩ := Packet.of_bind_eq_ok h
    cases p <;> cases h
    exact hp
  · rw [greet, Packet.version_of_decode h, Packet.bind_of_eq_ok rfl, h]
    rfl

end Mqtt
