import Mqtt.Proofs.Broker.Reads
import Mqtt.Proofs.Broker.Replies
/-!
# What a session has said to its client

At every moment a session has said the beginning of what it is to say (`Answered`): while it has no
answer to write, everything; while it writes one, everything but this one; and once it has ended,
everything unless something kept it from writing (`Kept`). `answered_of_replay` says this of every
run, turn by turn.
-/

namespace Mqtt
namespace Broker

open Mqtt.Frame (replies GoesOn)

variable {b b' b₁ : Broker} {c d : ConnId} {t : Task} {m : Move} {e : Event} {es : List Event}
  {k : Conn} {phase : Phase} {x x' : Option Phase} {v? v'? : Option Version}
  {frames : List Frame} {answers : List Bytes} {kept kept' : Prop}
  {seen heard more : List Observation} {log : List Deed}

/-! ### What has been said -/

/-- Nothing keeps a session from answering: it is not told to end while it is open, and no write
into its stream fails. -/
structure Kept (c : ConnId) (b : Broker) (es : List Event) : Prop where
  lives : b.Always es fun b _ => c ∈ b.registry → Lives c b
  writes : b.Never es (FailsWrite c)

/-- What has been said over a connection to the frames that it has taken, by where its task
stands. -/
def Answered (frames : List Frame) (answers : List Bytes) (kept : Prop) (v? : Option Version) :
    Option Phase → Prop
  | none | some .greeting => frames = [] ∧ answers = []
  -- Everything.
  | some (.reading _) | some (.forwarding _ _) =>
    ∃ v, v? = some v ∧ GoesOn v frames ∧ answers.map .ok = replies frames
  -- Everything but the answer to the last frame, which is being written.
  | some (.replying d after) =>
    (∃ v, v? = some v ∧ GoesOn v frames) ∧ answers.map .ok = replies frames.dropLast ∧
      replies frames = replies frames.dropLast ++ [d.frame] ∧ (answers = [] ↔ after = .announce)
  -- What there was to say, unless the last answer could not be written.
  | some (.closing _) | some (.shutting _) | some (.over _) =>
    answers.map .ok <+: replies frames ∧ (kept → answers.map .ok = replies frames)

theorem answered_of_owesNothing (h : phase.owesNothing = true) :
    Answered frames answers kept v? (some phase) ↔
      ∃ v, v? = some v ∧ GoesOn v frames ∧ answers.map .ok = replies frames := by
  cases phase with
  | reading _ | forwarding _ _ => rfl
  | _ => cases h

/-- Whoever has said everything has said something. -/
theorem Answered.ne_nil (h : Answered frames answers kept v? (some phase))
    (howes : phase.owesNothing = true) : answers ≠ [] := by
  obtain ⟨v, -, hgoes, hsaid⟩ := (answered_of_owesNothing howes).1 h
  rintro rfl
  exact hgoes.replies_ne_nil hsaid.symm

theorem Answered.mono (h : Answered frames answers kept v? x)
    (hv : ∀ v, v? = some v → v'? = some v) (hkept : kept' → kept) :
    Answered frames answers kept' v'? x := by
  rcases x with _ | phase
  · exact h
  cases phase with
  | greeting => exact h
  | reading _ | forwarding _ _ =>
    -- The version of a session never changes.
    obtain ⟨v, hv', h⟩ := h
    exact ⟨v, hv v hv', h⟩
  | replying _ _ =>
    obtain ⟨⟨v, hv', hgoes⟩, h⟩ := h
    exact ⟨⟨v, hv v hv', hgoes⟩, h⟩
  | _ => exact ⟨h.1, fun hk => h.2 (hkept hk)⟩

/-- What has been said is the beginning of what is to be said. -/
theorem Answered.isPrefix (h : Answered frames answers kept v? x) :
    answers.map .ok <+: replies frames := by
  rcases x with _ | phase
  · rw [h.2]
    exact List.nil_prefix
  cases phase with
  | greeting =>
    rw [h.2]
    exact List.nil_prefix
  | reading _ | forwarding _ _ =>
    -- All has been said.
    obtain ⟨v, -, -, hsaid⟩ := h
    rw [hsaid]
  | replying _ _ =>
    -- All but the last has been said.
    obtain ⟨-, hsaid, hrest, -⟩ := h
    rw [hrest, hsaid]
    exact List.prefix_append _ _
  | _ => exact h.1

/-- What a session has said before it takes a frame, and in which version. -/
theorem Answered.said {s : Session}
    (h : Answered frames answers kept (k.session.map Session.version) (some k.phase))
    (howes : k.phase.owesNothing = true) (hs : k.session = some s) :
    GoesOn s.version frames ∧ answers.map .ok = replies frames := by
  obtain ⟨v, hv, h⟩ := (answered_of_owesNothing howes).1 h
  rw [hs] at hv
  obtain rfl := Option.some.inj hv
  exact h

/-- The answer to the last frame is written. -/
theorem Answered.concat {d : Delivery} {after : AfterReply} {bs : Bytes}
    (h : Answered frames answers kept v? (some (.replying d after))) (hframe : d.frame = .ok bs)
    (hv : ∀ v, v? = some v → v'? = some v) (howes : phase.owesNothing = true) :
    Answered frames (answers ++ [bs]) kept' v'? (some phase) := by
  obtain ⟨⟨v, hv', hgoes⟩, hbefore, hlast, -⟩ := h
  rw [answered_of_owesNothing howes]
  refine ⟨v, hv v hv', hgoes, ?_⟩
  rw [List.map_append, hbefore, hlast, hframe]
  rfl

/-- **A turn of the task keeps it so.** -/
theorem Answered.turn {φ : Phase} {f : Option Frame} {a : Option Bytes}
    (h : Answered frames answers kept (k.session.map Session.version) (some k.phase))
    (hturns : Turns b b' c k m φ f a heard)
    (hv : ∀ v, k.session.map Session.version = some v →
      (b'.session? c).map Session.version = some v)
    (hkept : kept' → kept)
    (hfails : ∀ d after m' e b₁ seen₁, k.phase = .replying d after → m = .send m' →
      Sends b (.conn c) d m' b₁ (.inr (.error e)) seen₁ → ¬kept') :
    Answered (frames ++ f.toList) (answers ++ a.toList) kept'
      ((b'.session? c).map Session.version) (some φ) := by
  have hversion {s : Session} (hs : k.session = some s) :
      (b'.session? c).map Session.version = some s.version := hv _ (by rw [hs]; rfl)
  cases hturns with
  | waits hphase _ =>
    -- Before the session is opened nothing has been said.
    rw [hphase] at h
    obtain ⟨rfl, rfl⟩ := h
    exact ⟨rfl, rfl⟩
  | refuses hphase _ hrefused =>
    rw [hphase] at h
    obtain ⟨rfl, rfl⟩ := h
    -- A frame that is refused gets no answer, so there is none to make up for.
    have hnothing : replies f.toList = [] := by
      cases f with
      | none => rfl
      | some g =>
        obtain ⟨e, he⟩ := hrefused g rfl
        exact Frame.replies_of_refused he
    exact ⟨List.nil_prefix, fun _ => hnothing.symm⟩
  | @opens f v p s hphase hgreet _ hs hsv =>
    rw [hphase] at h
    obtain ⟨rfl, rfl⟩ := h
    -- The CONNACK is owed, and it is the first answer: nothing has been said before it.
    refine ⟨⟨v, ?_, Frame.goesOn_singleton hgreet⟩, rfl, Frame.replies_of_greet hgreet,
      fun _ => rfl, fun _ => rfl⟩
    rw [hs, ← hsv]
    rfl
  | goesOn howes howes' _ =>
    rw [Option.toList_none, Option.toList_none, List.append_nil, List.append_nil,
      answered_of_owesNothing howes']
    obtain ⟨v, hv', h⟩ := (answered_of_owesNothing howes).1 h
    exact ⟨v, hv v hv', h⟩
  | @passes f s φ howes hs hresponse howes' _ =>
    -- All answers were written before this frame was taken, and it gets none.
    obtain ⟨hgoes, hall⟩ := h.said howes hs
    rw [answered_of_owesNothing howes']
    refine ⟨s.version, hversion hs, hgoes.concat (by simp [hresponse]), ?_⟩
    rw [Option.toList_none, List.append_nil, hall, Option.toList_some, hgoes.replies_concat,
      hresponse]
    exact (List.append_nil _).symm
  | @answers f s q after howes hs hresponse hafter _ =>
    -- All but the answer to this frame are written, and that one is what the task is at.
    obtain ⟨hgoes, hall⟩ := h.said howes hs
    rw [Option.toList_none, List.append_nil, Option.toList_some]
    refine ⟨⟨s.version, hversion hs, hgoes.concat (by simp [hresponse])⟩, ?_, ?_, ?_⟩
    · rw [List.dropLast_concat, hall]
    · rw [List.dropLast_concat, hgoes.replies_concat, hresponse]
      rfl
    · exact iff_of_false (h.ne_nil howes) hafter
  | @ends f s r howes hs hresponse _ =>
    obtain ⟨hgoes, hall⟩ := h.said howes hs
    -- The frame that ends a session is not answered.
    have hnothing : replies (frames ++ f.toList) = replies frames := by
      cases f with
      | none => rw [Option.toList_none, List.append_nil]
      | some g =>
        rw [Option.toList_some, hgoes.replies_concat, hresponse g rfl]
        exact List.append_nil _
    rw [Option.toList_none, List.append_nil]
    exact ⟨by rw [hall, hnothing], fun _ => by rw [hall, hnothing]⟩
  | @writes d after state hphase _ =>
    rw [hphase] at h
    rw [Option.toList_none, Option.toList_none, List.append_nil, List.append_nil]
    exact Answered.mono (x := some (.replying { d with state := state } after)) h hv hkept
  | @fails d after m' e b₁ seen₁ hphase hm hsends _ =>
    -- What has been said stays a beginning, which is all that is claimed of a session that fails.
    have hnot := hfails d after m' e b₁ seen₁ hphase hm hsends
    rw [Option.toList_none, Option.toList_none, List.append_nil, List.append_nil]
    exact ⟨h.isPrefix, fun hk => absurd hk hnot⟩
  | announces hphase _ hframe howes _ | answered hphase _ hframe howes _ =>
    rw [hphase] at h
    rw [Option.toList_none, List.append_nil]
    exact h.concat hframe hv howes
  | closes hphase _ | shuts hphase _ _ =>
    rw [hphase] at h
    rw [Option.toList_none, Option.toList_none, List.append_nil, List.append_nil]
    exact ⟨h.1, fun hk => h.2 (hkept hk)⟩

theorem Kept.upTo {es' : List Event} (h : Kept c b es) (hp : es' <+: es) : Kept c b es' :=
  ⟨h.lives.upTo hp, h.writes.upTo hp⟩

/-- A session that nothing keeps from answering does not fail to write what can be laid out. -/
theorem not_kept_of_fails {maxPacketSize now : Nat} {d : Delivery} {after : AfterReply}
    {m : SendMove} {f : Fault} {bs : Bytes}
    (hrun : (start maxPacketSize now).replay es = some (b, seen)) (hk : b.conns[c]? = some k)
    (hphase : k.phase = .replying d after) (hframe : d.frame = .ok bs)
    (hsends : Sends b (.conn c) d m b₁ (.inr (.error f)) heard) :
    ¬Kept c (start maxPacketSize now) (es ++ [.move (.task (.conn c) (.send m))]) := by
  intro hkept
  have hattends := attends_of_replay hrun c
  have hreplies : b.phase? c = some (.replying d after) := by
    rw [phase?_of_conn hk, hphase]
  obtain rfl := hattends.target d after hreplies
  obtain ⟨k', s, hk', hs, hfault | ⟨-, hcancelled⟩ | ⟨-, hclosed, rfl, left, hstate⟩⟩ :=
    hsends.cause
  · rw [hframe] at hfault
    cases hfault
  · have hlives := hkept.lives es b seen (List.prefix_append _ _) hrun
      (hattends.registry.2 ⟨_, hreplies, rfl⟩) s (session?_eq_some.2 ⟨k', hk', hs⟩)
    rw [hlives] at hcancelled
    cases hcancelled
  · refine hkept.writes es _ b seen (List.prefix_refl _) hrun ?_
    exact ⟨_, d, left, k', rfl, delivery?_of_phase hk hphase, rfl, hstate, hk', hclosed⟩

/-- The frames that a connection takes are no longer than a frame may be. -/
theorem length_body_of_mem_framesRead {maxPacketSize now : Nat} {f : Frame}
    (h : (start maxPacketSize now).replay es = some (b, seen))
    (hf : f ∈ framesRead c (start maxPacketSize now) es) :
    f.body.length ≤ RemainingLength.limit :=
  Frame.length_body_of_mem_split ((framesRead_isPrefix h c).subset hf)

/-- **What has been said at every moment of a run.** -/
theorem answered_of_replay {maxPacketSize now : Nat}
    (h : (start maxPacketSize now).replay es = some (b, seen)) (c : ConnId) :
    Answered (framesRead c (start maxPacketSize now) es)
      (answersOf c ((start maxPacketSize now).history es)) (Kept c (start maxPacketSize now) es)
      ((b.session? c).map Session.version) (b.phase? c) := by
  refine replay_induction (P := fun es b _ => Answered (framesRead c (start maxPacketSize now) es)
    (answersOf c ((start maxPacketSize now).history es)) (Kept c (start maxPacketSize now) es)
    ((b.session? c).map Session.version) (b.phase? c)) ?_ ?_ h
  · exact ⟨rfl, rfl⟩
  intro es e b₁ seen₁ b₂ more hrun hnext ih
  have hevolves := next?_evolves (exclusive_of_replay hrun).1.greets hnext
  have hversion (v : Version) (hv : (b₁.session? c).map Session.version = some v) :
      (b₂.session? c).map Session.version = some v := by
    obtain ⟨s, hs, rfl⟩ := Option.map_eq_some_iff.1 hv
    obtain ⟨s', hs', hsame⟩ := hevolves.exists_session hs
    rw [hs']
    exact congrArg some hsame.version
  have hkept (h : Kept c (start maxPacketSize now) (es ++ [e])) :
      Kept c (start maxPacketSize now) es := h.upTo (List.prefix_append _ _)
  rw [history_concat hrun hnext, framesRead_concat hrun hnext, answersOf_append]
  rcases turns_of_replay hrun hnext c with
    ⟨m, k, φ, f, a, rfl, hk, hφ, hturns, htaken, hanswers⟩ | hleaves
  · have hsession : b₁.session? c = k.session := by
      rw [session?, hk]
      rfl
    rw [htaken, hanswers, hφ]
    rw [phase?_of_conn hk, hsession] at ih
    rw [hsession] at hversion
    refine ih.turn hturns hversion hkept fun d after m' e b' seen' hphase hm hsends => ?_
    subst hm
    -- What is being written is one of the answers, so it can be laid out.
    rw [hphase] at ih
    obtain ⟨-, -, hlast, -⟩ := ih
    have hmem : d.frame ∈ replies (framesRead c (start maxPacketSize now) es) := by
      rw [hlast]
      exact List.mem_append_right _ (List.mem_singleton_self _)
    obtain ⟨bs, hframe⟩ := Frame.exists_bytes_of_mem_replies
      (fun f hf => length_body_of_mem_framesRead hrun hf) hmem
    exact not_kept_of_fails hrun hk hphase hframe hsends
  · rw [hleaves.taken, hleaves.answers, List.append_nil, List.append_nil]
    rcases hleaves.phase with hphase | ⟨hnone, hphase⟩
    · rw [hphase]
      exact ih.mono hversion hkept
    · rw [hnone] at ih
      rw [hphase]
      exact ih

end Broker
end Mqtt
