import Mqtt.Proofs.Broker.Lines
import Mqtt.Proofs.Broker.Turns
/-!
# Sessions that are to end

A session is told to end in three ways: by its own token, by the token of its connection, and by the
shutdown of the broker. Wherever its task waits then, it can move, and so can every task that waits
in front of its stream. So when no task can move any more, nothing is left of the session
(`over_of_quiescent`): whoever was in its way has gone.

A task that still has a frame then has it for a session that goes on, and what keeps it is a full
stream (`isHeldUp_of_delivery`), which its reader alone can empty.
-/

namespace Mqtt
namespace Broker

variable {b b' : Broker} {c : ConnId} {t : Task} {k : Conn} {s : Session} {d : Delivery}
  {seen : List Observation}

/-- A connection is to end, or its session is. -/
def IsToEnd (b : Broker) (k : Conn) : Prop :=
  k.cancelled = true ∨ b.shutdown = true ∨ ∃ s, k.session = some s ∧ s.cancelled = true

/-! ### What a task can do -/

/-- Whoever writes to a session that is to end can give up, wherever it stands. -/
theorem exists_sends_giveUp (hs : b.session? d.target = some s)
    (hcancelled : b.isCancelled s = true) :
    ∃ b' f seen, Sends b t d .giveUp b' (.inr (.error f)) seen := by
  obtain ⟨k, hk, hs⟩ := session?_eq_some.1 hs
  have hmoves : ∃ sent : Sent Task, sent.state = .inr (.error .cancelled) ∧
      Outlet.Moves ⟨s.turnstile, k.link.down⟩ t d.frame (b.isCancelled s) d.state .giveUp sent := by
    rcases d.state with _ | _ | left
    · exact ⟨_, rfl, .giveUpOutside hcancelled⟩
    · exact ⟨_, rfl, .giveUpInLine hcancelled⟩
    · exact ⟨_, rfl, .giveUpPushing hcancelled⟩
  obtain ⟨sent, hsent, hmoves⟩ := hmoves
  have hsends := Sends.intro hk hs (by simp) hmoves
  rw [hsent] at hsends
  exact ⟨_, _, _, hsends⟩

/-- A session that is to end can stop forwarding. -/
theorem exists_fanOutStep_stop {o : FanOut} : ∃ m, (b.fanOutStep t true o m).isSome = true := by
  rcases ho : o.current with _ | d
  · refine ⟨.reach, ?_⟩
    rcases hleft : o.left with _ | ⟨c, rest⟩ <;> simp [fanOutStep, ho, hleft]
  · exact ⟨.stop, by simp [fanOutStep, ho]⟩

/-- A task that forwards can move when its forwarding can. -/
theorem isSome_connStep_of_forwarding {p : Publish} {o : FanOut} {m : Move}
    (hk : b.conns[c]? = some k) (hphase : k.phase = .forwarding p o) (hs : k.session = some s)
    (h : (b.fanOutStep (.conn c) (b.isCancelled s) o m).isSome = true) :
    (b.connStep c m).isSome = true := by
  obtain ⟨⟨b', r, seen⟩, hfan⟩ := Option.isSome_iff_exists.1 h
  rcases r with o' | n <;> simp [connStep, hk, hphase, hs, hfan]

theorem isSome_callStep_of_publish {n : Nat} {o : FanOut} {m : Move}
    (hcall : b.call? n = some (.publish o))
    (h : (b.fanOutStep (.host n) b.shutdown o m).isSome = true) :
    (b.callStep n m).isSome = true := by
  obtain ⟨⟨b', r, seen⟩, hfan⟩ := Option.isSome_iff_exists.1 h
  rcases r with o' | count <;> simp [callStep, hcall, hfan]

/-! ### When no task can move -/

/-- Every move that there is. -/
def allMoves : List Move :=
  [.receive, .dispatch, .cancel, .expire, .send .enter, .send .layOut, .send .push, .send .giveUp,
    .reach, .stop, .close, .shut]

theorem mem_allMoves (m : Move) : m ∈ allMoves := by
  cases m with
  | send m => cases m <;> decide
  | _ => decide

/-- Only the connections and the calls that are there can move. -/
theorem quiescent_iff : b.Quiescent ↔
    (∀ c ∈ List.range b.conns.length,
      (∀ m ∈ allMoves, (b.connStep c m).isNone = true) ∧ (b.step (.relay c)).isNone = true) ∧
    ∀ call ∈ b.calls, ∀ m ∈ allMoves, (b.callStep call.1 m).isNone = true := by
  constructor
  · intro h
    refine ⟨fun c _ => ⟨fun m _ => ?_, ?_⟩, fun call _ m _ => ?_⟩
    · exact Option.isNone_iff_eq_none.2 (h (.task (.conn c) m))
    · exact Option.isNone_iff_eq_none.2 (h (.relay c))
    · exact Option.isNone_iff_eq_none.2 (h (.task (.host call.1) m))
  · rintro ⟨hconns, hcalls⟩ a
    -- Who is not there cannot move, so the lists hold all who might.
    have hmem {c : ConnId} (hc : b.conns[c]? ≠ none) : c ∈ List.range b.conns.length := by
      rwa [List.mem_range, ← not_le, ← List.getElem?_eq_none_iff]
    rcases a with ⟨c | n, m⟩ | c
    · rcases hk : b.conns[c]? with _ | k
      · show b.connStep c m = none
        rw [connStep, hk]
        rfl
      · refine Option.isNone_iff_eq_none.1 ((hconns c (hmem ?_)).1 m (mem_allMoves m))
        rw [hk]
        nofun
    · rcases hcall : b.call? n with _ | call
      · show b.callStep n m = none
        rw [callStep, hcall]
        rfl
      · have hn : (n, call) ∈ b.calls := by
          obtain ⟨before, behind, hcalls, -⟩ := List.lookup_eq_some_iff.1 hcall
          rw [hcalls]
          exact List.mem_append_right _ List.mem_cons_self
        exact Option.isNone_iff_eq_none.1 (hcalls _ hn m (mem_allMoves m))
    · rcases hk : b.conns[c]? with _ | k
      · rw [step, hk]
        rfl
      · refine Option.isNone_iff_eq_none.1 (hconns c (hmem ?_)).2
        rw [hk]
        nofun

instance : Decidable b.Quiescent := decidable_of_iff _ quiescent_iff.symm

theorem Quiescent.not_isSome (h : b.Quiescent) (a : Action) : ¬(b.step a).isSome = true := by
  rw [h a]
  nofun

/-- A task can go on with a frame when the frame can go on. -/
theorem isSome_step_of_send {m : SendMove} (ha : ∀ c, Attends c b seen)
    (hd : b.delivery? t = some d) (h : (b.sendStep t d m).isSome = true) :
    (b.step (.task t (.send m))).isSome = true := by
  obtain ⟨⟨b', r, seen'⟩, hsend⟩ := Option.isSome_iff_exists.1 h
  have hspreads {stopped : Bool} {o : FanOut} (ho : o.current = some d) :
      (b.fanOutStep t stopped o (.send m)).isSome = true := by
    rcases r with s | f | ⟨⟩ <;> simp [fanOutStep, ho, hsend]
  obtain ⟨w, hwork, hd⟩ := Option.bind_eq_some_iff.1 hd
  cases t with
  | conn c =>
    obtain ⟨k, hk, hwork⟩ := Option.bind_eq_some_iff.1 hwork
    show (b.connStep c (.send m)).isSome = true
    -- A task that writes serves a session, and finds it there.
    have hsession := (ha c).exists_session hk
    cases hat : k.phase with
    | replying d' after =>
      rw [hat] at hwork
      cases hwork
      cases hd
      obtain ⟨s, hs⟩ := hsession (by rw [hat]; rfl)
      -- Whatever comes of the write, the task knows how to go on.
      rcases r with state | f | ⟨⟩ <;> simp [connStep, hk, hat, hs, hsend]
    | forwarding p o =>
      rw [hat] at hwork
      cases hwork
      obtain ⟨s, hs⟩ := hsession (by rw [hat]; rfl)
      exact isSome_connStep_of_forwarding hk hat hs (hspreads hd)
    | _ =>
      rw [hat] at hwork
      cases hwork
  | host n =>
    obtain ⟨call, hcall, hwork⟩ := Option.bind_eq_some_iff.1 hwork
    show (b.callStep n (.send m)).isSome = true
    cases call with
    | publish o =>
      cases hwork
      exact isSome_callStep_of_publish hcall (hspreads hd)
    | write d' =>
      cases hwork
      cases hd
      rcases r with state | r <;> simp [callStep, hcall, hsend]
    | serve => cases hwork

/-- No frame can go on. -/
theorem Quiescent.not_sends {m : SendMove} {r : Sending ⊕ Except Fault Unit}
    {more : List Observation} (h : b.Quiescent) (ha : ∀ c, Attends c b seen)
    (hd : b.delivery? t = some d) : ¬Sends b t d m b' r more := by
  intro hsends
  refine h.not_isSome (.task t (.send m)) (isSome_step_of_send ha hd ?_)
  rw [sendStep_of_sends hsends]
  rfl

/-- **Nobody is left who writes to a session that is to end.** -/
theorem Quiescent.not_cancelled_of_delivery (h : b.Quiescent) (ha : ∀ c, Attends c b seen)
    (hd : b.delivery? t = some d) (hs : b.session? d.target = some s) :
    b.isCancelled s = false := by
  by_contra hcancelled
  rw [Bool.not_eq_false] at hcancelled
  -- A cancelled token can be heeded in every state of a write, so the writer could move.
  obtain ⟨b', f, more, hsends⟩ := exists_sends_giveUp (t := t) hs hcancelled
  exact h.not_sends ha hd hsends

/-- The token of a connection has reached its session. -/
theorem Quiescent.isCancelled (h : b.Quiescent) (hk : b.conns[c]? = some k)
    (hs : k.session = some s) (hend : b.IsToEnd k) : b.isCancelled s = true := by
  by_contra hlives
  rw [Bool.not_eq_true, Broker.isCancelled, Bool.or_eq_false_iff] at hlives
  obtain ⟨hsession, hshutdown⟩ := hlives
  rcases hend with hcancelled | hshut | ⟨s', hs', hcancelled⟩
  · -- The task that links the two tokens could move.
    refine h.not_isSome (.relay c) ?_
    simp [step, hk, hs, hcancelled, hsession]
  · rw [hshut] at hshutdown
    cases hshutdown
  · obtain rfl := Option.some.inj (hs.symm.trans hs')
    rw [hcancelled] at hsession
    cases hsession

/-- Nobody stands in front of the stream of a session that is to end, unless its own task does. -/
theorem Quiescent.shutting_of_place? (h : b.Quiescent) (ha : ∀ c, Attends c b seen)
    (hs : b.session? c = some s) (hcancelled : b.isCancelled s = true)
    (hplace : b.place? t = some c) : t = .conn c ∧ ∃ r, b.phase? c = some (.shutting r) := by
  rcases cases_of_place? hplace with ⟨d, hd, rfl⟩ | hshutting
  · rw [h.not_cancelled_of_delivery ha hd hs] at hcancelled
    cases hcancelled
  · exact hshutting

/-- The task of a session that is to end does not wait in front of its stream. -/
theorem Quiescent.not_shutting (h : b.Quiescent) (ha : ∀ c, Attends c b seen) (hl : b.Lined)
    (hk : b.conns[c]? = some k) (hs : k.session = some s) (hcancelled : b.isCancelled s = true)
    (r : Except Fault Unit) : k.phase ≠ .shutting r := by
  intro hphase
  have hplace : b.place? (.conn c) = some c := by
    rw [place?_of_phase (phase?_of_conn hk), hphase]
    rfl
  have hmem : Task.conn c ∈ (b.turnstile c).members := (hl.place c _).2 hplace
  -- Somebody is inside, for the task stands there; and it can only be the task itself.
  rcases hinside : (b.turnstile c).inside with _ | t
  · rw [Turnstile.members, hinside, hl.orderly c hinside] at hmem
    cases hmem
  · have ht : t ∈ (b.turnstile c).members := by
      rw [Turnstile.members, hinside]
      exact List.mem_cons_self
    obtain ⟨rfl, -⟩ := h.shutting_of_place? ha (session?_eq_some.2 ⟨k, hk, hs⟩) hcancelled
      ((hl.place c t).1 ht)
    rw [turnstile_eq hk hs] at hinside
    refine h.not_isSome (.task (.conn c) .shut) ?_
    show (b.connStep c .shut).isSome = true
    simp [connStep, hk, hphase, hs, Turnstile.holds, hinside]

/-- The task of a connection that is to end is done. -/
theorem Quiescent.exists_over (h : b.Quiescent) (hg : b.Greets) (ha : ∀ c, Attends c b seen)
    (hl : b.Lined) (hk : b.conns[c]? = some k) (hend : b.IsToEnd k) :
    ∃ r, k.phase = .over r := by
  have hstuck (m : Move) : ¬(b.connStep c m).isSome = true := h.not_isSome (.task (.conn c) m)
  have hsession (hphase : (k.phase.isServing || k.phase.isEnding) = true) :
      ∃ s, k.session = some s ∧ b.isCancelled s = true := by
    obtain ⟨s, hs⟩ := (ha c).exists_session hk hphase
    exact ⟨s, hs, h.isCancelled hk hs hend⟩
  cases hphase : k.phase with
  | greeting =>
    -- There is no session yet whose token could be meant.
    have hcancelled : k.cancelled = true ∨ b.shutdown = true := by
      rcases hend with hc | hc | ⟨s, hs, -⟩
      · exact .inl hc
      · exact .inr hc
      · rw [hg c k hk hphase] at hs
        cases hs
    exact absurd (by simp [connStep, hk, hphase, hcancelled]) (hstuck .cancel)
  | reading since =>
    -- It could heed the token instead of reading.
    obtain ⟨s, hs, hcancelled⟩ := hsession (by rw [hphase]; rfl)
    exact absurd (by simp [connStep, hk, hphase, hs, hcancelled]) (hstuck .cancel)
  | replying d after =>
    obtain ⟨s, hs, hcancelled⟩ := hsession (by rw [hphase]; rfl)
    have hd : b.delivery? (.conn c) = some d := by
      rw [delivery?_of_phase hk hphase]
      rfl
    have htarget : d.target = c := by
      refine (ha c).target d after ?_
      rw [phase?_of_conn hk, hphase]
    have hs' : b.session? d.target = some s := by
      rw [htarget]
      exact session?_eq_some.2 ⟨k, hk, hs⟩
    -- It has a frame for itself, and could give it up.
    rw [h.not_cancelled_of_delivery ha hd hs'] at hcancelled
    cases hcancelled
  | forwarding p o =>
    obtain ⟨s, hs, hcancelled⟩ := hsession (by rw [hphase]; rfl)
    -- It could stop forwarding, or go on if it is at nobody.
    have hstops : ∃ m, (b.fanOutStep (.conn c) (b.isCancelled s) o m).isSome = true := by
      rw [hcancelled]
      exact exists_fanOutStep_stop
    obtain ⟨m, hm⟩ := hstops
    exact absurd (isSome_connStep_of_forwarding hk hphase hs hm) (hstuck m)
  | closing r =>
    obtain ⟨s, hs, -⟩ := hsession (by rw [hphase]; rfl)
    exact absurd (by simp [connStep, hk, hphase, hs]) (hstuck .close)
  | shutting r =>
    obtain ⟨s, hs, hcancelled⟩ := hsession (by rw [hphase]; rfl)
    exact absurd hphase (h.not_shutting ha hl hk hs hcancelled r)
  | _ => exact ⟨_, rfl⟩

/-! ### Every run -/

/-- Whoever is served no longer is to end. -/
theorem cancelled_of_not_serving {maxPacketSize now : Nat} {es : List Event} {φ : Phase}
    (h : (start maxPacketSize now).replay es = some (b, seen)) (hφ : b.phase? c = some φ)
    (hserving : φ.isServing = false) (hs : b.session? c = some s) : s.cancelled = true := by
  refine ((registered_of_replay h).lives c s hs).resolve_left ?_
  rw [(attends_of_replay h c).registry, hφ]
  rintro ⟨φ', hφ', hserving'⟩
  obtain rfl := Option.some.inj hφ'
  rw [hserving] at hserving'
  cases hserving'

/-- The stream that a task has a frame for is full, though its session goes on. -/
def IsHeldUp (b : Broker) (t : Task) : Prop :=
  ∃ d k s, b.delivery? t = some d ∧ b.conns[d.target]? = some k ∧ k.session = some s ∧
    b.isCancelled s = false ∧ k.link.down.closed = false ∧ k.link.down.free = 0

theorem Lined.place?_of_inside (h : b.Lined) (hk : b.conns[c]? = some k) (hs : k.session = some s)
    (hinside : s.turnstile.inside = some t) : b.place? t = some c := by
  rw [← h.place, turnstile_eq hk hs, Turnstile.members, hinside]
  exact List.mem_cons_self

/-- Whoever is inside the turnstile of a stream when no task can move pushes a frame into it, and
the stream is full. -/
theorem Quiescent.full_of_inside {d : Delivery} (h : b.Quiescent) (ha : ∀ c, Attends c b seen)
    (hl : b.Lined) (hd : b.delivery? t = some d) (hk : b.conns[d.target]? = some k)
    (hs : k.session = some s) (hinside : s.turnstile.inside = some t) :
    k.link.down.closed = false ∧ k.link.down.free = 0 := by
  have hstuck {m : SendMove} {sent : Sent Task} (hstate : d.state ≠ .starting) :
      ¬Outlet.Moves ⟨s.turnstile, k.link.down⟩ t d.frame (b.isCancelled s) d.state m sent :=
    fun hmoves => h.not_sends ha hd (.intro hk hs (fun hc => hstate hc.2.1) hmoves)
  -- Whoever is inside has come to the line: its frame is past the start.
  have hplace := hl.place?_of_inside hk hs hinside
  rw [place?_of_delivery hd] at hplace
  rcases hstate : d.state with _ | _ | left
  · rw [Delivery.place?, hstate] at hplace
    cases hplace
  · rw [hstate] at hstuck
    -- Inside and not laid out: it could go on, whether that fails or not.
    rcases hframe : d.frame with f | bs
    · exact absurd (.fault hinside hframe) (hstuck (by simp))
    · exact absurd (.layOut hinside hframe) (hstuck (by simp))
  · rw [hstate] at hstuck
    -- It pushes. A pipe with room would take a part, and a closed one would fail the write.
    rcases hwrite : k.link.down.write left with _ | _ | ⟨p, taken, rest⟩
    · exact absurd (.broken (Pipe.write_eq_broken.1 hwrite)) (hstuck (by simp))
    · exact Pipe.write_eq_full.1 hwrite
    · cases rest with
      | nil => exact absurd (.whole hwrite) (hstuck (by simp))
      | cons byte rest => exact absurd (.part hwrite (List.cons_ne_nil _ _)) (hstuck (by simp))

/-- **Nothing but a full stream keeps a frame when no task can move**, for whoever is in front of it
in the line is kept by nothing else. -/
theorem isHeldUp_of_delivery {maxPacketSize now : Nat} {es : List Event}
    (h : (start maxPacketSize now).replay es = some (b, seen)) (hquiescent : b.Quiescent)
    (hd : b.delivery? t = some d) : b.IsHeldUp t := by
  have ha := attends_of_replay h
  have hl := lined_of_replay h
  obtain ⟨s, hsession⟩ := Option.isSome_iff_exists.1 ((exclusive_of_replay h).1.targets t d hd)
  obtain ⟨k, hk, hs⟩ := session?_eq_some.1 hsession
  have hlives := hquiescent.not_cancelled_of_delivery ha hd hsession
  refine ⟨d, k, s, hd, hk, hs, hlives, ?_⟩
  have hplace : b.place? t = some d.target := by
    rw [place?_of_delivery hd, Delivery.place?]
    rcases hstate : d.state with _ | _ | left
    · -- Nothing keeps it from coming to the turnstile.
      have hmoves : ∃ sent, Outlet.Moves ⟨s.turnstile, k.link.down⟩ t d.frame (b.isCancelled s)
          d.state .enter sent := by
        rw [hstate]
        exact ⟨_, .enter⟩
      obtain ⟨sent, hmoves⟩ := hmoves
      exact absurd (.intro hk hs (by simp [hlives]) hmoves) (hquiescent.not_sends ha hd)
    · rfl
    · rfl
  have hmem : t ∈ (b.turnstile d.target).members := (hl.place _ t).2 hplace
  have horderly := hl.orderly d.target
  rw [turnstile_eq hk hs] at hmem horderly
  rcases hinside : s.turnstile.inside with _ | t'
  · rw [Turnstile.members, hinside, horderly hinside] at hmem
    cases hmem
  · -- Whoever is inside is kept by nothing but the stream.
    rcases cases_of_place? (hl.place?_of_inside hk hs hinside) with
      ⟨d', hd', htarget⟩ | ⟨-, r, hshutting⟩
    · rw [← htarget] at hk
      exact hquiescent.full_of_inside ha hl hd' hk hs hinside
    · -- A session whose stream is about to be shut does not go on.
      rw [isCancelled, cancelled_of_not_serving h hshutting rfl hsession] at hlives
      cases hlives

/-- A connection that is to end has come to a result when no task can move. -/
theorem exists_ended_of_quiescent {maxPacketSize now : Nat} {es : List Event}
    (h : (start maxPacketSize now).replay es = some (b, seen)) (hquiescent : b.Quiescent)
    (hk : b.conns[c]? = some k) (hend : b.IsToEnd k) :
    ∃ r, k.phase = .over r ∧ .ended c r ∈ seen := by
  have ha := attends_of_replay h
  obtain ⟨r, hphase⟩ :=
    hquiescent.exists_over (exclusive_of_replay h).1.greets ha (lined_of_replay h) hk hend
  exact ⟨r, hphase, (ha c).ended r (by rw [phase?_of_conn hk, hphase])⟩

/-- **Whatever is to end has ended when no task can move.** In every run of a broker, of a
connection that is to end, or whose session is: it has left the registry, it has been served to its
end, no task has a frame for it, and nobody stands in front of its stream. -/
theorem over_of_quiescent {maxPacketSize now : Nat} {es : List Event}
    (h : (start maxPacketSize now).replay es = some (b, seen)) (hquiescent : b.Quiescent)
    (hk : b.conns[c]? = some k) (hend : b.IsToEnd k) :
    c ∉ b.registry ∧ (∃ r, k.phase = .over r ∧ .ended c r ∈ seen) ∧
      (∀ t d, b.delivery? t = some d → d.target ≠ c) ∧ b.turnstile c = .empty := by
  have hw := (exclusive_of_replay h).1
  have ha := attends_of_replay h
  have hl := lined_of_replay h
  obtain ⟨r, hphase, hended⟩ := exists_ended_of_quiescent h hquiescent hk hend
  have hover : b.phase? c = some (.over r) := by
    rw [phase?_of_conn hk, hphase]
  -- Whoever has a frame for it could give it up.
  have hdelivery (t : Task) (d : Delivery) (hd : b.delivery? t = some d) : d.target ≠ c := by
    rintro rfl
    obtain ⟨s, hs⟩ := Option.isSome_iff_exists.1 (hw.targets t d hd)
    have hcancelled := hquiescent.isCancelled hk ((session?_of_conn hk).symm.trans hs) hend
    rw [hquiescent.not_cancelled_of_delivery ha hd hs] at hcancelled
    cases hcancelled
  refine ⟨?_, ⟨r, hphase, hended⟩, hdelivery, (hl.orderly c).eq_empty ?_⟩
  · rw [(ha c).registry, hover]
    rintro ⟨φ, hφ, hserving⟩
    obtain rfl := Option.some.inj hφ
    cases hserving
  · -- Only its own task could stand there without a frame, and that is done.
    refine List.eq_nil_iff_forall_not_mem.2 fun t ht => ?_
    rcases cases_of_place? ((hl.place c t).1 ht) with ⟨d, hd, htarget⟩ | ⟨-, r', hshutting⟩
    · exact hdelivery t d hd htarget
    · rw [hover] at hshutting
      cases hshutting

/-- Two clients subscribe to what the other one publishes. Neither of them reads, so each of their
tasks gets stuck in the stream of the other one. Then the token of the first connection is
cancelled. -/
def cyclicStall : List Event :=
  let connect : Bytes := [0x10, 13, 0, 4, 0x4d, 0x51, 0x54, 0x54, 4, 2, 0, 60, 0, 1, 0x73]
  let moves (c : ConnId) (ms : List Move) : List Event := ms.map fun m => .move (.task (.conn c) m)
  let join (c : ConnId) (filter : UInt8) : List Event :=
    [.input (.opens "peer" 16), .input (.peerWrites c connect)] ++ answering c ++
      [.input (.peerWrites c [0x82, 6, 0, 1, 0, 1, filter, 0])] ++ answering c
  let publish (c : ConnId) (topic : UInt8) : List Event :=
    [.input (.peerWrites c [0x30, 8, 0, 1, topic, 1, 2, 3, 4, 5])] ++
      moves c [.receive, .dispatch]
  let push : List Move := [.reach, .send .enter, .send .layOut, .send .push]
  join 0 0x61 ++ join 1 0x62 ++ publish 0 0x62 ++ moves 0 (.reach :: push) ++ publish 1 0x61 ++
    moves 1 push ++ [.input (.cancels 0), .move (.relay 0)] ++
    moves 0 [.stop, .cancel, .close] ++ moves 1 [.send .giveUp, .reach, .reach] ++ moves 0 [.shut]

/-- The session of the first connection comes to its end, and the second one goes on. -/
theorem over_cyclicStall :
    ∃ b seen k, (start 1000 0).replay cyclicStall = some (b, seen) ∧ b.Quiescent ∧
      b.conns[0]? = some k ∧ b.IsToEnd k ∧ 0 ∉ b.registry ∧
      (∃ r, k.phase = .over r ∧ .ended 0 r ∈ seen) ∧
      (∀ t d, b.delivery? t = some d → d.target ≠ 0) ∧ b.turnstile 0 = .empty := by
  have hend : ((start 1000 0).replay cyclicStall).map
      (fun r => (decide r.1.Quiescent, r.1.conns[0]?.map Conn.cancelled)) =
        some (true, some true) := by
    decide +kernel
  obtain ⟨⟨b, seen⟩, hrun, hb⟩ := Option.map_eq_some_iff.1 hend
  obtain ⟨hquiescent, hcancelled⟩ := Prod.mk.inj hb
  obtain ⟨k, hk, hcancelled⟩ := Option.map_eq_some_iff.1 hcancelled
  exact ⟨b, seen, k, hrun, of_decide_eq_true hquiescent, hk, .inl hcancelled,
    over_of_quiescent hrun (of_decide_eq_true hquiescent) hk (.inl hcancelled)⟩

end Broker
end Mqtt
