import Mqtt.Proofs.Broker.Conns
import Mqtt.Proofs.Stream.Lane
/-!
# The work of the tasks of a broker

A task of a broker writes one frame into a stream, or it forwards one to many streams: this is its
`Work`. `Broker.lane b c` is what all of them send into the stream of the connection `c`, with the
turnstile in front of it. The lemmas here say what each operation of a broker does to the work and
to the turnstiles.
-/

namespace Mqtt

/-! ### What a task is doing -/

/-- What a task does at the streams: it writes one frame, or forwards one to many. -/
inductive Work where
  | single (d : Delivery)
  | spread (o : FanOut)

/-- The delivery that is under way. -/
def Work.delivery? : Work → Option Delivery
  | single d => some d
  | spread o => o.current

/-- Every frame of the task is whole. -/
def Work.Sound : Work → Prop
  | single d => FrameWhole d.frame
  | spread o => FrameWhole o.frame ∧ ∀ d, o.current = some d → FrameWhole d.frame

theorem Work.Sound.delivery {w : Work} {d : Delivery} (h : w.Sound) (hd : w.delivery? = some d) :
    FrameWhole d.frame := by
  cases w with
  | single d' =>
    cases hd
    exact h
  | spread o => exact h.2 d hd

def Phase.work? : Phase → Option Work
  | .replying d _ => some (.single d)
  | .forwarding _ o => some (.spread o)
  | _ => none

def HostCall.work? : HostCall → Option Work
  | .publish o => some (.spread o)
  | .write d => some (.single d)
  | .serve => none

/-- The move of a task that acts at a lane. -/
def LaneMove.move? : LaneMove → Option Move
  | send m => some (.send m)
  | stop => some .stop
  | apart => none

theorem Frame.toBytes_eq_ok {f : Frame} (h : f.body.length ≤ RemainingLength.limit) :
    f.toBytes = .ok f.bytes := by
  obtain ⟨w, hrun, hw⟩ := (write_writes f).appends h Writer.empty
  rw [toBytes, hrun]
  exact congrArg Except.ok hw

theorem Frame.frameWhole_toBytes (f : Frame) : FrameWhole f.toBytes := by
  intro bs h
  by_cases hf : f.body.length ≤ RemainingLength.limit
  · rw [toBytes_eq_ok hf] at h
    cases h
    exact whole_bytes hf
  · -- A body that is too long is not laid out at all.
    obtain ⟨e, w, more, hrun, -⟩ := (write_writes f).fails hf Writer.empty
    rw [toBytes, hrun] at h
    cases h

namespace Broker

variable {b b' : Broker} {c c' : ConnId} {t t' : Task}

/-- What a task does. -/
def work? (b : Broker) : Task → Option Work
  | .conn c => b.conns[c]?.bind fun k => k.phase.work?
  | .host n => (b.call? n).bind HostCall.work?

/-- The delivery of a task. -/
def delivery? (b : Broker) (t : Task) : Option Delivery := (b.work? t).bind Work.delivery?

/-- The turnstile in front of the stream of a session. -/
def turnstile (b : Broker) (c : ConnId) : Turnstile Task :=
  ((b.session? c).map Session.turnstile).getD .empty

/-- What the tasks of a broker send into the stream of a connection. -/
def lane (b : Broker) (c : ConnId) : Lane Task where
  turnstile := b.turnstile c
  sending t := ((b.delivery? t).filter fun d => d.target = c).map fun d => (d.frame, d.state)

/-- The bytes that the stream of a connection has taken. -/
def streamOf (c : ConnId) (seen : List Observation) : Bytes :=
  seen.flatMap fun o =>
    match o with
    | .wrote c' _ bs => if c' = c then bs else []
    | _ => []

@[simp]
theorem streamOf_append (seen more : List Observation) :
    streamOf c (seen ++ more) = streamOf c seen ++ streamOf c more := by
  rw [streamOf, List.flatMap_append]
  rfl

theorem streamOf_wrote {bs : Bytes} :
    streamOf c (wrote c' t bs) = if c' = c then bs else [] := by
  rw [wrote]
  by_cases hbs : bs = []
  · subst hbs
    by_cases hc : c' = c <;> simp [streamOf]
  · simp [streamOf, hbs]

/-- The sending of a task at a lane. -/
theorem sending_eq : (b.lane c).sending t =
    ((b.delivery? t).filter fun d => d.target = c).map fun d => (d.frame, d.state) := rfl

theorem sending_of_delivery {d : Delivery} (h : b.delivery? t = some d) :
    (b.lane c).sending t = if d.target = c then some (d.frame, d.state) else none := by
  rw [sending_eq, h]
  by_cases hc : d.target = c <;> simp [hc]

theorem sending_of_none (h : b.delivery? t = none) : (b.lane c).sending t = none := by
  rw [sending_eq, h]
  rfl

/-- A message begins its way with a whole frame. -/
theorem sound_fanOut {topic : String} {f : Frame} : (Work.spread (b.fanOut topic f)).Sound := by
  refine ⟨f.frameWhole_toBytes, ?_⟩
  intro d hd
  cases hd

/-! ### One operation -/

theorem work?_modifyConn {f : Conn → Conn} :
    (b.modifyConn c f).work? t =
      if t = .conn c then b.conns[c]?.bind fun k => (f k).phase.work? else b.work? t := by
  cases t with
  | conn c' =>
    rw [work?, conns_modifyConn]
    by_cases h : c' = c
    · simp [h, Option.bind_map]
    · simp [h, work?]
  | host n => simp [work?, modifyConn, call?]

theorem turnstile_modifyConn {f : Conn → Conn} :
    (b.modifyConn c f).turnstile c' =
      if c' = c then
        ((b.conns[c]?.bind fun k => (f k).session).map Session.turnstile).getD .empty
      else b.turnstile c' := by
  rw [turnstile, session?_modifyConn, turnstile]
  by_cases h : c' = c
  · simp [h]
  · simp [h]

theorem turnstile_eq {k : Conn} {s : Session} (hk : b.conns[c]? = some k)
    (hs : k.session = some s) : b.turnstile c = s.turnstile := by
  rw [turnstile, session?_eq_some.2 ⟨k, hk, hs⟩]
  rfl

theorem work?_congr (hconns : b'.conns = b.conns) (hcalls : b'.calls = b.calls) :
    b'.work? t = b.work? t := by
  cases t with
  | conn c => rw [work?, hconns, work?]
  | host n => rw [work?, call?, hcalls, work?, call?]

theorem turnstile_congr (hconns : b'.conns = b.conns) : b'.turnstile c = b.turnstile c := by
  rw [turnstile, session?, hconns, turnstile, session?]

/-- A connection stays at its place. -/
theorem work?_modifyConn_same {f : Conn → Conn} (hf : ∀ k, (f k).phase.work? = k.phase.work?) :
    (b.modifyConn c f).work? t = b.work? t := by
  rw [work?_modifyConn]
  by_cases h : t = .conn c
  · subst h
    simp only [if_true, hf, work?]
  · rw [if_neg h]

/-- A connection keeps its turnstile. -/
theorem turnstile_modifyConn_same {f : Conn → Conn}
    (hf : ∀ k, (f k).session.map Session.turnstile = k.session.map Session.turnstile) :
    (b.modifyConn c f).turnstile c' = b.turnstile c' := by
  rw [turnstile_modifyConn, turnstile]
  by_cases h : c' = c
  · subst h
    simp only [if_true, Option.map_bind, Function.comp_def, hf, session?, Option.bind_eq_bind]
  · rw [if_neg h]

theorem work?_modifySession {f : Session → Session} :
    (b.modifySession c f).work? t = b.work? t :=
  work?_modifyConn_same fun _ => rfl

theorem turnstile_modifySession {f : Session → Session} (hf : ∀ s, (f s).turnstile = s.turnstile) :
    (b.modifySession c f).turnstile c' = b.turnstile c' :=
  turnstile_modifyConn_same fun k => by simp [hf, Function.comp_def]

theorem work?_setPhase {phase : Phase} {k : Conn} (hk : b.conns[c]? = some k) :
    (b.setPhase c phase).work? t = if t = .conn c then phase.work? else b.work? t := by
  rw [setPhase, work?_modifyConn, hk]
  rfl

theorem turnstile_setPhase {phase : Phase} : (b.setPhase c phase).turnstile c' = b.turnstile c' :=
  turnstile_modifyConn_same fun _ => rfl

theorem turnstile_cancelSession : (b.cancelSession c).turnstile c' = b.turnstile c' :=
  turnstile_modifySession fun _ => rfl

theorem work?_finish {r : Except Fault Unit} :
    (b.finish c r).work? t = if t = .conn c then none else b.work? t := by
  show ((b.cancelSession c).modifyConn c fun k => { k with phase := .closing r }).work? t = _
  rw [work?_modifyConn]
  by_cases h : t = .conn c
  · simp [h, Phase.work?]
  · rw [if_neg h, if_neg h]
    exact work?_modifySession

theorem turnstile_finish {r : Except Fault Unit} :
    (b.finish c r).turnstile c' = b.turnstile c' := by
  show ((b.cancelSession c).setPhase c (.closing r)).turnstile c' = _
  rw [turnstile_setPhase, turnstile_cancelSession]

theorem work?_readOn :
    (b.readOn c).work? t = if t = .conn c then none else b.work? t := by
  rw [readOn, work?_modifyConn]
  by_cases h : t = .conn c <;> simp [h, Phase.work?]

theorem turnstile_readOn : (b.readOn c).turnstile c' = b.turnstile c' :=
  turnstile_modifyConn_same fun _ => rfl

/-- A session begins with an empty turnstile, and where there is none, it counts as empty. -/
theorem turnstile_openSession {k : Conn} {v : Version} {p : Connect} (hk : b.conns[c]? = some k)
    (hs : k.session = none) : (b.openSession c v p).turnstile c' = b.turnstile c' := by
  rw [openSession, reply, turnstile_setPhase]
  show (b.modifyConn c fun k => { k with session := some (b.newSession v p) }).turnstile c' = _
  rw [turnstile_modifyConn]
  by_cases h : c' = c
  · subst h
    rw [if_pos rfl, hk, turnstile, session?, hk]
    show Turnstile.empty = ((k.session.map Session.turnstile).getD .empty : Turnstile Task)
    rw [hs]
    rfl
  · rw [if_neg h]

theorem work?_putSent {sent : Sent Task} : (b.putSent c sent).work? t = b.work? t :=
  work?_modifyConn_same fun _ => rfl

theorem turnstile_putSent {k : Conn} {s : Session} {sent : Sent Task} (hk : b.conns[c]? = some k)
    (hs : k.session = some s) :
    (b.putSent c sent).turnstile c' =
      if c' = c then sent.outlet.turnstile else b.turnstile c' := by
  rw [putSent, turnstile_modifyConn, hk]
  simp [hs]

theorem work?_setCall {n : Nat} {call old : HostCall} (h : b.call? n = some old) :
    (b.setCall n call).work? t = if t = .host n then call.work? else b.work? t := by
  cases t with
  | conn c => rfl
  | host n' =>
    rw [work?, call?_setCall, work?]
    by_cases hn : n' = n
    · subst hn
      simp [h]
    · simp [hn]

theorem work?_dropCall {n : Nat} :
    (b.dropCall n).work? t = if t = .host n then none else b.work? t := by
  cases t with
  | conn c => rfl
  | host n' =>
    rw [work?, call?_dropCall, work?]
    by_cases hn : n' = n <;> simp [hn]

theorem work?_takeFrame {a : Assembler} : (b.takeFrame c a).work? t = b.work? t :=
  work?_modifyConn_same fun _ => rfl

theorem turnstile_takeFrame {a : Assembler} : (b.takeFrame c a).turnstile c' = b.turnstile c' :=
  turnstile_modifyConn_same fun _ => rfl

theorem work?_takeBytes {bs : Bytes} {up : Pipe} : (b.takeBytes c bs up).work? t = b.work? t :=
  work?_modifyConn_same fun _ => rfl

theorem turnstile_takeBytes {bs : Bytes} {up : Pipe} :
    (b.takeBytes c bs up).turnstile c' = b.turnstile c' :=
  turnstile_modifyConn_same fun _ => rfl

/-- After its answer, a task waits for the next frame, or forwards the message that it answered. -/
theorem exists_work?_afterReply (s : Session) (after : AfterReply) {k : Conn}
    (hk : b.conns[c]? = some k) : ∃ w : Option Work,
      (∀ t, (b.afterReply c s after).1.work? t = if t = .conn c then w else b.work? t) ∧
      (∀ w', w = some w' → w'.Sound) ∧ w.bind Work.delivery? = none := by
  cases after with
  | announce | read =>
    refine ⟨none, fun t => work?_readOn, ?_, rfl⟩
    intro w hw
    cases hw
  | forward p f =>
    refine ⟨some (.spread (b.fanOut p.topic f)), fun t => work?_setPhase hk, ?_, rfl⟩
    intro w hw
    cases hw
    exact sound_fanOut

theorem turnstile_afterReply {s : Session} {after : AfterReply} :
    (b.afterReply c s after).1.turnstile c' = b.turnstile c' := by
  cases after with
  | announce | read => exact turnstile_readOn
  | forward _ _ => exact turnstile_setPhase

/-- A call under a number that is taken is never reached. -/
theorem work?_addCall {n : Nat} {call : HostCall} :
    (b.addCall n call).work? t =
      if t = .host n ∧ b.call? n = none then call.work? else b.work? t := by
  cases t with
  | conn c => simp [work?, addCall]
  | host n' =>
    rw [work?, call?_addCall, work?]
    by_cases hn : n' = n
    · subst hn
      rcases hcall : b.call? n' with _ | old <;> simp
    · simp [hn]

theorem work?_addConn {label : String} {capacity : Nat} :
    (b.addConn label capacity).work? t = b.work? t := by
  cases t with
  | host n => rfl
  | conn c =>
    rw [work?, addConn, work?, List.getElem?_append]
    split_ifs with hlt
    · rfl
    · -- The new connection has only been opened, and there is none behind it.
      rw [List.getElem?_eq_none (Nat.le_of_not_lt hlt)]
      rcases c - b.conns.length with _ | i <;> rfl

theorem turnstile_addConn {label : String} {capacity : Nat} :
    (b.addConn label capacity).turnstile c = b.turnstile c := by
  rw [turnstile, session?, addConn, turnstile, session?, List.getElem?_append]
  split_ifs with hlt
  · rfl
  · rw [List.getElem?_eq_none (Nat.le_of_not_lt hlt)]
    rcases c - b.conns.length with _ | i <;> rfl

theorem turnstile_abandon {d : Delivery} (h : (b.session? d.target).isSome = true) :
    (b.abandon t d).turnstile c =
      if c = d.target ∧ d.state ≠ .starting then (b.turnstile c).leave t else b.turnstile c := by
  obtain ⟨s, hs⟩ := Option.isSome_iff_exists.1 h
  obtain ⟨k, hk, hs⟩ := session?_eq_some.1 hs
  rw [abandon, modifySession, turnstile_modifyConn]
  by_cases hc : c = d.target
  · subst hc
    rw [if_pos rfl, hk, turnstile_eq hk hs]
    rcases hstate : d.state with _ | _ | left <;> simp [hs, Outlet.abandon, Outlet.leave]
  · simp [hc]

end Broker
end Mqtt
