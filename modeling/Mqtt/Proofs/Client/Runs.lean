import Mqtt.Proofs.Client.Lane
import Mqtt.Proofs.Runs
/-!
# Runs of a client, event by event

`Client.replay` plays a list of events from the moment at which a client begins to open its session
(`Client.Begins`). A program calls a client whose session is open, and every call that has not
returned has a number of its own; beyond that anything can happen at any time. The machine whose
runs these are (`Client.machine`) has a client and its link for a state.

`Happens` lists what can happen, one rule for each input, and the moves of the client.
-/

namespace Mqtt

deriving instance DecidableEq for CallAnswer, ClientObservation

namespace Client

/-- Whether the session is open. -/
def isOpen (c : Client) : Bool :=
  match c.stage with
  | .running => true
  | _ => false

/-- Whether an event can happen as far as the program is concerned. -/
def permits (c : Client) : Event → Bool
  | .input (.calls k _) => c.isOpen && !c.calls.contains k
  | _ => true

/-- What an event of a run leads to, if it is possible. -/
def event? (c : Client) (l : Link) (e : Event) : Option Next :=
  if c.permits e then c.next? l e else none

/-- A client and its link as a machine. -/
def machine : Machine (Client × Link) Event (List ClientObservation) where
  next? s e := (s.1.event? s.2 e).map fun n => ((n.1, n.2.1), n.2.2)

/-- What a list of events leads to, with everything that is seen on the way. Nothing if one of them
is not possible. -/
def replay (c : Client) (l : Link) (es : List Event) : Option Next :=
  (machine.replay (c, l) es).map fun r => (r.1.1, r.1.2, r.2)

/-- At every moment of a run something holds of the state and of all that has been seen. -/
def Always (c : Client) (l : Link) (es : List Event)
    (P : Client → Link → List ClientObservation → Prop) : Prop :=
  machine.Always (c, l) es fun s seen => P s.1 s.2 seen

/-- No event of a run is of a certain sort. -/
def Never (c : Client) (l : Link) (es : List Event) (P : Client → Link → Event → Prop) : Prop :=
  machine.Never (c, l) es fun s e => P s.1 s.2 e

/-- A client begins to open its session over a connection over which nothing has been sent. -/
inductive Begins : Client → Link → Prop
  | intro {config : ClientConfig} {now up down : Nat} {c : Client} : connect config now = .ok c →
    Begins c ⟨.empty up, .empty down⟩

variable {c c' c₁ c₂ : Client} {l l' l₁ l₂ : Link} {es es₁ es₂ : List Event} {e : Event} {k : Nat}
  {seen seen₁ more : List ClientObservation} {n : Next}

/-! ### Lists of events -/

theorem machine_next?_eq_some :
    machine.next? (c, l) e = some ((c₁, l₁), seen) ↔ c.event? l e = some (c₁, l₁, seen) := by
  show (c.event? l e).map _ = _ ↔ _
  rw [Option.map_eq_some_iff]
  exact ⟨fun ⟨n, hn, heq⟩ => by cases heq; exact hn, fun h => ⟨_, h, rfl⟩⟩

theorem replay_eq_some :
    c.replay l es = some (c₁, l₁, seen) ↔ machine.replay (c, l) es = some ((c₁, l₁), seen) := by
  rw [replay, Option.map_eq_some_iff]
  exact ⟨fun ⟨r, hr, heq⟩ => by cases heq; exact hr, fun h => ⟨_, h, rfl⟩⟩

/-- The first event of a run. -/
theorem replay_cons_eq_some : c.replay l (e :: es) = some (c₂, l₂, seen) ↔ ∃ c₁ l₁ seen₁ more,
    c.event? l e = some (c₁, l₁, seen₁) ∧ c₁.replay l₁ es = some (c₂, l₂, more) ∧
      seen = seen₁ ++ more := by
  simp only [replay_eq_some, Machine.replay_cons_eq_some, Prod.exists, machine_next?_eq_some]

/-- The last event of a run. -/
theorem replay_concat_eq_some : c.replay l (es ++ [e]) = some (c₂, l₂, seen) ↔
    ∃ c₁ l₁ seen₁ more, c.replay l es = some (c₁, l₁, seen₁) ∧
      c₁.event? l₁ e = some (c₂, l₂, more) ∧ seen = seen₁ ++ more := by
  simp only [replay_eq_some, Machine.replay_concat_eq_some, Prod.exists, machine_next?_eq_some]

/-- What is left of a run behind a part of it. -/
theorem exists_rest_of_prefix (h : c.replay l es = some (c₂, l₂, seen)) (hp : es₁ <+: es)
    (h₁ : c.replay l es₁ = some (c₁, l₁, seen₁)) :
    ∃ es₂ more, es = es₁ ++ es₂ ∧ c₁.replay l₁ es₂ = some (c₂, l₂, more) ∧
      seen = seen₁ ++ more := by
  simp only [replay_eq_some] at h h₁ ⊢
  exact Machine.exists_rest_of_prefix h hp h₁

/-- Every event of a run is possible where it happens. -/
theorem exists_event?_of_prefix (h : c.replay l es = some (c₂, l₂, seen)) (hp : es₁ ++ [e] <+: es)
    (h₁ : c.replay l es₁ = some (c₁, l₁, seen₁)) : ∃ n, c₁.event? l₁ e = some n := by
  obtain ⟨⟨c', l'⟩, more, hnext⟩ :=
    Machine.exists_next?_of_prefix (replay_eq_some.1 h) hp (replay_eq_some.1 h₁)
  exact ⟨_, machine_next?_eq_some.1 hnext⟩

theorem always_iff {P : Client → Link → List ClientObservation → Prop} : c.Always l es P ↔
    ∀ es₁ c₁ l₁ seen₁, es₁ <+: es → c.replay l es₁ = some (c₁, l₁, seen₁) → P c₁ l₁ seen₁ := by
  simp only [Always, Machine.Always, Prod.forall, replay_eq_some]

theorem never_iff {P : Client → Link → Event → Prop} : c.Never l es P ↔
    ∀ es₁ e c₁ l₁ seen₁, es₁ ++ [e] <+: es → c.replay l es₁ = some (c₁, l₁, seen₁) →
      ¬P c₁ l₁ e := by
  simp only [Never, Machine.Never, Prod.forall, replay_eq_some]

theorem Never.upTo {P : Client → Link → Event → Prop} (h : c.Never l es P) (hp : es₁ <+: es) :
    c.Never l es₁ P :=
  Machine.Never.upTo h hp

/-- What follows a part of a run has no event of the sort either. -/
theorem Never.behind {P : Client → Link → Event → Prop} (h : c.Never l (es₁ ++ es₂) P)
    (h₁ : c.replay l es₁ = some (c₁, l₁, seen₁)) : c₁.Never l₁ es₂ P :=
  Machine.Never.behind h (replay_eq_some.1 h₁)

/-- The last event is not of a certain sort either. -/
theorem Never.last {P : Client → Link → Event → Prop} (h : c.Never l (es ++ [e]) P)
    (hrun : c.replay l es = some (c₁, l₁, seen₁)) : ¬P c₁ l₁ e :=
  ((Machine.never_concat (replay_eq_some.1 hrun)).1 h).2

/-- **Induction along a run**: what holds at first, and after every event if it held before. -/
theorem replay_induction {P : List Event → Client → Link → List ClientObservation → Prop}
    (hstart : P [] c l [])
    (hnext : ∀ es e c₁ l₁ seen₁ c₂ l₂ more, c.replay l es = some (c₁, l₁, seen₁) →
      c₁.event? l₁ e = some (c₂, l₂, more) → P es c₁ l₁ seen₁ →
      P (es ++ [e]) c₂ l₂ (seen₁ ++ more))
    (h : c.replay l es = some (c₂, l₂, seen)) : P es c₂ l₂ seen :=
  Machine.replay_induction (P := fun es s seen => P es s.1 s.2 seen) hstart
    (fun es e s₁ seen₁ s₂ more hrun hstep => hnext es e s₁.1 s₁.2 seen₁ s₂.1 s₂.2 more
      (replay_eq_some.2 hrun) (machine_next?_eq_some.1 hstep))
    (replay_eq_some.1 h)

/-- What every event keeps holds at the end of a run if it holds at its beginning. -/
theorem replay_invariant {P : Client → Link → Prop}
    (hnext : ∀ c l e n, c.event? l e = some n → P c l → P n.1 n.2.1) (hstart : P c l)
    (h : c.replay l es = some (c₂, l₂, seen)) : P c₂ l₂ :=
  replay_induction (P := fun _ c l _ => P c l) hstart
    (fun _ e c₁ l₁ _ c₂ l₂ more _ hevent hp => hnext c₁ l₁ e (c₂, l₂, more) hevent hp) h

/-! ### What can happen -/

/-- What can happen in a run, and what it leads to. -/
inductive Happens (c : Client) (l : Link) : Event → Next → Prop
  | begins {k : Nat} {call : ClientCall} {c' : Client} : c.stage = .running → c.calls[k]? = none →
    Starts c k call c' → Happens c l (.input (.calls k call)) (c', l, [])
  | refuses {k : Nat} {call : ClientCall} {a : CallAnswer} : c.stage = .running →
    c.calls[k]? = none → c.start k call = .error a →
    Happens c l (.input (.calls k call)) (c, l, [.answered k a])
  | abandons {k : Nat} : Happens c l (.input (.abandons k)) (c.abandon k, l, [])
  | cancels : Happens c l (.input .cancels) (c.cancel, l, [])
  | drops : Happens c l (.input .drops) (c.drop, l, [])
  | writes {bs taken left : Bytes} {down : Pipe} : l.down.write bs = .took down taken left →
    Happens c l (.input (.peerWrites bs)) (c, { l with down := down }, [])
  | writesNothing {bs : Bytes} : (∀ down taken left, l.down.write bs ≠ .took down taken left) →
    Happens c l (.input (.peerWrites bs)) (c, l, [])
  | reads {most : Nat} {bs : Bytes} {up : Pipe} : l.up.read most = .got bs up →
    Happens c l (.input (.peerReads most)) (c, { l with up := up }, [])
  | readsNothing {most : Nat} : Happens c l (.input (.peerReads most)) (c, l, [])
  | shuts : Happens c l (.input .peerShuts) (c, { l with down := l.down.close }, [])
  | leaves : Happens c l (.input .peerDrops) (c, l.drop, [])
  | elapses {millis : Nat} :
    Happens c l (.input (.elapses millis)) ({ c with now := c.now + millis }, l, [])
  | moves {a : Action} {n : Next} : c.step l a = some n → Happens c l (.move a) n

theorem isOpen_iff : c.isOpen = true ↔ c.stage = .running := by
  rw [isOpen]
  split <;> simp_all

theorem happens_of_event? (h : c.event? l e = some n) : Happens c l e n := by
  rw [event?] at h
  split_ifs at h with hpermits
  cases e with
  | move a => exact .moves h
  | input i =>
    cases i with
    | calls k call =>
      rw [permits, Bool.and_eq_true, isOpen_iff, Bool.not_eq_true',
        Std.TreeMap.contains_eq_isSome_getElem?, Option.isSome_eq_false_iff,
        Option.isNone_iff_eq_none] at hpermits
      -- A call is permitted to an open client, under a number that is not in use.
      obtain ⟨hrunning, hnone⟩ := hpermits
      change some (c.accept l (.calls k call)) = some n at h
      rw [accept] at h
      split at h
      · next c' hstart =>
        cases h
        exact .begins hrunning hnone (starts_of_start hstart)
      · next a hstart =>
        cases h
        exact .refuses hrunning hnone hstart
    | peerWrites bs =>
      change some (c.accept l (.peerWrites bs)) = some n at h
      rw [accept] at h
      split at h
      · next hw =>
        cases h
        exact .writes hw
      · next hw =>
        cases h
        exact .writesNothing hw
    | peerReads most =>
      change some (c.accept l (.peerReads most)) = some n at h
      rw [accept] at h
      split at h
      · next hr =>
        cases h
        exact .reads hr
      · cases h
        exact .readsNothing
    | abandons k =>
      cases h
      exact .abandons
    | cancels =>
      cases h
      exact .cancels
    | drops =>
      cases h
      exact .drops
    | peerShuts =>
      cases h
      exact .shuts
    | peerDrops =>
      cases h
      exact .leaves
    | elapses millis =>
      cases h
      exact .elapses

/-! ### How a run begins -/

/-- A client that begins has its CONNECT to send, and nothing else. -/
theorem connect_eq_ok {config : ClientConfig} {now : Nat} (h : connect config now = .ok c) :
    ∃ bs, (Packet.connect config.connect).toBytes config.version = .ok bs ∧
      c = fresh config bs now := by
  rw [connect] at h
  rcases hv : config.validate with e | ⟨⟩
  · simp only [bind, Except.bind, hv] at h
    cases h
  · rcases hbytes : (Packet.connect config.connect).toBytes config.version with e | bs
    · simp only [bind, Except.bind, hv, hbytes] at h
      cases h
    · simp only [bind, Except.bind, hv, hbytes] at h
      cases h
      exact ⟨bs, rfl, rfl⟩

theorem begins_of_toOption {config : ClientConfig} {now up down : Nat}
    (h : (connect config now).toOption = some c) : Begins c ⟨.empty up, .empty down⟩ := by
  rcases hc : connect config now with f | c'
  · rw [hc] at h
    cases h
  · rw [hc] at h
    cases h
    exact .intro hc

section Fresh

variable {config : ClientConfig} {bs : Bytes} {now : Nat} {i : Party}

theorem calls_fresh : (fresh config bs now).calls[k]? = none := Std.TreeMap.getElem?_emptyc

theorem call?_fresh : (fresh config bs now).call? k = none := by
  rw [call?, calls_fresh]
  rfl

theorem orderly_fresh : (fresh config bs now).Orderly :=
  ⟨fun _ => rfl, fun _ => rfl, fun _ _ => call?_fresh, fun _ => rfl⟩

variable (hbytes : (Packet.connect config.connect).toBytes config.version = .ok bs)

include hbytes

/-- Nobody but the reader sends anything, and it sends the CONNECT. -/
theorem sending_fresh : (fresh config bs now).lane.sending i =
    if i = .reader then some (.ok bs, .pushing bs) else none := by
  cases i with
  | reader =>
    show some ((Packet.connect config.connect).toBytes config.version, _) = _
    rw [hbytes]
    rfl
  | keeper => rfl
  | call n => exact sending?_of_call?_eq_none (c := fresh config bs now) (k := n) call?_fresh

theorem exclusive_fresh : (fresh config bs now).lane.Exclusive := by
  have hwhole : Frame.Whole bs := Packet.frameWhole_toBytes _ _ bs hbytes
  have honly {i : Party} {x : Except Fault Bytes × Sending}
      (h : (fresh config bs now).lane.sending i = some x) :
      i = .reader ∧ x = (.ok bs, .pushing bs) := by
    rw [sending_fresh hbytes] at h
    split_ifs at h with hi
    exact ⟨hi, (Option.some.inj h).symm⟩
  refine ⟨?_, ?_, ?_⟩
  · intro i frame left hi
    obtain ⟨rfl, -⟩ := honly hi
    rfl
  · intro i frame left hi
    obtain ⟨-, h⟩ := honly hi
    cases h
    exact ⟨hwhole.ne_nil, [], rfl⟩
  · intro i frame s hi
    obtain ⟨-, h⟩ := honly hi
    cases h
    exact hwhole

/-- The whole CONNECT is still to be pushed. -/
theorem carries_fresh : (fresh config bs now).lane.Carries [] [] :=
  ⟨[], rfl, .inr ⟨.reader, bs, sending_fresh hbytes⟩⟩

end Fresh

end Client
end Mqtt
