import Mqtt.Proofs.Broker.Turns
/-!
# The frames that a connection takes

The task of a connection takes one frame after the other from what has come. The frames that it has
taken in a run (`framesRead`) are the first ones in all the bytes that have ever come over the
connection, in the pieces in which they came (`framesRead_isPrefix`).
-/

namespace Mqtt

namespace Frame

variable {limit : Nat} {bs : Bytes} {f : Frame}

/-- A frame that is found is no longer than a frame may be. -/
theorem length_body_of_mem_split (h : f ∈ (split limit bs).1) :
    f.body.length ≤ RemainingLength.limit := by
  induction bs using split.induct limit with
  | case1 bs g n hlook ih =>
    rw [split_of_some hlook, List.mem_cons] at h
    rcases h with rfl | h
    · exact (parse_length (look_eq_some.1 hlook).1).2.2
    · exact ih h
  | case2 bs hlook =>
    rw [split_of_ne_some hlook] at h
    cases h

end Frame

namespace Conn

variable {k k' : Conn} {max n : Nat} {bytes bs : Bytes} {frames fs : List Frame} {f : Frame}
  {a : Assembler}

/-- The connection has been refused. -/
def IsRefused (k : Conn) : Prop := k.session = none ∧ k.phase ≠ .greeting

/-- The frames in front are taken from what has come. What is left of it does not matter once the
connection is refused. -/
structure Reads (k k' : Conn) (frames : List Frame) : Prop where
  limit : k'.assembler.limit = k.assembler.limit
  steady : k'.Steady
  taken : ∃ front behind, k.rest = front ++ behind ∧
    Frame.split k.assembler.limit front = (frames, []) ∧ (¬k'.IsRefused → behind = k'.rest)

/-- The frames are the first ones in all that has come. -/
structure HasRead (max : Nat) (bytes : Bytes) (frames : List Frame) (k : Conn) : Prop where
  limit : k.assembler.limit = max
  steady : k.Steady
  taken : ∃ front behind, bytes = front ++ behind ∧ Frame.split max front = (frames, []) ∧
    (¬k.IsRefused → behind = k.rest)

/-- What has come is left alone. -/
theorem Holds.reads (h : k.Holds k') (hsteady : k'.Steady) : k.Reads k' [] :=
  ⟨h.limit, hsteady, [], k.rest, rfl, Frame.split_nil, fun _ => h.rest.symm⟩

/-- The frame in front is taken. -/
theorem reads_of_next (hs : k.assembler.pending = 0) (h : k.assembler.next = .ok (some (f, a)))
    (hlimit : k'.assembler.limit = a.limit)
    (hrest : k'.rest = ({ k with assembler := a } : Conn).rest) (hsteady : k'.Steady) :
    k.Reads k' [f] := by
  obtain ⟨n, hlook, hlimit', hrest'⟩ := look_rest hs h
  exact ⟨hlimit.trans hlimit', hsteady, k.rest.take n, k.rest.drop n,
    (List.take_append_drop n _).symm, Frame.split_take hlook,
    fun _ => (hrest.trans hrest').symm⟩

/-- The frame in front is taken, and the connection is refused because of it. -/
theorem reads_of_refused (hs : k.assembler.pending = 0)
    (h : k.assembler.next = .ok (some (f, a))) (hlimit : k'.assembler.limit = k.assembler.limit)
    (hsteady : k'.Steady) (hrefused : k'.IsRefused) : k.Reads k' [f] := by
  obtain ⟨n, hlook, -, -⟩ := look_rest hs h
  exact ⟨hlimit, hsteady, k.rest.take n, k.rest.drop n, (List.take_append_drop n _).symm,
    Frame.split_take hlook, fun h => absurd hrefused h⟩

theorem hasRead_fresh (label : String) (capacity limit : Nat) :
    (fresh label capacity limit).HasRead limit [] [] :=
  ⟨rfl, fun _ => rfl, [], [], rfl, Frame.split_nil, fun _ => rfl⟩

/-- More frames are taken. -/
theorem HasRead.reads (h : k.HasRead max bytes frames) (hlive : ¬k.IsRefused)
    (hreads : k.Reads k' fs) : k'.HasRead max bytes (frames ++ fs) := by
  obtain ⟨front, behind, rfl, hsplit, hrest⟩ := h.taken
  obtain ⟨front', behind', hbehind, hsplit', hrest'⟩ := hreads.taken
  rw [h.limit] at hsplit'
  refine ⟨hreads.limit.trans h.limit, hreads.steady, front ++ front', behind', ?_, ?_, hrest'⟩
  · rw [hrest hlive, hbehind, List.append_assoc]
  · rw [Frame.split_append, hsplit, List.nil_append, hsplit']

/-- More bytes come. -/
theorem HasRead.arrives (h : k.HasRead max bytes frames)
    (hlimit : k'.assembler.limit = k.assembler.limit) (hsteady : k'.Steady)
    (hrest : k'.rest = k.rest ++ bs) (hrefused : k.IsRefused → k'.IsRefused) :
    k'.HasRead max (bytes ++ bs) frames := by
  obtain ⟨front, behind, rfl, hsplit, hbehind⟩ := h.taken
  refine ⟨hlimit.trans h.limit, hsteady, front, behind ++ bs, List.append_assoc .., hsplit,
    fun hlive => ?_⟩
  rw [hrest, hbehind fun h => hlive (hrefused h)]

/-- The frames that have been taken are the first ones. -/
theorem HasRead.prefix_split (h : k.HasRead max bytes frames) :
    frames <+: (Frame.split max bytes).1 := by
  obtain ⟨front, behind, rfl, hsplit, -⟩ := h.taken
  rw [Frame.split_append, hsplit]
  exact List.prefix_append _ _

end Conn

namespace Broker

variable {b b' b₁ : Broker} {c d : ConnId} {t : Task} {m : Move} {e : Event} {es : List Event}
  {k : Conn} {seen more : List Observation} {log : List Deed} {frames : List Frame}

/-- The frames that a connection takes in a run. -/
def framesRead (c : ConnId) (b : Broker) (es : List Event) : List Frame :=
  machine.collect (fun b e _ _ => b.framesTaken c e) b es

/-- The frame that is taken last comes last. -/
theorem framesRead_concat (h : b.replay es = some (b₁, seen))
    (hnext : b₁.next? e = some (b', more)) :
    framesRead c b (es ++ [e]) = framesRead c b es ++ b₁.framesTaken c e :=
  Machine.collect_concat h hnext

/-! ### What its own task does -/

theorem Serves.not_isRefused (h : Serves b c k m b' seen) : ¬k.IsRefused := by
  rintro ⟨hnone, hphase⟩
  cases h with
  | greets h _ _ | refuses h _ | opens h _ _ => exact hphase h
  | reads _ hs _ _ | handles _ hs _ _ | undecodable _ hs _ _ | ends _ hs _ | answers _ hs _
  | answerFails _ hs _ | answered _ hs _ | forwards _ hs _ | forwarded _ hs _ | closes _ hs
  | shuts _ hs _ =>
    rw [hnone] at hs
    cases hs

/-- **The task of a connection takes the frame in front, or none.** -/
theorem Serves.exists_reads (hg : b.Greets) (hk : b.conns[c]? = some k) (hs : k.Steady)
    (h : Serves b c k m b' seen) :
    ∃ k', b'.conns[c]? = some k' ∧ k.Reads k' (b.framesTaken c (.move (.task (.conn c) m))) := by
  -- Nothing is taken.
  have hsettles (h : b'.Settles c k)
      (htaken : b.framesTaken c (.move (.task (.conn c) m)) = []) :
      ∃ k', b'.conns[c]? = some k' ∧ k.Reads k' (b.framesTaken c (.move (.task (.conn c) m))) := by
    obtain ⟨k', hk', hsteady, hholds⟩ := h
    rw [htaken]
    exact ⟨k', hk', hholds.reads hsteady⟩
  by_cases hm : m ≠ .dispatch
  · exact hsettles (h.settles hk hs hm) (framesTaken_of_ne hm)
  obtain rfl := not_not.1 hm
  have htake {a : Assembler} : (b.takeFrame c a).conns[c]? = some { k with assembler := a } :=
    conns_modifyConn_self hk
  -- The frame in front is taken.
  have htakes {f : Frame} {a : Assembler} (hwaits : k.Waits)
      (hnext : k.assembler.next = .ok (some (f, a))) (hframe : k.frame? = some f)
      (h : b'.Settles c { k with assembler := a }) :
      ∃ k', b'.conns[c]? = some k' ∧
        k.Reads k' (b.framesTaken c (.move (.task (.conn c) .dispatch))) := by
    obtain ⟨k', hk', hsteady, hholds⟩ := h
    rw [framesTaken_dispatch hk, hframe]
    exact ⟨k', hk', Conn.reads_of_next (hs hwaits) hnext hholds.limit hholds.rest hsteady⟩
  -- Something in front is no frame.
  have hmalformed {e : Fault} (hnext : k.assembler.next = .error e) :
      b.framesTaken c (.move (.task (.conn c) .dispatch)) = [] := by
    rw [framesTaken_dispatch hk, frame?_of_malformed hnext]
    rfl
  cases h with
  | @refuses _ e hphase hrefuses =>
    cases hrefuses with
    | malformed hnext => exact hsettles (settles_refuse hk) (hmalformed hnext)
    | unwelcome hnext _ =>
      have hk' : (b.refuse c e).1.conns[c]? = _ := conns_modifyConn_self hk
      rw [framesTaken_dispatch hk, frame?_of_greeting hphase hnext]
      refine ⟨_, hk', Conn.reads_of_refused (hs (.inl hphase)) hnext rfl ?_
        ⟨hg c k hk hphase, by simp⟩⟩
      rintro (hp | ⟨since, hp⟩) <;> cases hp
  | @opens f a v p hphase hnext hgreet =>
    obtain ⟨k', s, hk', hsteady, hrest', hlimit', -, -⟩ :=
      exists_conn_openSession (v := v) (p := p) (htake (a := a))
    rw [framesTaken_dispatch hk, frame?_of_greeting hphase hnext]
    exact ⟨k', hk', Conn.reads_of_next (hs (.inl hphase)) hnext hlimit' hrest' hsteady⟩
  | handles hphase _ hnext _ =>
    exact htakes (.inr ⟨_, hphase⟩) hnext (frame?_of_reading hphase hnext)
      ((handles_handle _).settles htake)
  | undecodable hphase _ hnext _ =>
    exact htakes (.inr ⟨_, hphase⟩) hnext (frame?_of_reading hphase hnext) (settles_finish htake)
  | ends _ _ hends =>
    cases hends with
    | malformed hnext => exact hsettles (settles_finish hk) (hmalformed hnext)
  | forwards _ _ hforwards | forwarded _ _ hforwards => exact absurd rfl hforwards.ne_dispatch

/-! ### A whole run -/

/-- The frames that a connection has taken are the first ones in all that has come over it. -/
structure HasRead (c : ConnId) (b : Broker) (log : List Deed) (frames : List Frame) : Prop where
  absent : b.conns[c]? = none → arrived c log = [] ∧ frames = []
  read : ∀ k, b.conns[c]? = some k → k.HasRead b.maxPacketSize (arrived c log) frames

/-- **Every event keeps it so.** -/
theorem HasRead.step (h : HasRead c b log frames) (hg : b.Greets)
    (hnext : b.next? e = some (b', seen)) :
    HasRead c b' (log ++ b.deeds e b' seen) (frames ++ b.framesTaken c e) := by
  have hevolves := next?_evolves hg hnext
  -- A connection that is not there writes nothing and takes nothing.
  have habsent (hnone : b.conns[c]? = none) :
      arrived c (log ++ b.deeds e b' seen) = [] ∧ frames ++ b.framesTaken c e = [] := by
    obtain ⟨harrived, rfl⟩ := h.absent hnone
    rw [arrived_append, harrived, arrived_deeds_of_absent hnone,
      framesTaken_of_others (ne_move_of_absent hnext hnone)]
    exact ⟨rfl, rfl⟩
  refine ⟨fun hnone => habsent (hevolves.absent hnone), fun k' hk' => ?_⟩
  rcases hk : b.conns[c]? with _ | k
  · obtain ⟨harrived, hframes⟩ := habsent hk
    obtain ⟨label, capacity, rfl⟩ := next?_conns_of_none hnext hk hk'
    rw [harrived, hframes, hevolves.maxPacketSize]
    exact Conn.hasRead_fresh label capacity b.maxPacketSize
  have hread := h.read k hk
  cases next?_concerns hk hnext with
  | @peer i _ hi _ =>
    obtain ⟨l, hk'', hrest⟩ := exists_rest_of_peer hi hk hnext
    obtain rfl := Option.some.inj (hk'.symm.trans hk'')
    rw [hevolves.maxPacketSize, framesTaken_of_others (e := .input i) nofun, List.append_nil,
      arrived_append]
    exact hread.arrives rfl hread.steady hrest id
  | @own m hserves =>
    obtain ⟨k'', hk'', hreads⟩ := hserves.exists_reads hg hk hread.steady
    obtain rfl := Option.some.inj (hk'.symm.trans hk'')
    rw [arrived_append, arrived_deeds_of_ne (e := .move (.task (.conn c) m)) nofun,
      List.append_nil, hevolves.maxPacketSize]
    exact hread.reads hserves.not_isRefused hreads
  | others hpeer hne hspares =>
    obtain ⟨k'', hk'', hholds, hsteady⟩ :=
      hspares.holds ((next?_joins hg hnext).session hne) hk
    obtain rfl := Option.some.inj (hk'.symm.trans hk'')
    have hphase : k'.phase = k.phase := by
      simpa [phase?_of_conn hk, phase?_of_conn hk'] using hspares.phase? hk
    rw [arrived_append, arrived_deeds_of_peer_ne hpeer, framesTaken_of_others hne,
      List.append_nil frames, hevolves.maxPacketSize]
    refine hread.arrives hholds.limit (hsteady hread.steady) ?_ fun hrefused => ?_
    · rw [hholds.rest, List.append_nil]
    · exact ⟨hholds.session hrefused.1, hphase ▸ hrefused.2⟩

theorem hasRead_start (maxPacketSize now : Nat) : HasRead c (start maxPacketSize now) [] [] where
  absent _ := ⟨rfl, rfl⟩
  read k hk := by cases hk

theorem hasRead_of_replay {maxPacketSize now : Nat}
    (h : (start maxPacketSize now).replay es = some (b, seen)) (c : ConnId) :
    HasRead c b ((start maxPacketSize now).history es)
      (framesRead c (start maxPacketSize now) es) := by
  refine replay_induction (P := fun es b _ => HasRead c b ((start maxPacketSize now).history es)
    (framesRead c (start maxPacketSize now) es)) (hasRead_start _ _) ?_ h
  intro es e b₁ seen₁ b₂ more hrun hnext ih
  rw [history_concat hrun hnext, framesRead_concat hrun hnext]
  exact ih.step (exclusive_of_replay hrun).1.greets hnext

/-- **A connection takes its frames in the order in which they came**, and leaves out none. -/
theorem framesRead_isPrefix {maxPacketSize now : Nat}
    (h : (start maxPacketSize now).replay es = some (b, seen)) (c : ConnId) :
    framesRead c (start maxPacketSize now) es <+: (Frame.split maxPacketSize
      (arrived c ((start maxPacketSize now).history es))).1 := by
  have hread := hasRead_of_replay h c
  rcases hk : b.conns[c]? with _ | k
  · rw [(hread.absent hk).2]
    exact List.nil_prefix
  · have hmax : b.maxPacketSize = maxPacketSize :=
      (replay_evolves (greets_start _ _) h).maxPacketSize
    have := (hread.read k hk).prefix_split
    rwa [hmax] at this

end Broker
end Mqtt
