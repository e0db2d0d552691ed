/-
  CanDfu.Proofs.LiveBuses

  Sessions on a live bus, which can always bring one more frame.

    * `session_steady` : wherever the bus is cut off, a session that leaves receives over does not
      see it.
    * `session_yields` : where time moves on with every frame (`MovesOn`), every session has exactly
      one outcome, whatever the traffic.
    * `await_endless` : on a clock that stands still, a wait may have none.

  What is to be known of a transport for the one and for the other is `Transport.IsSteady` and
  `Transport.IsEnding`.  A wait is taken apart into the clock, one receive and the rest of the wait
  (`Awaited.listen_eq`); it is steady since with every receive less is left to be received, and it
  ends since with every frame less time is left.
-/
import CanDfu.Proofs.CutOff
import CanDfu.Proofs.ResponseWaits

namespace CanDfu

variable {τ σ ε α β : Type}

/-! ## Waits -/

/-- Reads the clock. -/
def Transport.now (t : Transport σ) : Routine Note σ ε Nat :=
  fun s => ⟨.ok (t.clock s).1, (t.clock s).2, []⟩

theorem Transport.now_bind_apply (t : Transport σ) (f : Nat → Routine Note σ ε α) (s : σ) :
    (t.now >>= f) s = f (t.clock s).1 (t.clock s).2 :=
  Routine.bind_of_ok (r := t.now) rfl f

/-- A wait for a deadline, as a routine. -/
def Awaited.listen (t : Transport σ) (a : Awaited) (patience deadline : Nat) :
    Routine Note σ SessionError (List UInt8) :=
  a.receive t patience deadline

/-- What a wait does with what came of a receive that was begun at `now`. -/
def Awaited.conclude (t : Transport σ) (a : Awaited) (patience deadline now : Nat) :
    Except TransportError Frame → Routine Note σ SessionError (List UInt8)
  | .error e => Routine.fail (missed patience e)
  | .ok f =>
    if a.isAnswer f then Routine.ofExcept (a.accept f)
    else do
      Routine.emit (.record ⟨.trace, "Ignoring unrelated frame", [("frame", f.text)]⟩)
      if deadline - now = 0 then Routine.fail (.noResponse (wholeMillis patience))
      else a.listen t patience deadline

/-- A wait is a reading of the clock, a receive, and the rest of the wait. -/
theorem Awaited.listen_eq (t : Transport σ) (a : Awaited) (patience deadline : Nat) :
    a.listen t patience deadline = t.now >>= fun now =>
      (t.receive (deadline - now)).attempt >>= a.conclude t patience deadline now := by
  funext s
  rw [listen, receive_eq, Transport.now_bind_apply]
  cases found : t.receive (deadline - (t.clock s).1) (t.clock s).2 with
  | mk x s' log =>
    have handed : ((t.receive (deadline - (t.clock s).1)).attempt :
        Routine Note σ SessionError (Except TransportError Frame)) (t.clock s).2
          = ⟨.ok x, s', log⟩ := by
      rw [Routine.attempt, found]
    rw [Routine.bind_of_ok handed]
    cases x with
    | error e => simp [conclude]
    | ok f =>
      simp only [conclude]
      split
      · simp
      · rw [Routine.bind_of_ok (Routine.emit_apply _ s')]
        by_cases reached : deadline - (t.clock s).1 = 0
        · rw [if_pos reached, if_pos reached]
          rfl
        · rw [if_neg reached, if_neg reached]
          rfl

/-- The wait for an answer is a wait for a deadline that the clock can tell. -/
theorem Awaited.await_eq_bind (t : Transport σ) (a : Awaited) (patience : Nat) :
    Awaited.await t a patience = t.now >>= fun now =>
      if t.tells (now + patience) then a.listen t patience (now + patience)
      else Routine.fail .fatal := by
  funext s
  rw [Transport.now_bind_apply]
  by_cases told : t.tells ((t.clock s).1 + patience) = true
  · rw [await_of_told a told, if_pos told]
    rfl
  · rw [await_of_untold a told, if_neg told]
    rfl

/-- A clock that moves on: it is not set back when it is read, and shows a later time when a frame
has come. -/
structure MovesOn (clock : σ → Nat × σ) (receive : Nat → Routine Note σ TransportError Frame) :
    Prop where
  read : ∀ s, (clock s).1 ≤ (clock (clock s).2).1
  received : ∀ patience s f, (receive patience (clock s).2).result = .ok f →
    (clock s).1 < (clock (receive patience (clock s).2).state).1

/-- A transport that is cut off, with a clock that does not see the cut. -/
structure Transport.Clocked (t : Transport (Lasting τ)) : Prop where
  clock : ∀ k s, t.clock (s.more k) = ((t.clock s).1, (t.clock s).2.more k)
  left : ∀ s, (t.clock s).2.left = s.left

/-- A transport that is cut off, and whose uses do not see the cut. -/
structure Transport.IsSteady (t : Transport (Lasting τ)) : Prop extends t.Clocked where
  send : ∀ f, Steady .whole (t.send f)
  receive : ∀ patience, Steady .whole (t.receive patience)

/-- A transport that is cut off, and on which time moves on. -/
structure Transport.IsEnding (t : Transport (Lasting τ)) : Prop extends t.IsSteady where
  ends_send : ∀ f s, EndsAt .whole (t.send f) s
  ends_receive : ∀ patience s, EndsAt .whole (t.receive patience) s
  time : MovesOn t.clock t.receive

section

variable {t : Transport (Lasting τ)}

theorem Transport.Clocked.now (clocked : t.Clocked) :
    Ending .whole (t.now : Routine Note (Lasting τ) ε Nat) where
  steady s := by
    refine ⟨Nat.le_of_eq (clocked.left s), fun _ k => ?_⟩
    show Outcome.mk (Except.ok (t.clock (s.more k)).1) (t.clock (s.more k)).2 [] = _
    rw [clocked.clock]
    rfl
  ends s := by
    refine ⟨1, ?_⟩
    show 0 < (t.clock (s.more 1)).2.left
    rw [clocked.left]
    exact Nat.succ_pos _

namespace Transport.IsSteady

variable (steady : t.IsSteady)
include steady

theorem listen (a : Awaited) (patience deadline : Nat) :
    Steady .whole (a.listen t patience deadline) := by
  intro s
  -- the induction is on what can still be received; it ends the wait
  induction held : t.backlog s using Nat.strongRecOn generalizing s with
  | ind n ih =>
    rw [Awaited.listen_eq]
    refine (steady.now.steady s).bind fun now read => ?_
    refine ((steady.receive (deadline - now)).attempt _).bind fun x got => ?_
    cases x with
    | error e => exact Steady.ofExcept (.error _) _
    | ok f =>
      dsimp only [Awaited.conclude]
      split
      · exact Steady.ofExcept _ _
      · refine (Steady.emit _ _).bind fun _ _ => ?_
        split
        · exact Steady.ofExcept (.error _) _
        · refine ih _ ?_ _ rfl
          have fewer := t.backlog_receive (deadline - now) (t.clock s).2 f (Except.ok.inj got)
          exact Nat.lt_of_lt_of_le fewer (held ▸ t.backlog_clock s)

theorem supports : t.Supports (steadiness τ) where
  send := steady.send
  await a patience := by
    rw [Awaited.await_eq_bind]
    refine (steadiness τ).bind steady.now.steady fun now => ?_
    split
    · exact steady.listen a patience _
    · exact (steadiness τ).fail _

end Transport.IsSteady

namespace Transport.IsEnding

variable (ending : t.IsEnding)
include ending

theorem ending_receive (patience : Nat) : Ending .whole (t.receive patience) :=
  ⟨ending.receive patience, ending.ends_receive patience⟩

theorem listen (a : Awaited) (patience deadline : Nat) :
    Ending .whole (a.listen t patience deadline) := by
  refine ⟨ending.toIsSteady.listen a patience deadline, fun s => ?_⟩
  -- the induction is on the time that is left; with every frame it gets less
  induction early : deadline - (t.clock s).1 using Nat.strongRecOn generalizing s with
  | ind n ih =>
    rw [Awaited.listen_eq]
    refine EndsAt.bind ending.now.steady (ending.now.ends s) fun k now read => ?_
    have clock := ending.clock k s
    obtain rfl : (t.clock s).1 = now :=
      (congrArg Prod.fst clock).symm.trans (Except.ok.inj read)
    have received : Ending .whole ((t.receive (deadline - (t.clock s).1)).attempt :
        Routine Note (Lasting τ) SessionError (Except TransportError Frame)) :=
      (ending.ending_receive _).attempt
    have reached (j : Nat) : Place.whole.more j (t.clock (s.more k)).2
        = (t.clock (s.more (k + j))).2 := by
      rw [clock, ending.clock]
      exact Place.more_more (p := .whole) k j _
    refine EndsAt.bind received.steady (received.ends _) fun j x got => ?_
    cases x with
    | error e => exact (Ending.ofExcept (.error _)).ends _
    | ok f =>
      dsimp only [Awaited.conclude]
      split
      · exact (Ending.ofExcept _).ends _
      · refine EndsAt.bind (Steady.emit _) ((Ending.emit _).ends _) fun i _ _ => ?_
        split
        · exact (Ending.ofExcept (.error _)).ends _
        · refine ih _ ?_ _ rfl
          have frame : (t.receive (deadline - (t.clock s).1)
              (t.clock (s.more (k + j))).2).result = .ok f := by
            rw [← reached]
            exact Except.ok.inj got
          have later := ending.time.received _ _ f frame
          show deadline - (t.clock ((t.receive (deadline - (t.clock s).1)
            (Place.whole.more j (t.clock (s.more k)).2)).state.more i)).1 < n
          rw [reached, ending.clock i]
          rw [ending.clock (k + j) s] at later ⊢
          dsimp only at later ⊢
          omega

theorem supports : t.Supports (finiteness τ) where
  send f := ⟨ending.send f, ending.ends_send f⟩
  await a patience := by
    rw [Awaited.await_eq_bind]
    refine (finiteness τ).bind ending.now fun now => ?_
    split
    · exact ending.listen a patience _
    · exact (finiteness τ).fail _

end Transport.IsEnding

end

/-! ## Live transports -/

/-- A carrier of frames on a live bus, which can always bring one more. -/
structure LiveTransport (τ : Type) where
  name : String
  send : Frame → Routine Note τ TransportError Unit
  receive : Nat → Routine Note τ TransportError Frame
  clock : τ → Nat × τ
  tells : Nat → Bool := fun _ => true

namespace LiveTransport

/-- The transport while so many receives last. -/
def lasting (t : LiveTransport τ) : Transport (Lasting τ) where
  name := t.name
  send f := (t.send f).kept
  receive patience := (t.receive patience).counted (.readFailed "broken down") []
  clock s := ((t.clock s.state).1, { s with state := (t.clock s.state).2 })
  tells := t.tells
  backlog := Lasting.left
  backlog_receive patience s f ok := by
    unfold Routine.counted at ok ⊢
    split at ok
    · cases ok
    · next some =>
      rw [if_neg some]
      exact Nat.sub_one_lt some
  backlog_clock _ := Nat.le_refl _

theorem isSteady_lasting (t : LiveTransport τ) : t.lasting.IsSteady where
  send _ := (Ending.kept _).steady
  receive _ := (Ending.counted _ _ _).steady
  clock _ _ := rfl
  left _ := rfl

theorem isEnding_lasting {t : LiveTransport τ} (time : MovesOn t.clock t.receive) :
    t.lasting.IsEnding where
  toIsSteady := t.isSteady_lasting
  ends_send _ := (Ending.kept _).ends
  ends_receive _ := (Ending.counted _ _ _).ends
  time := {
    read := fun s => time.read s.state
    received := fun patience s f ok => by
      by_cases nothing : s.left = 0
      · have fails : t.lasting.receive patience (t.lasting.clock s).2 = _ :=
          Routine.counted_of_none (s := (t.lasting.clock s).2) nothing _ _ _
        rw [fails] at ok
        cases ok
      · have taken : t.lasting.receive patience (t.lasting.clock s).2 = _ :=
          Routine.counted_of_left (s := (t.lasting.clock s).2) nothing _ _ _
        rw [taken] at ok ⊢
        exact time.received patience s.state f ok }

end LiveTransport

namespace Traffic

/-- Traffic on a live bus. -/
def live (g : Traffic) : LiveTransport Position where
  name := "traffic"
  send f p := ⟨.ok (), { p with sent := p.sent ++ [f] }, []⟩
  receive _ p := ⟨g.receives p.received, { p with received := p.received + 1 }, []⟩
  clock p := (g.clock p.readings, { p with readings := p.readings + 1 })

/-- Time moves on with traffic whose clock always rises. -/
theorem movesOn_live {g : Traffic} (rises : ∀ n, g.clock n < g.clock (n + 1)) :
    MovesOn g.live.clock g.live.receive where
  read p := Nat.le_of_lt (rises p.readings)
  received _ p _ _ := rises p.readings

end Traffic

/-! ## Sessions -/

/-- Gives a device commands, one after another. -/
def Device.commanded (d : Device σ) : List Command → Routine Note σ SessionError (List Call)
  | [] => pure []
  | c :: rest => do
    let answer ← (d.call c).attempt
    let made ← d.commanded rest
    pure (⟨c, answer⟩ :: made)

/-- Commands make the calls of a session, and leave what it leaves. -/
theorem Device.commanded_apply (d : Device σ) (commands : List Command) (s : σ) : ∃ log,
    d.commanded commands s = ⟨.ok (d.session commands s).1, (d.session commands s).2, log⟩ := by
  induction commands generalizing s with
  | nil => exact ⟨[], rfl⟩
  | cons c rest ih =>
    obtain ⟨log, made⟩ := ih (d.call c s).state
    have called : ((d.call c).attempt : Routine Note σ SessionError _) s
        = ⟨.ok (d.call c s).result, (d.call c s).state, (d.call c s).log⟩ := rfl
    unfold commanded
    rw [Routine.bind_of_ok called, Routine.bind_of_ok made]
    exact ⟨_, rfl⟩

/-- Addresses a node and gives it commands. -/
def Node.session (t : Transport σ) (p : Profile) (node : UInt8) (patience : Nat)
    (commands : List Command) : Routine Note σ SessionError (List Call) := do
  let n ← Node.connect t p node patience
  (n.device t).commanded commands

section

variable {P : Compositional σ}

theorem Device.Supports.commanded {d : Device σ} (supports : d.Supports P)
    (commands : List Command) :
    P.Holds .notes (d.commanded commands) := by
  induction commands with
  | nil => exact P.pure _
  | cons c rest ih =>
    exact P.bind (P.attempt (supports c)) fun _ => P.bind ih fun _ => P.pure _

theorem Transport.Supports.session {t : Transport σ} (supports : t.Supports P) (p : Profile)
    (node : UInt8) (patience : Nat) (commands : List Command) :
    P.Holds .notes (Node.session t p node patience commands) :=
  P.bind (Node.holds_connect supports p node patience) fun n =>
    (n.supports_device supports).commanded commands

end

namespace LiveTransport

/-- Addressing a node on a live bus does not see where the bus is cut off: if it leaves receives
over, it does the same with more of them.  Nor do the commands that are given to it then. -/
theorem session_steady (t : LiveTransport τ) :
    (∀ p node patience s, let o := Node.connect t.lasting p node patience s
      0 < o.state.left → ∀ k,
        Node.connect t.lasting p node patience (s.more k) = ⟨o.result, o.state.more k, o.log⟩) ∧
    (∀ (n : Node) commands s, let run := (n.device t.lasting).session commands s
      0 < run.2.left → ∀ k,
        (n.device t.lasting).session commands (s.more k) = (run.1, run.2.more k)) := by
  have supports := t.isSteady_lasting.supports
  constructor
  · intro p node patience s o spare k
    exact (Node.holds_connect supports p node patience s).same spare k
  · intro n commands s run spare k
    obtain ⟨_, made⟩ := (n.device t.lasting).commanded_apply commands s
    obtain ⟨_, made'⟩ := (n.device t.lasting).commanded_apply commands (s.more k)
    have same := ((n.supports_device supports).commanded commands s).same
    rw [made] at same
    injection made'.symm.trans (same spare k) with calls state
    exact Prod.ext (Except.ok.inj calls) state

/-- A session on a live bus on which time moves on with every frame has exactly one outcome,
whatever the traffic. -/
theorem session_yields (t : LiveTransport τ) (time : MovesOn t.clock t.receive) (p : Profile)
    (node : UInt8) (patience : Nat) (commands : List Command) (s : τ) :
    let session := Node.session t.lasting p node patience commands
    ∃ o, session.Yields s o ∧ ∀ o', session.Yields s o' → o' = o :=
  Ending.exists_yields ((isEnding_lasting time).supports.session p node patience commands) s

/-- Frames of another node without end do not keep a session from its end. -/
theorem session_yields_busy (patience : Nat) (commands : List Command) :
    let session := Node.session busyTraffic.live.lasting seededProfile 1 patience commands
    ∃ o, session.Yields {} o ∧ ∀ o', session.Yields {} o' → o' = o := by
  have rises (n : Nat) : busyTraffic.clock n < busyTraffic.clock (n + 1) := by
    show n * 3000000 < (n + 1) * 3000000
    omega
  exact session_yields busyTraffic.live (Traffic.movesOn_live rises) _ _ patience commands {}

end LiveTransport

/-! ## Clocks that stand still -/

namespace Traffic

variable {g : Traffic} {a : Awaited} {now : Nat} (still : ∀ n, g.clock n = now)
  (others : ∀ n, ∃ f, g.receives n = .ok f ∧ ¬ a.Matches f)
include still others

/-- A wait for a deadline that does not come nearer takes all the receives that are left. -/
theorem left_listen (patience : Nat) {deadline : Nat} (early : now < deadline) (n : Nat)
    (p : Position) : (a.listen g.live.lasting patience deadline ⟨p, n⟩).state.left = 0 := by
  have begun (s : Lasting Position) : (g.live.lasting.clock s).1 = now := still s.state.readings
  induction n generalizing p with
  | zero =>
    have fails : g.live.lasting.receive (deadline - now) (g.live.lasting.clock ⟨p, 0⟩).2
        = ⟨.error (.readFailed "broken down"), ⟨{ p with readings := p.readings + 1 }, 0⟩, []⟩ :=
      rfl
    rw [Awaited.listen, Awaited.receive_eq, begun, fails]
  | succ n ih =>
    obtain ⟨f, frame, other⟩ := others p.received
    have comes : g.live.lasting.receive (deadline - now) (g.live.lasting.clock ⟨p, n + 1⟩).2
        = ⟨.ok f, ⟨{ p with readings := p.readings + 1, received := p.received + 1 }, n⟩, []⟩ :=
      congrArg (Outcome.mk · _ []) frame
    have passed : ¬ a.isAnswer f = true := fun answer => other (a.isAnswer_iff_matches.mp answer)
    have time_left : deadline - now ≠ 0 := Nat.sub_ne_zero_of_lt early
    rw [Awaited.listen, Awaited.receive_eq, begun, comes]
    dsimp only
    rw [if_neg passed, if_neg time_left]
    exact ih _

/-- Time has to move on: on a clock that stands still, frames of others keep a wait from its end
for ever. -/
theorem await_endless {patience : Nat} (some_time : 0 < patience) (p : Position)
    (o : Outcome Note Position SessionError (List UInt8)) :
    ¬ (Awaited.await g.live.lasting a patience).Yields p o := by
  rintro ⟨n, left, same⟩
  have none_left : (Awaited.await g.live.lasting a patience ⟨p, n + 1⟩).state.left = 0 := by
    have early : now < g.clock p.readings + patience := by
      rw [still]
      exact Nat.lt_add_of_pos_right some_time
    rw [Awaited.await_of_told a rfl]
    exact left_listen still others patience early _ _
  rw [same] at none_left
  exact absurd none_left (Nat.succ_ne_zero left)

end Traffic

end CanDfu
