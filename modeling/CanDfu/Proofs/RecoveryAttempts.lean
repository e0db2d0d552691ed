/-
  CanDfu.Proofs.RecoveryAttempts

  What a recovery makes of what it meets.  Its addressing attempts meet a stream of outcomes, one
  after the other and from run to run:

    no response          counted and told, then the next attempt
    a device             returned
    any other failure    returned, unchanged

  So a run is decided by the first outcome that breaks the silence (`BreaksSilence`), and goes on
  as long as none does.  `Recovery.watched` notes every outcome that an attempt meets, and thereby
  how many attempts are made.

  On a bus an attempt hands over one frame and waits for the answer (`Node.Attempted`); whether it
  counts as silence is settled by the wait alone, not by what sending the frame comes to.
-/
import CanDfu.Proofs.ResponseWaits
import CanDfu.Recovery

namespace CanDfu

variable {κ δ τ : Type}

namespace Recovery

/-! ## The outcomes of attempts -/

/-- The bus after some attempts, whatever came of them. -/
def busAfter (connect : Routine Note κ SessionError δ) : Nat → κ → κ
  | 0, bus => bus
  | k + 1, bus => busAfter connect k (connect bus).state

/-- What comes of attempts, one after the other. -/
def outcomeAt (connect : Routine Note κ SessionError δ) (bus : κ) (k : Nat) :
    Except SessionError δ :=
  (connect (busAfter connect k bus)).result

/-- Nobody answered an attempt in time. -/
def Unanswered (x : Except SessionError δ) : Prop := ∃ millis, x = .error (.noResponse millis)

/-- The first outcome of a stream that is not silence, behind `n` that are. -/
structure BreaksSilence (outcomes : Nat → Except SessionError δ) (n : Nat) : Prop where
  silent : ∀ k < n, Unanswered (outcomes k)
  broken : ¬ Unanswered (outcomes n)

variable {connect : Routine Note κ SessionError δ} {retryDelay r n limit : Nat} {bus : κ}

theorem busAfter_add (connect : Routine Note κ SessionError δ) (j k : Nat) (bus : κ) :
    busAfter connect (j + k) bus = busAfter connect k (busAfter connect j bus) := by
  induction j generalizing bus with
  | zero => rw [Nat.zero_add, busAfter]
  | succ j ih => rw [Nat.succ_add, busAfter, busAfter, ih]

theorem outcomeAt_busAfter (connect : Routine Note κ SessionError δ) (bus : κ) (j k : Nat) :
    outcomeAt connect (busAfter connect j bus) k = outcomeAt connect bus (j + k) := by
  rw [outcomeAt, outcomeAt, busAfter_add]

/-- Behind a silent attempt the silence is broken one attempt earlier. -/
theorem BreaksSilence.tail (h : BreaksSilence (outcomeAt connect bus) (n + 1)) :
    BreaksSilence (outcomeAt connect (connect bus).state) n where
  silent k hk := h.silent (k + 1) (Nat.succ_lt_succ hk)
  broken := h.broken

/-- So many attempts are all silent, or one of them breaks the silence. -/
theorem exists_breaksSilence_or (outcomes : Nat → Except SessionError δ) (limit : Nat) :
    (∃ n < limit, BreaksSilence outcomes n) ∨ ∀ k < limit, Unanswered (outcomes k) := by
  induction limit with
  | zero => exact .inr fun k hk => absurd hk (Nat.not_lt_zero k)
  | succ limit ih =>
    rcases ih with ⟨n, inside, breaks⟩ | silent
    · exact .inl ⟨n, Nat.lt_succ_of_lt inside, breaks⟩
    · by_cases unanswered : Unanswered (outcomes limit)
      · refine .inr fun k hk => ?_
        rcases Nat.lt_succ_iff_lt_or_eq.mp hk with earlier | rfl
        · exact silent k earlier
        · exact unanswered
      · exact .inl ⟨limit, Nat.lt_succ_self limit, silent, unanswered⟩

/-! ## Attempts -/

/-- What a recovery makes of the outcome that breaks the silence. -/
def verdict : Except SessionError δ → Except DfuError (Option δ)
  | .ok device => .ok (some device)
  | .error e => .error (.session e)

/-- What a silent attempt leaves in the journal, being the `r`-th. -/
def silence (retryDelay r : Nat) (notes : List Note) : List Entry :=
  notes.map .note ++ .event (.attemptFailed r) :: if retryDelay ≠ 0 then [.pause retryDelay] else []

/-- What the attempt that breaks the silence leaves there. -/
def closing (r : Nat) (outcome : Except SessionError δ) (notes : List Note) : List Entry :=
  notes.map .note ++
    match outcome with
    | .ok _ => [.ofRecord .info "Bootloader answered" [("retries", s!"{r}")]]
    | .error _ => []

/-- The journal of `n` silent attempts. -/
def silences (connect : Routine Note κ SessionError δ) (retryDelay r : Nat) (bus : κ) (n : Nat) :
    List Entry :=
  (List.range n).flatMap fun k =>
    silence retryDelay (r + k + 1) (connect (busAfter connect k bus)).log

theorem silences_succ (connect : Routine Note κ SessionError δ) (retryDelay r : Nat) (bus : κ)
    (n : Nat) :
    silences connect retryDelay r bus (n + 1)
      = silence retryDelay (r + 1) (connect bus).log
        ++ silences connect retryDelay (r + 1) (connect bus).state n := by
  unfold silences
  rw [List.range_succ_eq_map, List.flatMap_cons, List.flatMap_map]
  congr 2
  funext k
  rw [Nat.add_right_comm r 1 k]
  rfl

theorem attempt_eq (connect : Routine Note κ SessionError δ) (r : Nat) (bus : κ) :
    attempt connect ⟨r, bus⟩
      = ⟨.ok (connect bus).result, ⟨r, (connect bus).state⟩, (connect bus).log.map .note⟩ := rfl

/-- A silent attempt is counted and told, and the rest goes on from there. -/
theorem attempts_of_unanswered (h : Unanswered (connect bus).result) :
    attempts connect retryDelay (limit + 1) ⟨r, bus⟩
      = let rest := attempts connect retryDelay limit ⟨r + 1, (connect bus).state⟩
        ⟨rest.result, rest.state, silence retryDelay (r + 1) (connect bus).log ++ rest.log⟩ := by
  obtain ⟨millis, h⟩ := h
  rw [attempts, Routine.bind_of_ok (attempt_eq connect r bus), h]
  by_cases immediate : retryDelay = 0
  · simp [immediate, bind, Routine.bind, Routine.modify, Routine.get, silence]
  · simp [immediate, bind, Routine.bind, Routine.modify, Routine.get, silence]

/-- An attempt that is not silent is the last one. -/
theorem attempts_of_answered (h : ¬ Unanswered (connect bus).result) :
    attempts connect retryDelay (limit + 1) ⟨r, bus⟩
      = ⟨verdict (connect bus).result, ⟨r, (connect bus).state⟩,
          closing r (connect bus).result (connect bus).log⟩ := by
  rw [attempts, Routine.bind_of_ok (attempt_eq connect r bus)]
  unfold closing
  cases met : (connect bus).result with
  | ok device => rfl
  | error e =>
    cases e with
    | noResponse millis => exact absurd ⟨millis, met⟩ h
    | _ => rfl

/-- Attempts end with the one that breaks the silence, if it is among them. -/
theorem attempts_of_breaks (h : BreaksSilence (outcomeAt connect bus) n) (inside : n < limit) :
    attempts connect retryDelay limit ⟨r, bus⟩
      = ⟨verdict (outcomeAt connect bus n), ⟨r + n, busAfter connect (n + 1) bus⟩,
          silences connect retryDelay r bus n
            ++ closing (r + n) (outcomeAt connect bus n)
              (connect (busAfter connect n bus)).log⟩ := by
  induction n generalizing limit r bus with
  | zero =>
    cases limit with
    | zero => exact absurd inside (Nat.not_lt_zero 0)
    | succ limit => exact attempts_of_answered h.broken
  | succ n ih =>
    cases limit with
    | zero => exact absurd inside (Nat.not_lt_zero _)
    | succ limit =>
      have first : Unanswered (connect bus).result := h.silent 0 (Nat.succ_pos n)
      rw [attempts_of_unanswered first, ih h.tail (Nat.lt_of_succ_lt_succ inside),
        silences_succ, List.append_assoc, Nat.add_assoc r 1 n, Nat.add_comm 1 n]
      rfl

/-- As long as nothing breaks the silence, no attempt is the last one. -/
theorem attempts_of_silent (h : ∀ k < limit, Unanswered (outcomeAt connect bus k)) :
    attempts connect retryDelay limit ⟨r, bus⟩
      = ⟨.ok none, ⟨r + limit, busAfter connect limit bus⟩,
          silences connect retryDelay r bus limit⟩ := by
  induction limit generalizing r bus with
  | zero => rfl
  | succ limit ih =>
    have first : Unanswered (connect bus).result := h 0 (Nat.succ_pos limit)
    have later : ∀ k < limit, Unanswered (outcomeAt connect (connect bus).state k) :=
      fun k hk => h (k + 1) (Nat.succ_lt_succ hk)
    rw [attempts_of_unanswered first, ih later, silences_succ, Nat.add_assoc r 1 limit,
      Nat.add_comm 1 limit]
    rfl

/-! ## The journal -/

section Journal

variable {α : Type} {f : Entry → Option α}

/-- Notes of the layers below are passed over by what looks for other entries. -/
theorem filterMap_notes_append (noted : ∀ note, f (.note note) = none) (notes : List Note)
    (rest : List Entry) : (notes.map Entry.note ++ rest).filterMap f = rest.filterMap f := by
  induction notes with
  | nil => rfl
  | cons note notes ih =>
    rw [List.map_cons, List.cons_append, List.filterMap_cons_none (noted note), ih]

theorem filterMap_silence (noted : ∀ note, f (.note note) = none)
    (paused : ∀ micros, f (.pause micros) = none) (retryDelay r : Nat) (notes : List Note) :
    (silence retryDelay r notes).filterMap f = (f (.event (.attemptFailed r))).toList := by
  have wait : (if retryDelay ≠ 0 then [Entry.pause retryDelay] else []).filterMap f = [] := by
    split
    · exact List.filterMap_cons_none (paused retryDelay)
    · rfl
  rw [silence, filterMap_notes_append noted]
  cases told : f (.event (.attemptFailed r)) with
  | none => rw [List.filterMap_cons_none told, wait, Option.toList_none]
  | some a => rw [List.filterMap_cons_some told, wait, Option.toList_some]

/-- Silent attempts are told of one by one. -/
theorem filterMap_silences (noted : ∀ note, f (.note note) = none)
    (paused : ∀ micros, f (.pause micros) = none)
    (connect : Routine Note κ SessionError δ) (retryDelay r : Nat) (bus : κ) (n : Nat) :
    (silences connect retryDelay r bus n).filterMap f
      = (List.range n).flatMap fun k => (f (.event (.attemptFailed (r + k + 1)))).toList := by
  unfold silences
  rw [List.filterMap_flatMap]
  congr 1
  funext k
  exact filterMap_silence noted paused ..

theorem filterMap_closing (noted : ∀ note, f (.note note) = none) (r : Nat)
    (outcome : Except SessionError δ) (notes : List Note) :
    (closing r outcome notes).filterMap f = [] := by
  cases outcome with
  | ok device =>
    show (notes.map Entry.note ++ [_]).filterMap f = []
    rw [filterMap_notes_append noted]
    exact List.filterMap_cons_none (noted _)
  | error e =>
    show (notes.map Entry.note ++ []).filterMap f = []
    rw [filterMap_notes_append noted]
    rfl

end Journal

/-! ## Noting the outcomes -/

/-- The state of a bus, and what came of the attempts made on it. -/
structure Attempts (κ δ : Type) where
  bus : κ
  outcomes : List (Except SessionError δ) := []

/-- Makes an attempt, and notes what came of it. -/
def watched (connect : Routine Note κ SessionError δ) :
    Routine Note (Attempts κ δ) SessionError δ := fun a =>
  let o := connect a.bus
  ⟨o.result, ⟨o.state, a.outcomes ++ [o.result]⟩, o.log⟩

theorem busAfter_watched (connect : Routine Note κ SessionError δ) (k : Nat) (a : Attempts κ δ) :
    busAfter (watched connect) k a
      = ⟨busAfter connect k a.bus,
          a.outcomes ++ (List.range k).map (outcomeAt connect a.bus)⟩ := by
  induction k generalizing a with
  | zero =>
    rw [List.range_zero, List.map_nil, List.append_nil]
    rfl
  | succ k ih =>
    rw [busAfter, ih, List.range_succ_eq_map, List.map_cons, List.map_map]
    show Attempts.mk _ (a.outcomes ++ [_] ++ _) = _
    rw [List.append_assoc]
    rfl

theorem outcomeAt_watched (connect : Routine Note κ SessionError δ) (a : Attempts κ δ) (k : Nat) :
    outcomeAt (watched connect) a k = outcomeAt connect a.bus k := by
  rw [outcomeAt, busAfter_watched]
  rfl

/-! ## Runs -/

variable {operator : Operator} {s : Recovering κ}

/-- The operator does what is asked. -/
structure Helpful (operator : Operator) : Prop where
  off : operator .powerOff = .ok ()
  on : operator .powerOn = .ok ()

/-- What stands in the journal before the first attempt. -/
def opening : List Entry :=
  [.prompt .powerOff, .prompt .powerOn, .ofRecord .info "Waiting for bootloader..." []]

theorem ask_of_ok {p : Prompt} (h : operator p = .ok ()) :
    ask operator p s = ⟨.ok (), s, [.prompt p]⟩ := by
  unfold ask
  rw [Routine.bind_of_ok (Routine.emit_apply _ s), h]
  rfl

theorem ask_of_error {p : Prompt} {cause : String} (h : operator p = .error cause) :
    ask operator p s = ⟨.error (.os cause), s, [.prompt p]⟩ := by
  unfold ask
  rw [Routine.bind_of_ok (Routine.emit_apply _ s), h]
  rfl

theorem run_of_refused_off {cause : String} (h : operator .powerOff = .error cause) :
    run operator connect retryDelay limit s = ⟨.error (.os cause), s, [.prompt .powerOff]⟩ :=
  Routine.bind_of_error (ask_of_error h) _

theorem run_of_refused_on {cause : String} (off : operator .powerOff = .ok ())
    (h : operator .powerOn = .error cause) :
    run operator connect retryDelay limit s
      = ⟨.error (.os cause), s, [.prompt .powerOff, .prompt .powerOn]⟩ := by
  unfold run
  rw [Routine.bind_of_ok (ask_of_ok off), Routine.bind_of_error (ask_of_error h)]
  rfl

theorem run_of_helpful (h : Helpful operator) :
    run operator connect retryDelay limit s
      = let o := attempts connect retryDelay limit s
        ⟨o.result, o.state, opening ++ o.log⟩ := by
  unfold run
  rw [Routine.bind_of_ok (ask_of_ok h.off), Routine.bind_of_ok (ask_of_ok h.on),
    Routine.bind_of_ok (Routine.emit_apply _ s)]
  rfl

theorem events_opening_append (log : List Entry) :
    (opening ++ log).filterMap Entry.event? = log.filterMap Entry.event? := rfl

theorem prompts_opening_append (log : List Entry) :
    (opening ++ log).filterMap Entry.prompt?
      = [.powerOff, .powerOn] ++ log.filterMap Entry.prompt? := rfl

/-- The events of silent attempts. -/
def failures (r n : Nat) : List Event := (List.range n).map fun k => .attemptFailed (r + k + 1)

theorem events_silences (connect : Routine Note κ SessionError δ) (retryDelay r : Nat) (bus : κ)
    (n : Nat) :
    (silences connect retryDelay r bus n).filterMap Entry.event? = failures r n := by
  rw [filterMap_silences (fun _ => rfl) (fun _ => rfl), failures, List.map_eq_flatMap]
  rfl

theorem prompts_silences (connect : Routine Note κ SessionError δ) (retryDelay r : Nat) (bus : κ)
    (n : Nat) : (silences connect retryDelay r bus n).filterMap Entry.prompt? = [] := by
  rw [filterMap_silences (fun _ => rfl) (fun _ => rfl)]
  exact List.flatMap_eq_nil_iff.mpr fun _ _ => rfl

/-- What a run comes to, by its operator and the outcomes its attempts are to meet. -/
structure Recovers (operator : Operator) (outcomes : Nat → Except SessionError δ) (limit : Nat)
    (s : Recovering (Attempts κ δ))
    (o : Outcome Entry (Recovering (Attempts κ δ)) DfuError (Option δ)) : Prop where
  refused_off : ∀ cause, operator .powerOff = .error cause →
    o = ⟨.error (.os cause), s, [.prompt .powerOff]⟩
  refused_on : ∀ cause, operator .powerOff = .ok () → operator .powerOn = .error cause →
    o = ⟨.error (.os cause), s, [.prompt .powerOff, .prompt .powerOn]⟩
  broken : ∀ n, Helpful operator → BreaksSilence outcomes n → n < limit →
    o.result = verdict (outcomes n) ∧ o.state.retries = s.retries + n ∧
      o.state.bus.outcomes = s.bus.outcomes ++ (List.range (n + 1)).map outcomes ∧
      o.log.filterMap Entry.event? = failures s.retries n ∧
      o.log.filterMap Entry.prompt? = [.powerOff, .powerOn]
  /-- There is no bound on the attempts but the given one. -/
  silent : Helpful operator → (∀ k < limit, Unanswered (outcomes k)) →
    o.result = .ok none ∧ o.state.retries = s.retries + limit ∧
      o.state.bus.outcomes = s.bus.outcomes ++ (List.range limit).map outcomes ∧
      o.log.filterMap Entry.event? = failures s.retries limit ∧
      o.log.filterMap Entry.prompt? = [.powerOff, .powerOn]

theorem recovers_run (operator : Operator) (connect : Routine Note κ SessionError δ)
    (retryDelay limit : Nat) (s : Recovering (Attempts κ δ)) :
    Recovers operator (outcomeAt connect s.bus.bus) limit s
      (run operator (watched connect) retryDelay limit s) where
  refused_off _ h := run_of_refused_off h
  refused_on _ off h := run_of_refused_on off h
  broken n helpful breaks inside := by
    have same : outcomeAt (watched connect) s.bus = outcomeAt connect s.bus.bus :=
      funext (outcomeAt_watched connect s.bus)
    rw [← same] at breaks
    rw [run_of_helpful helpful, attempts_of_breaks breaks inside, same, busAfter_watched]
    refine ⟨rfl, rfl, rfl, ?_, ?_⟩
    · rw [events_opening_append, List.filterMap_append, events_silences,
        filterMap_closing fun _ => rfl, List.append_nil]
    · rw [prompts_opening_append, List.filterMap_append, prompts_silences,
        filterMap_closing fun _ => rfl, List.append_nil, List.append_nil]
  silent helpful silent := by
    have same : outcomeAt (watched connect) s.bus = outcomeAt connect s.bus.bus :=
      funext (outcomeAt_watched connect s.bus)
    rw [← same] at silent
    rw [run_of_helpful helpful, attempts_of_silent silent, busAfter_watched]
    refine ⟨rfl, rfl, rfl, ?_, ?_⟩
    · rw [events_opening_append, events_silences]
    · rw [prompts_opening_append, prompts_silences, List.append_nil]

/-! ## Consecutive runs -/

/-- The state that some runs leave, one after the other, each with its operator and the most
attempts it may make. -/
def leftBy (connect : Routine Note κ SessionError δ) (retryDelay : Nat)
    (runs : List (Operator × Nat)) (s : Recovering κ) : Recovering κ :=
  runs.foldl (fun s r => (run r.1 connect retryDelay r.2 s).state) s

/-- A run moves on along the outcomes, and skips none. -/
theorem exists_bus_run (operator : Operator) (connect : Routine Note κ SessionError δ)
    (retryDelay limit : Nat) (s : Recovering κ) :
    ∃ k, (run operator connect retryDelay limit s).state.bus = busAfter connect k s.bus := by
  cases off : operator .powerOff with
  | error cause =>
    rw [run_of_refused_off off]
    exact ⟨0, rfl⟩
  | ok _ =>
    cases on : operator .powerOn with
    | error cause =>
      rw [run_of_refused_on off on]
      exact ⟨0, rfl⟩
    | ok _ =>
      rw [run_of_helpful ⟨off, on⟩]
      rcases exists_breaksSilence_or (outcomeAt connect s.bus) limit with ⟨n, inside, h⟩ | h
      · rw [attempts_of_breaks h inside]
        exact ⟨n + 1, rfl⟩
      · rw [attempts_of_silent h]
        exact ⟨limit, rfl⟩

theorem exists_bus_leftBy (connect : Routine Note κ SessionError δ) (retryDelay : Nat)
    (runs : List (Operator × Nat)) (s : Recovering κ) :
    ∃ k, (leftBy connect retryDelay runs s).bus = busAfter connect k s.bus := by
  induction runs generalizing s with
  | nil => exact ⟨0, rfl⟩
  | cons r rest ih =>
    obtain ⟨j, first⟩ := exists_bus_run r.1 connect retryDelay r.2 s
    obtain ⟨k, later⟩ := ih (run r.1 connect retryDelay r.2 s).state
    refine ⟨j + k, ?_⟩
    rw [busAfter_add, ← first, ← later]
    rfl

/-- The state without the notes. -/
def unwatched (s : Recovering (Attempts κ δ)) : Recovering κ := ⟨s.retries, s.bus.bus⟩

/-- Two outcomes are the same but for the notes. -/
structure Unnoticed (o : Outcome Entry (Recovering (Attempts κ δ)) DfuError (Option δ))
    (plain : Outcome Entry (Recovering κ) DfuError (Option δ)) : Prop where
  result : o.result = plain.result
  state : unwatched o.state = plain.state
  log : o.log = plain.log

theorem attempts_watched (connect : Routine Note κ SessionError δ) (retryDelay limit : Nat)
    (s : Recovering (Attempts κ δ)) :
    Unnoticed (attempts (watched connect) retryDelay limit s)
      (attempts connect retryDelay limit (unwatched s)) := by
  obtain ⟨r, a⟩ := s
  induction limit generalizing r a with
  | zero => exact ⟨rfl, rfl, rfl⟩
  | succ limit ih =>
    by_cases unanswered : Unanswered (connect a.bus).result
    · obtain ⟨result, state, log⟩ := ih (r + 1) (watched connect a).state
      have noted : Unanswered (watched connect a).result := unanswered
      rw [unwatched, attempts_of_unanswered unanswered, attempts_of_unanswered noted]
      exact ⟨result, state, congrArg _ log⟩
    · have noted : ¬ Unanswered (watched connect a).result := unanswered
      rw [unwatched, attempts_of_answered unanswered, attempts_of_answered noted]
      exact ⟨rfl, rfl, rfl⟩

/-- Noting the outcomes changes nothing of a run. -/
theorem run_watched (operator : Operator) (connect : Routine Note κ SessionError δ)
    (retryDelay limit : Nat) (s : Recovering (Attempts κ δ)) :
    Unnoticed (run operator (watched connect) retryDelay limit s)
      (run operator connect retryDelay limit (unwatched s)) := by
  cases off : operator .powerOff with
  | error cause =>
    rw [run_of_refused_off off, run_of_refused_off off]
    exact ⟨rfl, rfl, rfl⟩
  | ok _ =>
    cases on : operator .powerOn with
    | error cause =>
      rw [run_of_refused_on off on, run_of_refused_on off on]
      exact ⟨rfl, rfl, rfl⟩
    | ok _ =>
      obtain ⟨result, state, log⟩ := attempts_watched connect retryDelay limit s
      rw [run_of_helpful ⟨off, on⟩, run_of_helpful ⟨off, on⟩]
      exact ⟨result, state, congrArg (opening ++ ·) log⟩

theorem leftBy_watched (connect : Routine Note κ SessionError δ) (retryDelay : Nat)
    (runs : List (Operator × Nat)) (s : Recovering (Attempts κ δ)) :
    unwatched (leftBy (watched connect) retryDelay runs s)
      = leftBy connect retryDelay runs (unwatched s) := by
  induction runs generalizing s with
  | nil => rfl
  | cons r rest ih =>
    have first := (run_watched r.1 connect retryDelay r.2 s).state
    rw [leftBy, List.foldl_cons, ← leftBy, ih, first]
    rfl

/-- Where some runs leave off: behind the outcomes that were met, which are the first ones of the
stream. -/
theorem leftBy_bus (connect : Routine Note κ SessionError δ) (retryDelay : Nat)
    (runs : List (Operator × Nat)) (bus : κ) :
    let a := (leftBy (watched connect) retryDelay runs ⟨0, ⟨bus, []⟩⟩).bus
    a.bus = busAfter connect a.outcomes.length bus ∧
      a.outcomes = (List.range a.outcomes.length).map (outcomeAt connect bus) := by
  intro a
  obtain ⟨k, reached⟩ := exists_bus_leftBy (watched connect) retryDelay runs ⟨0, ⟨bus, []⟩⟩
  have reached : a = ⟨busAfter connect k bus, (List.range k).map (outcomeAt connect bus)⟩ :=
    reached.trans (busAfter_watched connect k ⟨bus, []⟩)
  have length : a.outcomes.length = k := by
    rw [reached, List.length_map, List.length_range]
  rw [length, reached]
  exact ⟨rfl, rfl⟩

end Recovery

/-! ## Attempts on a bus -/

namespace Node

/-- The answer that addressing a node waits for. -/
def hashAwaited (ids : FrameIds) (p : Profile) : Awaited :=
  ⟨"protocol_hash", ids.protocolHash, p.extendedId, 4⟩

/-- How long it waits, once the probe is out. -/
def hashDeadline (t : Transport τ) (p : Profile) (ids : FrameIds) (patience : Nat) (s : τ) : Nat :=
  (t.clock (t.send (hashProbe ids p) s).state).1 + patience

/-- The receives that it sees then. -/
def hashStream (t : Transport τ) (p : Profile) (ids : FrameIds) (patience : Nat) (s : τ) :
    Nat → Reception :=
  t.stream (hashDeadline t p ids patience s) (t.clock (t.send (hashProbe ids p) s).state).2

/-- What comes of addressing a node: of handing over the probe, and then of the receive that
settles the wait, unless the clock cannot tell its end. -/
inductive Attempted (t : Transport τ) (p : Profile) (ids : FrameIds) (node : UInt8)
    (patience : Nat) (s : τ) : Except SessionError Node → Prop
  | unsent {e : TransportError} (failed : (t.send (hashProbe ids p) s).result = .error e) :
      Attempted t p ids node patience s (.error (.transport e))
  | untold (sent : (t.send (hashProbe ids p) s).result = .ok ())
      (beyond : t.tells (hashDeadline t p ids patience s) = false) :
      Attempted t p ids node patience s (.error .fatal)
  | waited {k : Nat} {x : Except SessionError (List UInt8)}
      (sent : (t.send (hashProbe ids p) s).result = .ok ())
      (told : t.tells (hashDeadline t p ids patience s) = true)
      (first : (hashAwaited ids p).FirstSettled patience (hashDeadline t p ids patience s)
        (hashStream t p ids patience s) k x) :
      Attempted t p ids node patience s
        (x.map fun answer => ⟨p, ids, node, patience, LittleEndian.firstWord 0 answer⟩)

/-- The wait for the hash is over without an answer: behind other traffic a receive timed out, or
it had been started at the deadline or later and brought another frame. -/
def Unheard (t : Transport τ) (p : Profile) (ids : FrameIds) (patience : Nat) (s : τ) : Prop :=
  t.tells (hashDeadline t p ids patience s) = true ∧ ∃ k, (∀ i < k, (hashAwaited ids p).PassesOver (hashDeadline t p ids patience s)
      (hashStream t p ids patience s i)) ∧
    ((∃ millis, (hashStream t p ids patience s k).result = .error (.timeout millis)) ∨
      ∃ f, (hashStream t p ids patience s k).result = .ok f ∧ ¬ (hashAwaited ids p).Matches f ∧
        hashDeadline t p ids patience s ≤ (hashStream t p ids patience s k).started)

variable {t : Transport τ} {p : Profile} {ids : FrameIds} {node : UInt8} {patience : Nat} {s : τ}

/-- Once the probe is out, addressing a node ends as the wait for the hash does. -/
theorem result_connect_of_sent (resolved : FrameIds.resolve p node = .ok ids) {s₁ : τ}
    {log : List Note} (sending : t.send (hashProbe ids p) s = ⟨.ok (), s₁, log⟩) :
    (connect t p node patience s).result
      = (Awaited.await t (hashAwaited ids p) patience s₁).result.map fun answer =>
        ⟨p, ids, node, patience, LittleEndian.firstWord 0 answer⟩ := by
  rw [connect_eq resolved, Routine.bind_of_ok (Routine.mapError_of_ok sending _)]
  unfold hashAwaited
  cases waited : Awaited.await t ⟨"protocol_hash", ids.protocolHash, p.extendedId, 4⟩
      patience s₁ with
  | mk answer s₂ more =>
    cases answer with
    | error e =>
      rw [Routine.bind_of_error waited]
      rfl
    | ok bytes =>
      rw [Routine.bind_of_ok waited]
      rfl

theorem attempted_connect (t : Transport τ)
    (resolved : FrameIds.resolve p node = .ok ids) (patience : Nat) (s : τ) :
    Attempted t p ids node patience s (connect t p node patience s).result := by
  cases sending : t.send (hashProbe ids p) s with
  | mk result s₁ log =>
    have sent : (t.send (hashProbe ids p) s).result = result := congrArg Outcome.result sending
    cases result with
    | error e =>
      rw [connect_eq resolved, Routine.bind_of_error (Routine.mapError_of_error sending _)]
      exact .unsent sent
    | ok _ =>
      have begun : hashDeadline t p ids patience s = (t.clock s₁).1 + patience := by
        rw [hashDeadline, sending]
      rw [result_connect_of_sent resolved sending]
      by_cases told : t.tells ((t.clock s₁).1 + patience) = true
      · obtain ⟨k, x, first⟩ := Awaited.exists_firstSettled t (hashAwaited ids p) patience
          ((t.clock s₁).1 + patience) (t.clock s₁).2
        rw [Awaited.await_of_told _ told, (Awaited.receive_of_firstSettled first).1]
        refine .waited sent (begun ▸ told) (k := k) ?_
        rw [hashStream, begun, sending]
        exact first
      · rw [Awaited.await_of_untold _ told]
        exact .untold sent (begun ▸ Bool.eq_false_iff.mpr told)

theorem settles_noResponse_iff {a : Awaited} {deadline : Nat} {r : Reception} :
    (∃ millis, a.Settles patience deadline r (.error (.noResponse millis)))
      ↔ (∃ millis, r.result = .error (.timeout millis)) ∨
        ∃ f, r.result = .ok f ∧ ¬ a.Matches f ∧ deadline ≤ r.started := by
  obtain ⟨started, result⟩ := r
  constructor
  · rintro ⟨millis, settled⟩
    cases settled with
    | silence => exact .inl ⟨_, rfl⟩
    | late unrelated reached => exact .inr ⟨_, rfl, unrelated, reached⟩
  · rintro (⟨millis, rfl⟩ | ⟨f, rfl, unrelated, reached⟩)
    · exact ⟨_, .silence⟩
    · exact ⟨_, .late unrelated reached⟩

/-- An attempt counts as silence by its wait alone: a probe that could not be handed over is a
failure, even if that took too long. -/
theorem Attempted.unanswered_iff {x : Except SessionError Node}
    (h : Attempted t p ids node patience s x) :
    Recovery.Unanswered x
      ↔ (t.send (hashProbe ids p) s).result = .ok () ∧ Unheard t p ids patience s := by
  cases h with
  | unsent failed =>
    rw [failed]
    exact ⟨nofun, nofun⟩
  | untold sent beyond =>
    constructor
    · exact nofun
    · rintro ⟨-, told, -⟩
      exact absurd (told.symm.trans beyond) nofun
  | @waited k x sent told first =>
    constructor
    · rintro ⟨millis, unanswered⟩
      cases x with
      | ok bytes => cases unanswered
      | error e =>
        obtain rfl : e = .noResponse millis := by
          injection unanswered
        exact ⟨sent, told, k, first.passed, settles_noResponse_iff.mp ⟨millis, first.settled⟩⟩
    · rintro ⟨-, -, j, passed, silent⟩
      obtain ⟨millis, settled⟩ := settles_noResponse_iff.mpr silent
      obtain rfl := first.unique ⟨passed, settled⟩
      exact ⟨millis, rfl⟩

theorem connect_of_unresolved {cause : ConfigError}
    (refused : FrameIds.resolve p node = .error cause) :
    connect t p node patience s = ⟨.error (.addressing cause), s, []⟩ := by
  unfold connect
  rw [refused]
  exact Routine.bind_of_error (Routine.mapError_of_error (Routine.ofExcept_apply _ s) _) _

/-- Every attempt hands over the probe, whatever comes of it. -/
theorem frames_busAfter (t : Transport τ) (resolved : FrameIds.resolve p node = .ok ids)
    (patience k : Nat) (w : Watched τ) :
    (Recovery.busAfter (connect t.watched p node patience) k w).frames
      = w.frames ++ List.replicate k (hashProbe ids p) := by
  induction k generalizing w with
  | zero => exact (List.append_nil _).symm
  | succ k ih =>
    obtain ⟨-, -, -, sent⟩ := Sending.connect t resolved patience w
    rw [Recovery.busAfter, ih, sent, List.append_assoc, List.replicate_succ]
    rfl

end Node

/-! ## Recovery -/

namespace Recovery

/-- A recovery retries silence, and nothing else.

Take any connector, and any number of runs of one recovery.  Before a run, the outcomes met so far
are the first ones of the connector's stream.  If the operator fails, the run makes no attempt, has
no event and fails with the operator's error; power-on is asked for only when power-off was done.
Otherwise it makes one attempt more than there are silent ones, tells of these by consecutive
numbers, and returns what breaks the silence.  Noting the outcomes changes nothing.

Addressing a node over a transport, every attempt hands over the probe and nothing else, or nothing
if the node cannot be addressed.  Only the wait can make it a silent one; any other failure is
final. -/
theorem retries_silence :
    (∀ (κ δ : Type) (connect : Routine Note κ SessionError δ) (retryDelay : Nat) (bus : κ)
        (earlier : List (Operator × Nat)) (operator : Operator) (limit : Nat),
      let s := leftBy (watched connect) retryDelay earlier ⟨0, ⟨bus, []⟩⟩
      let o := run operator (watched connect) retryDelay limit s
      let met := s.bus.outcomes.length
      s.bus.outcomes = (List.range met).map (outcomeAt connect bus) ∧
        Recovers operator (fun k => outcomeAt connect bus (met + k)) limit s o ∧
        unwatched s = leftBy connect retryDelay earlier ⟨0, bus⟩ ∧
        Unnoticed o (run operator connect retryDelay limit (unwatched s))) ∧
    ∀ (τ : Type) (t : Transport τ) (p : Profile) (node : UInt8) (patience : Nat),
      let connect := Node.connect t.watched p node patience
      (¬ p.Addresses node → ∃ cause, ∀ w : Watched τ,
        connect w = ⟨.error (.addressing cause), w, []⟩ ∧
          ∀ (operator : Operator) (retryDelay limit r : Nat), Helpful operator →
            let o := run operator connect retryDelay (limit + 1) ⟨r, w⟩
            o.result = .error (.session (.addressing cause)) ∧ o.state = ⟨r, w⟩) ∧
      (p.Addresses node → ∃ ids, FrameIds.resolve p node = .ok ids ∧ ∀ w : Watched τ,
        let x := (connect w).result
        let probe := Node.hashProbe ids p
        (connect w).state.frames = w.frames ++ [probe] ∧
          Node.Attempted t p ids node patience w.state x ∧
          (Unanswered x ↔ (t.send probe w.state).result = .ok () ∧
            Node.Unheard t p ids patience w.state) ∧
          ∀ (operator : Operator) (retryDelay limit r n : Nat), Helpful operator →
            BreaksSilence (outcomeAt connect w) n → n < limit →
              (run operator connect retryDelay limit ⟨r, w⟩).state.bus.frames
                = w.frames ++ List.replicate (n + 1) probe) := by
  refine ⟨?_, ?_⟩
  · intro κ δ connect retryDelay bus earlier operator limit s o met
    obtain ⟨reached, outcomes⟩ := leftBy_bus connect retryDelay earlier bus
    have ahead : outcomeAt connect s.bus.bus = fun k => outcomeAt connect bus (met + k) := by
      funext k
      rw [← outcomeAt_busAfter, ← reached]
    refine ⟨outcomes, ?_, leftBy_watched connect retryDelay earlier ⟨0, ⟨bus, []⟩⟩,
      run_watched operator connect retryDelay limit s⟩
    rw [← ahead]
    exact recovers_run operator connect retryDelay limit s
  · intro τ t p node patience connect
    refine ⟨fun refused => ?_, fun addressed => ?_⟩
    · cases resolved : FrameIds.resolve p node with
      | ok ids => exact absurd (FrameIds.exists_resolve_iff.mp ⟨ids, resolved⟩) refused
      | error cause =>
        have unsent (w : Watched τ) : connect w = ⟨.error (.addressing cause), w, []⟩ :=
          Node.connect_of_unresolved resolved
        refine ⟨cause, fun w => ⟨unsent w, fun operator retryDelay limit r helpful => ?_⟩⟩
        have final : ¬ Unanswered (connect w).result := by
          rw [unsent]
          exact nofun
        rw [run_of_helpful helpful, attempts_of_answered final, unsent]
        exact ⟨rfl, rfl⟩
    · obtain ⟨ids, resolved⟩ := FrameIds.exists_resolve_iff.mpr addressed
      refine ⟨ids, resolved, fun w => ?_⟩
      obtain ⟨result, -, -, sent⟩ := Sending.connect t resolved patience w
      have attempted := Node.attempted_connect t resolved patience w.state
      rw [← result] at attempted
      refine ⟨sent, attempted, attempted.unanswered_iff, ?_⟩
      intro operator retryDelay limit r n helpful breaks inside
      rw [run_of_helpful helpful, attempts_of_breaks breaks inside]
      exact Node.frames_busAfter t resolved patience (n + 1) w

/-- After a run that the operator broke off, two silent attempts and then an answer; node 1 answers
the first probe, and node 32 is sent none. -/
theorem retries_silence_third_attempt :
    let connect : Routine Note Nat SessionError Unit := fun k =>
      ⟨if k = 2 then .ok () else .error (.noResponse 1000), k + 1, []⟩
    let s := leftBy (watched connect) 0 [(fun _ => .error "interrupted", 9)] ⟨0, ⟨0, []⟩⟩
    let o := run (fun _ => .ok ()) (watched connect) 0 5 s
    let t : Transport (SimulatedBus seededProfile seededIds) := SimulatedBus.transport 0x1234
    let frames := fun node => (run (fun _ => .ok ())
      (Node.connect t.watched seededProfile node 5000000) 0 9 ⟨0, ⟨strayBus, []⟩⟩).state.bus.frames
    (o.result = .ok (some ()) ∧ o.state.retries = 2 ∧ o.state.bus.outcomes.length = 3 ∧
      o.log.filterMap Entry.event? = [.attemptFailed 1, .attemptFailed 2]) ∧
    frames 1 = [Node.hashProbe seededIds seededProfile] ∧ frames 32 = [] := by
  intro connect s o t frames
  have helpful : Helpful fun _ => .ok () := ⟨rfl, rfl⟩
  refine ⟨?_, ?_, ?_⟩
  · obtain ⟨-, recovers, -⟩ := retries_silence.1 Nat Unit connect 0 0
      [(fun _ => .error "interrupted", 9)] (fun _ => .ok ()) 5
    -- the operator broke off before any attempt, so the stream begins with the second run
    have breaks : BreaksSilence (fun k => outcomeAt connect 0 (s.bus.outcomes.length + k)) 2 := by
      refine ⟨fun k hk => ?_, nofun⟩
      obtain rfl | rfl : k = 0 ∨ k = 1 := by omega
      · exact ⟨1000, rfl⟩
      · exact ⟨1000, rfl⟩
    obtain ⟨result, retries, outcomes, events, -⟩ := recovers.broken 2 helpful breaks (by decide)
    exact ⟨result, retries, congrArg List.length outcomes, events⟩
  · have addressed : seededProfile.Addresses 1 := FrameIds.exists_resolve_iff.mp ⟨seededIds, rfl⟩
    obtain ⟨_, _, connected, -⟩ := Serves.connect_eq
      (SimulatedBus.serves 0x1234 (by decide) : Serves t _ _ _ 0x1234 5000000)
      (rfl : FrameIds.resolve seededProfile 1 = .ok seededIds) (s := strayBus) (by decide)
    obtain ⟨ids, resolved, attempts⟩ :=
      (retries_silence.2 _ t seededProfile 1 5000000).2 addressed
    obtain rfl : seededIds = ids := Except.ok.inj resolved
    obtain ⟨-, -, -, sends⟩ := attempts ⟨strayBus, []⟩
    have answered := (Sending.connect t resolved 5000000 ⟨strayBus, []⟩).1.trans
      (congrArg Outcome.result connected)
    have first : ¬ Unanswered
        (Node.connect t.watched seededProfile 1 5000000 ⟨strayBus, []⟩).result := by
      rw [answered]
      exact nofun
    exact sends (fun _ => .ok ()) 0 9 0 0 helpful ⟨nofun, first⟩ (by decide)
  · have too_large : ¬ seededProfile.Addresses 32 := fun h =>
      absurd (h.fits _ (List.mem_cons_self ..)) (by decide)
    obtain ⟨cause, refused⟩ := (retries_silence.2 _ t seededProfile 32 5000000).1 too_large
    obtain ⟨-, unsent⟩ := (refused ⟨strayBus, []⟩).2 (fun _ => .ok ()) 0 8 0 helpful
    exact congrArg (fun s => s.bus.frames) unsent

end Recovery

end CanDfu
