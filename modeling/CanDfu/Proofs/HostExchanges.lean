/-
  CanDfu.Proofs.HostExchanges

  What passes between a program and the USB of its machine, with the answers.

    * `Usb.Host.Went` : a host, taken from one state to another, gives the answers of a list of
      exchanges.  It ties a log to the host the log was written about.
    * `Exchanging` : from any state a routine goes through exchanges that its log shows, and that
      are described.  The rules follow the routine's own shape, one for each way of building it.
    * `Confined` : every single exchange of a routine is one that is allowed.  That is
      compositional (`confinement`).
    * `written` : what is handed to an adapter for the bus.
-/
import CanDfu.Adapter
import CanDfu.Proofs.Compositional

namespace CanDfu

/-- One exchange with the USB host: an access and what it was answered. -/
inductive Exchange
  | opened (device : Nat) (answer : Except String (List Usb.Configuration))
  | claimed (device : Nat) (interface : UInt8) (answer : Except String (List Usb.Endpoint))
  | transfer (device : Nat) (t : Usb.Transfer) (answer : Except Usb.Fault (List UInt8))
  | released (device : Nat) (interface : UInt8)

namespace Exchange

/-- The exchange as a log shows it. -/
def access : Exchange → Nat × Usb.Access
  | opened device _ => (device, .opened)
  | claimed device interface _ => (device, .claimed interface)
  | transfer device t _ => (device, .transfer t)
  | released device interface => (device, .released interface)

end Exchange

/-! ## What is written to the bus -/

/-- The data of a transfer to the bus. -/
def Usb.Access.written? : Usb.Access → Option (List UInt8)
  | .transfer (.bulkOut _ data) => some data
  | _ => none

/-- Everything that is written to the bus, in order. -/
def written (accesses : List (Nat × Usb.Access)) : List (List UInt8) :=
  accesses.filterMap fun a => a.2.written?

/-- Everything that exchanges write to the bus, in order. -/
def Exchange.written (xs : List Exchange) : List (List UInt8) :=
  CanDfu.written (xs.map Exchange.access)

@[simp] theorem Exchange.written_append (xs ys : List Exchange) :
    written (xs ++ ys) = written xs ++ written ys := by
  unfold written
  rw [List.map_append]
  exact List.filterMap_append

variable {υ σ τ ω ω' ε ε' α β : Type}

/-! ## Going from one state of a host to another -/

namespace Usb.Host

/-- The host goes from one state to another through exchanges, in order, with readings of its clock
between them. -/
inductive Went (h : Usb.Host υ) : υ → List Exchange → υ → Prop
  | nil (s : υ) : Went h s [] s
  | clock {s s' : υ} {xs : List Exchange} (rest : Went h (h.clock s).2 xs s') : Went h s xs s'
  | opened {s s₁ s' : υ} {xs : List Exchange} {device : Nat}
      {answer : Except String (List Configuration)} (step : h.openDevice device s = (answer, s₁))
      (rest : Went h s₁ xs s') : Went h s (.opened device answer :: xs) s'
  | claimed {s s₁ s' : υ} {xs : List Exchange} {device : Nat} {interface : UInt8}
      {answer : Except String (List Endpoint)} (step : h.claim device interface s = (answer, s₁))
      (rest : Went h s₁ xs s') : Went h s (.claimed device interface answer :: xs) s'
  | transfer {s s₁ s' : υ} {xs : List Exchange} {device : Nat} {t : Transfer}
      {answer : Except Fault (List UInt8)} (step : h.transfer device t s = (answer, s₁))
      (rest : Went h s₁ xs s') : Went h s (.transfer device t answer :: xs) s'
  | released {s s' : υ} {xs : List Exchange} {device : Nat} {interface : UInt8}
      (rest : Went h s xs s') : Went h s (.released device interface :: xs) s'

theorem Went.append {h : Usb.Host υ} {s s' s'' : υ} {xs ys : List Exchange}
    (first : h.Went s xs s') (second : h.Went s' ys s'') : h.Went s (xs ++ ys) s'' := by
  induction first with
  | nil => exact second
  | clock _ ih => exact .clock (ih second)
  | opened step _ ih => exact .opened step (ih second)
  | claimed step _ ih => exact .claimed step (ih second)
  | transfer step _ ih => exact .transfer step (ih second)
  | released _ ih => exact .released (ih second)

end Usb.Host

/-! ## Routines and their exchanges -/

/-- From any state the routine takes the host through exchanges that its log shows, and that are
described together with the result. -/
def Exchanging (h : Usb.Host υ) (L : Layer υ σ ω) (r : Routine ω σ ε α)
    (P : List Exchange → Except ε α → Prop) : Prop :=
  ∀ s, ∃ xs, h.Went (L.host s) xs (L.host (r s).state) ∧
    (r s).log.filterMap L.access? = xs.map Exchange.access ∧ P xs (r s).result

namespace Exchanging

variable {h : Usb.Host υ} {L : Layer υ σ ω} {r : Routine ω σ ε α}
  {P Q : List Exchange → Except ε α → Prop}

theorem mono (left : Exchanging h L r P) (weaker : ∀ xs x, P xs x → Q xs x) :
    Exchanging h L r Q := by
  intro s
  obtain ⟨xs, went, shown, described⟩ := left s
  exact ⟨xs, went, shown, weaker xs _ described⟩

theorem ofExcept {x : Except ε α} (described : P [] x) :
    Exchanging h L (Routine.ofExcept x) P :=
  fun _ => ⟨[], .nil _, rfl, described⟩

theorem pure {a : α} (described : P [] (.ok a)) : Exchanging h L (Pure.pure a) P :=
  fun _ => ⟨[], .nil _, rfl, described⟩

theorem fail {e : ε} (described : P [] (.error e)) : Exchanging h L (Routine.fail e) P :=
  fun _ => ⟨[], .nil _, rfl, described⟩

/-- Logging exchanges nothing. -/
theorem emit {w : ω} {P : List Exchange → Except ε Unit → Prop} (silent : L.access? w = none)
    (described : P [] (.ok ())) : Exchanging h L (Routine.emit w) P := by
  intro s
  refine ⟨[], .nil _, ?_, described⟩
  show [w].filterMap L.access? = []
  rw [List.filterMap_cons_none silent, List.filterMap_nil]

/-- One routine after another, from a state.  What the second is to leave may depend on how the
first ends there, and on its exchanges. -/
theorem bind_at {f : α → Routine ω σ ε β} (Q : List Exchange → Except ε β → Prop)
    (first : Exchanging h L r P) (s : σ)
    (failed : ∀ xs e, (r s).result = .error e → P xs (.error e) → Q xs (.error e))
    (second : ∀ xs a, (r s).result = .ok a → P xs (.ok a) →
      Exchanging h L (f a) fun ys x => Q (xs ++ ys) x) :
    ∃ xs, h.Went (L.host s) xs (L.host ((r >>= f) s).state) ∧
      ((r >>= f) s).log.filterMap L.access? = xs.map Exchange.access ∧
      Q xs ((r >>= f) s).result := by
  obtain ⟨xs, went, shown, described⟩ := first s
  cases run : r s with
  | mk result s' log =>
    rw [run] at went shown described failed second
    cases result with
    | error e =>
      rw [Routine.bind_of_error run]
      exact ⟨xs, went, shown, failed xs e rfl described⟩
    | ok a =>
      obtain ⟨ys, went', shown', described'⟩ := second xs a rfl described s'
      rw [Routine.bind_of_ok run]
      refine ⟨xs ++ ys, went.append went', ?_, described'⟩
      rw [List.filterMap_append, List.map_append, shown, shown']

/-- One routine after another, from any state. -/
theorem bind {f : α → Routine ω σ ε β} {Q : List Exchange → Except ε β → Prop}
    (first : Exchanging h L r P) (failed : ∀ xs e, P xs (.error e) → Q xs (.error e))
    (second : ∀ xs a, P xs (.ok a) → Exchanging h L (f a) fun ys x => Q (xs ++ ys) x) :
    Exchanging h L (r >>= f) Q :=
  fun s => first.bind_at Q s (fun xs e _ => failed xs e) fun xs a _ => second xs a

/-- A routine that reads the state and goes on with what it read. -/
theorem get_bind {f : σ → Routine ω σ ε β} {Q : List Exchange → Except ε β → Prop}
    (rest : ∀ s, Exchanging h L (f s) Q) : Exchanging h L (Routine.get >>= f) Q := by
  intro s
  rw [Routine.get_bind_apply]
  exact rest s s

/-- A computation that touches nothing, and a routine that goes on with its value. -/
theorem ofExcept_bind {x : Except ε' α} {g : ε' → ε} {f : α → Routine ω σ ε β}
    {Q : List Exchange → Except ε β → Prop} (failed : ∀ e, x = .error e → Q [] (.error (g e)))
    (rest : ∀ a, x = .ok a → Exchanging h L (f a) Q) :
    Exchanging h L ((Routine.ofExcept x).mapError g >>= f) Q := by
  intro s
  cases x with
  | error e =>
    have run : (Routine.ofExcept (.error e : Except ε' α) : Routine ω σ ε' α).mapError g s
        = ⟨.error (g e), s, []⟩ := rfl
    rw [Routine.bind_of_error run]
    exact ⟨[], .nil _, rfl, failed e rfl⟩
  | ok a =>
    have run : (Routine.ofExcept (.ok a : Except ε' α) : Routine ω σ ε' α).mapError g s
        = ⟨.ok a, s, []⟩ := rfl
    rw [Routine.bind_of_ok run]
    exact rest a rfl s

/-- A routine that logs something and goes on. -/
theorem emit_bind {w : ω} {f : Unit → Routine ω σ ε β} {Q : List Exchange → Except ε β → Prop}
    (silent : L.access? w = none) (rest : Exchanging h L (f ()) Q) :
    Exchanging h L (Routine.emit w >>= f) Q := by
  refine (emit (P := fun xs x => xs = [] ∧ x = .ok ()) silent ⟨rfl, rfl⟩).bind ?_ ?_
  · intro xs e described
    cases described.2
  · intro xs _ described
    rw [described.1]
    exact rest

/-- A value that a routine goes on with. -/
theorem pure_bind {a : α} {f : α → Routine ω σ ε β} {Q : List Exchange → Except ε β → Prop}
    (rest : Exchanging h L (f a) Q) : Exchanging h L (Pure.pure a >>= f) Q := by
  intro s
  rw [Routine.bind_of_ok (Routine.pure_apply a s)]
  exact rest s

/-- A failure that is handed on as a value. -/
theorem attempt {Q : List Exchange → Except ε' (Except ε α) → Prop} (left : Exchanging h L r P)
    (restated : ∀ xs x, P xs x → Q xs (.ok x)) : Exchanging h L r.attempt Q := by
  intro s
  obtain ⟨xs, went, shown, described⟩ := left s
  exact ⟨xs, went, shown, restated xs _ described⟩

/-- A routine that goes on with a result, whatever it is. -/
theorem attempt_bind {f : Except ε α → Routine ω σ ε' β} {Q : List Exchange → Except ε' β → Prop}
    (left : Exchanging h L r P)
    (rest : ∀ xs x, P xs x → Exchanging h L (f x) fun ys y => Q (xs ++ ys) y) :
    Exchanging h L (r.attempt >>= f) Q := by
  have handed : Exchanging h L (r.attempt : Routine ω σ ε' (Except ε α)) fun xs y =>
      ∃ x, y = .ok x ∧ P xs x := left.attempt fun xs x described => ⟨x, rfl, described⟩
  refine handed.bind ?_ ?_
  · rintro xs e ⟨x, impossible, -⟩
    cases impossible
  · intro xs y ⟨x, same, described⟩
    rw [Except.ok.inj same]
    exact rest xs x described

theorem mapError {f : ε → ε'} {Q : List Exchange → Except ε' α → Prop}
    (left : Exchanging h L r P) (restated : ∀ xs x, P xs x → Q xs (x.mapError f)) :
    Exchanging h L (r.mapError f) Q := by
  intro s
  obtain ⟨xs, went, shown, described⟩ := left s
  exact ⟨xs, went, shown, restated xs _ described⟩

/-- A log that is restated shows the same accesses. -/
theorem mapLog {L' : Layer υ σ ω'} {f : ω → ω'} (left : Exchanging h L r P)
    (place : L'.toPlace = L.toPlace) (same : ∀ w, L'.access? (f w) = L.access? w) :
    Exchanging h L' (r.mapLog f) P := by
  intro s
  obtain ⟨xs, went, shown, described⟩ := left s
  have restated : L'.access? ∘ f = L.access? := funext same
  refine ⟨xs, ?_, ?_, described⟩
  · show h.Went (L'.host s) xs (L'.host (r s).state)
    rw [place]
    exact went
  · show ((r s).log.map f).filterMap L'.access? = _
    rw [List.filterMap_map, restated]
    exact shown

/-- A routine of the part of the state that holds the host. -/
theorem zoom {L' : Layer υ τ ω} {get : τ → σ} {set : σ → τ → τ} (left : Exchanging h L r P)
    (part : L'.Part L get set) : Exchanging h L' (r.zoom get set) P := by
  intro s
  obtain ⟨xs, went, shown, described⟩ := left (get s)
  refine ⟨xs, ?_, ?_, described⟩
  · show h.Went (L'.host s) xs (L'.host (set (r (get s)).state s))
    rw [part.host_get, part.host_set]
    exact went
  · show (r (get s)).log.filterMap L'.access? = _
    rw [part.access]
    exact shown

end Exchanging

/-! ## Single exchanges -/

/-- Every single exchange of a routine is allowed, whatever comes of it. -/
def Confined (h : Usb.Host υ) (L : Layer υ σ ω) (allowed : Exchange → Prop)
    (r : Routine ω σ ε α) : Prop :=
  Exchanging h L r fun xs _ => ∀ x ∈ xs, allowed x

namespace Confined

variable {h : Usb.Host υ} {L : Layer υ σ ω} {allowed : Exchange → Prop} {r : Routine ω σ ε α}

theorem pure (a : α) : Confined h L allowed (Pure.pure a : Routine ω σ ε α) :=
  Exchanging.pure (List.forall_mem_nil _)

theorem ofExcept (x : Except ε α) : Confined h L allowed (Routine.ofExcept x : Routine ω σ ε α) :=
  Exchanging.ofExcept (List.forall_mem_nil _)

theorem emit {w : ω} (silent : L.access? w = none) :
    Confined h L allowed (Routine.emit w : Routine ω σ ε Unit) :=
  Exchanging.emit silent (List.forall_mem_nil _)

theorem bind {f : α → Routine ω σ ε β} (first : Confined h L allowed r)
    (second : ∀ a, Confined h L allowed (f a)) : Confined h L allowed (r >>= f) :=
  Exchanging.bind first (fun _ _ inside => inside) fun _ a inside =>
    (second a).mono fun _ _ more => List.forall_mem_append.mpr ⟨inside, more⟩

theorem get_bind {f : σ → Routine ω σ ε β} (rest : ∀ s, Confined h L allowed (f s)) :
    Confined h L allowed (Routine.get >>= f) :=
  Exchanging.get_bind rest

theorem attempt (left : Confined h L allowed r) :
    Confined h L allowed (r.attempt : Routine ω σ ε' (Except ε α)) :=
  Exchanging.attempt left fun _ _ inside => inside

theorem mapError (left : Confined h L allowed r) (f : ε → ε') :
    Confined h L allowed (r.mapError f) :=
  Exchanging.mapError left fun _ _ inside => inside

theorem mapLog {L' : Layer υ σ ω'} {f : ω → ω'} (left : Confined h L allowed r)
    (place : L'.toPlace = L.toPlace) (same : ∀ w, L'.access? (f w) = L.access? w) :
    Confined h L' allowed (r.mapLog f) :=
  Exchanging.mapLog left place same

theorem zoom {L' : Layer υ τ ω} {get : τ → σ} {set : σ → τ → τ} (left : Confined h L allowed r)
    (part : L'.Part L get set) : Confined h L' allowed (r.zoom get set) :=
  Exchanging.zoom left part

/-- A change of the state that leaves the host as it is. -/
theorem modify {f : σ → σ} (same : ∀ s, L.host (f s) = L.host s) :
    Confined h L allowed (Routine.modify f : Routine ω σ ε Unit) := by
  intro s
  refine ⟨[], ?_, rfl, List.forall_mem_nil _⟩
  show h.Went (L.host s) [] (L.host (f s))
  rw [same]
  exact .nil _

end Confined

/-- Being confined is handed on by every way of building a routine. -/
def confinement (h : Usb.Host υ) (allowed : Exchange → Prop) : Compositional υ where
  Holds L r := Confined h L allowed r
  ofExcept := .ofExcept
  emit := .emit
  bind := .bind
  get_bind _ rest := .get_bind rest
  modify same _ := .modify same
  attempt := .attempt
  mapError := .mapError
  mapLog := .mapLog
  zoom := .zoom

end CanDfu
