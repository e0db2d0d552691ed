/-
  CanDfu.Proofs.StageRequests

  A tracker that is asked for one stage after another, whether or not the steps are allowed.  The
  steps it grants are a walk from the first stage to the one it is in (`walk_granted`), and that
  decides the rest:

    order        a walk enters stages in their order, so no more than eight of them
    program      is entered from `erase` alone, and that from `backup` alone
    done         is entered from `compare`, `verify` or `reset`
    aborted      is entered once, and the stage that was left for it is kept

  A request that is refused leaves the tracker as it is.
-/
import CanDfu.Proofs.StageSteps

namespace CanDfu

/-! ## Requests -/

namespace Tracker

/-- Asks for a step: the stage that was left, or why the step was refused, and the tracker
afterwards. -/
def request (t : Tracker) (next : Stage) : Except DfuError Stage × Tracker :=
  match t.advance next with
  | .ok t' => (.ok t.stage, t')
  | .error e => (.error e, t)

/-- A request for a step, and what became of it. -/
structure Request where
  before : Tracker
  next : Stage
  answer : Except DfuError Stage
  after : Tracker

/-- Asks for one step after the other. -/
def requests : Tracker → List Stage → List Request
  | _, [] => []
  | t, next :: rest =>
    let (answer, t') := t.request next
    ⟨t, next, answer, t'⟩ :: t'.requests rest

/-- Where a tracker is after some requests. -/
def after : Tracker → List Stage → Tracker
  | t, [] => t
  | t, next :: rest => (t.request next).2.after rest

/-- The step of a request that was granted. -/
def Request.step? (r : Request) : Option (Stage × Stage) :=
  match r.answer with
  | .ok left => some (left, r.next)
  | .error _ => none

/-- The steps that were granted, in order. -/
def granted (rs : List Request) : List (Stage × Stage) := rs.filterMap Request.step?

/-- The stages that were entered, in order. -/
def entered (rs : List Request) : List Stage := (granted rs).map Prod.snd

/-- What holds of all requests to a tracker, and of the tracker after them. -/
structure GoesForward (rs : List Request) (t : Tracker) : Prop where
  answered : ∀ r ∈ rs, (∃ left, r.answer = .ok left) ↔ r.before.stage.allows r.next = true
  refused : ∀ r ∈ rs, ∀ e, r.answer = .error e →
    r.after = r.before ∧ e = .invalidTransition r.before.stage r.next
  taken : ∀ r ∈ rs, ∀ left, r.answer = .ok left →
    left = r.before.stage ∧ r.after.stage = r.next ∧ left.rank < r.next.rank
  ascending : (entered rs).Pairwise fun a b => a.rank < b.rank
  few : (entered rs).length ≤ 8
  final : ∀ r ∈ rs, r.before.stage.isFinal = true → ∃ e, r.answer = .error e
  aborted : t.abortedIn.isSome = true ↔ t.stage = .aborted
  abortedIn : ∀ s, t.abortedIn = some s ↔ (s, .aborted) ∈ granted rs
  program : ∀ earlier later, entered rs = earlier ++ .program :: later →
    [.backup, .erase].Sublist earlier
  done : ∀ s, (s, .done) ∈ granted rs → s = .compare ∨ s = .verify ∨ s = .reset

end Tracker

/-! ## Where stages are entered from -/

namespace Stage

variable {s : Stage}

theorem eq_of_allows_erase (h : s.allows .erase = true) : s = .backup := by
  cases s <;> first | rfl | cases h

theorem eq_of_allows_program (h : s.allows .program = true) : s = .erase := by
  cases s <;> first | rfl | cases h

theorem eq_of_allows_done (h : s.allows .done = true) :
    s = .compare ∨ s = .verify ∨ s = .reset := by
  cases s <;> first | decide | cases h

/-- Up to the last two stages, of which only one can be entered, each step leads to a later one. -/
theorem min_rank_lt_of_allows {t : Stage} (h : s.allows t = true) :
    min s.rank 8 < min t.rank 8 := by
  cases s <;> cases t <;> first | decide | cases h

end Stage

namespace Walk

variable {a b : Stage} {walked : List (Stage × Stage)}

theorem length_le (h : Walk a walked b) : walked.length + min a.rank 8 ≤ min b.rank 8 := by
  induction h with
  | stay => exact Nat.le_of_eq (Nat.zero_add _)
  | step allowed _ ih =>
    have further := Stage.min_rank_lt_of_allows allowed
    rw [List.length_cons]
    omega

/-- A walk that leads elsewhere has a last step. -/
theorem exists_last (h : Walk a walked b) (elsewhere : b ≠ a) :
    ∃ init p, walked = init ++ [(p, b)] ∧ Walk a init p ∧ p.allows b = true := by
  obtain rfl | ⟨init, ⟨p, last⟩, rfl⟩ := walked.eq_nil_or_concat
  · cases h
    exact absurd rfl elsewhere
  · rw [List.concat_eq_append] at h ⊢
    obtain ⟨mid, before, onward⟩ := walk_append.mp h
    cases onward with
    | step allowed stayed =>
      cases stayed
      exact ⟨init, p, rfl, before, allowed⟩

/-- A step of a walk follows a walk to where it begins, and is followed by one from where it
ends. -/
theorem at_step {p st : Stage} {earlier later : List (Stage × Stage)}
    (h : Walk a (earlier ++ (p, st) :: later) b) :
    Walk a earlier p ∧ p.allows st = true ∧ Walk st later b := by
  obtain ⟨mid, before, onward⟩ := walk_append.mp h
  cases onward with
  | step allowed after => exact ⟨before, allowed, after⟩

/-- Where a walk enters a stage it comes from one that allows it. -/
theorem allows_of_mem {p st : Stage} (h : Walk a walked b) (hp : (p, st) ∈ walked) :
    p.allows st = true := by
  obtain ⟨earlier, later, rfl⟩ := List.append_of_mem hp
  exact h.at_step.2.1

/-- No walk goes on from a final stage. -/
theorem eq_of_isFinal (h : Walk a walked b) (final : a.isFinal = true) : walked = [] ∧ b = a := by
  cases h with
  | stay => exact ⟨rfl, rfl⟩
  | step allowed _ =>
    rw [Stage.allows_of_isFinal final] at allowed
    cases allowed

/-- A walk that enters a final stage ends there. -/
theorem eq_of_mem_isFinal {p st : Stage} (h : Walk a walked b) (hp : (p, st) ∈ walked)
    (final : st.isFinal = true) : b = st := by
  obtain ⟨earlier, later, rfl⟩ := List.append_of_mem hp
  exact (h.at_step.2.2.eq_of_isFinal final).2

/-- To program, a walk has backed up and then erased. -/
theorem backup_erase_sublist {earlier later : List (Stage × Stage)} {p : Stage}
    (h : Walk .start (earlier ++ (p, .program) :: later) b) :
    [.backup, .erase].Sublist (earlier.map Prod.snd) := by
  obtain ⟨toErase, allowed, -⟩ := h.at_step
  obtain rfl := Stage.eq_of_allows_program allowed
  obtain ⟨init, q, rfl, toBackup, allowed⟩ := toErase.exists_last (by decide)
  obtain rfl := Stage.eq_of_allows_erase allowed
  obtain ⟨init, r, rfl, -, -⟩ := toBackup.exists_last (by decide)
  simp

end Walk

/-! ## What requests do -/

namespace Tracker

/-- A tracker that has taken a step. -/
def moved (t : Tracker) (next : Stage) : Tracker :=
  ⟨next, if next = .aborted then some t.stage else t.abortedIn⟩

variable {t : Tracker} {next : Stage} (wanted : List Stage)

theorem request_of_allows (allowed : t.stage.allows next = true) :
    t.request next = (.ok t.stage, t.moved next) := by
  rw [request, advance, if_pos allowed]
  rfl

theorem request_of_not_allows (refused : ¬ t.stage.allows next = true) :
    t.request next = (.error (.invalidTransition t.stage next), t) := by
  rw [request, advance, if_neg refused]

/-- A step that is allowed is granted, and later requests find the tracker moved. -/
theorem requests_cons_of_allows (allowed : t.stage.allows next = true) :
    granted (t.requests (next :: wanted))
        = (t.stage, next) :: granted ((t.moved next).requests wanted) ∧
      t.after (next :: wanted) = (t.moved next).after wanted := by
  rw [requests, after, request_of_allows allowed]
  exact ⟨rfl, rfl⟩

/-- A step that is not allowed makes no difference to later requests. -/
theorem requests_cons_of_not_allows (refused : ¬ t.stage.allows next = true) :
    granted (t.requests (next :: wanted)) = granted (t.requests wanted) ∧
      t.after (next :: wanted) = t.after wanted := by
  rw [requests, after, request_of_not_allows refused]
  exact ⟨rfl, rfl⟩

/-- The steps that are granted lead from the stage a tracker is in to the one it is in then. -/
theorem walk_granted (t : Tracker) :
    Walk t.stage (granted (t.requests wanted)) (t.after wanted).stage := by
  induction wanted generalizing t with
  | nil => exact .stay _
  | cons next rest ih =>
    by_cases allowed : t.stage.allows next = true
    · obtain ⟨steps, last⟩ := requests_cons_of_allows rest allowed
      rw [steps, last]
      exact .step allowed (ih (t.moved next))
    · obtain ⟨steps, last⟩ := requests_cons_of_not_allows rest allowed
      rw [steps, last]
      exact ih t

/-- A final tracker stays as it is. -/
theorem after_of_isFinal (final : t.stage.isFinal = true) : t.after wanted = t := by
  induction wanted with
  | nil => rfl
  | cons next rest ih =>
    have refused : ¬ t.stage.allows next = true := by
      rw [Stage.allows_of_isFinal final]
      exact Bool.false_ne_true
    rw [(requests_cons_of_not_allows rest refused).2, ih]

/-- A tracker keeps the stage that was left by aborting, and no other. -/
theorem abortedIn_after_iff (fresh : t.abortedIn = none) (s : Stage) :
    (t.after wanted).abortedIn = some s ↔ (s, .aborted) ∈ granted (t.requests wanted) := by
  induction wanted generalizing t with
  | nil => simp [after, requests, granted, fresh]
  | cons next rest ih =>
    by_cases allowed : t.stage.allows next = true
    · obtain ⟨steps, last⟩ := requests_cons_of_allows rest allowed
      rw [steps, last, List.mem_cons]
      by_cases aborting : next = .aborted
      -- nothing is granted any more, so the stage that is kept now is the only one
      · subst aborting
        have nothing := (walk_granted rest (t.moved .aborted)).eq_of_isFinal rfl
        rw [nothing.1, after_of_isFinal rest rfl, moved, if_pos rfl]
        simp [eq_comm]
      · have same : (t.moved next).abortedIn = none := by rw [moved, if_neg aborting, fresh]
        rw [ih same]
        simp [Ne.symm aborting]
    · obtain ⟨steps, last⟩ := requests_cons_of_not_allows rest allowed
      rw [steps, last]
      exact ih fresh

/-- A tracker keeps a stage as soon as it is aborted, and only then. -/
theorem isSome_abortedIn_after_iff (fresh : t.abortedIn = none) (going : t.stage ≠ .aborted) :
    (t.after wanted).abortedIn.isSome = true ↔ (t.after wanted).stage = .aborted := by
  have walk := walk_granted wanted t
  have kept := abortedIn_after_iff wanted fresh
  rw [Option.isSome_iff_exists]
  constructor
  · rintro ⟨s, left⟩
    exact walk.eq_of_mem_isFinal ((kept s).mp left) rfl
  · intro aborted
    rw [aborted] at walk
    obtain ⟨init, s, steps, -, -⟩ := walk.exists_last going.symm
    refine ⟨s, (kept s).mpr ?_⟩
    rw [steps]
    exact List.mem_append_right _ (List.mem_singleton_self _)

/-- Every request among many is one to the tracker as it is at that point. -/
theorem request_of_mem {r : Request} (hr : r ∈ t.requests wanted) :
    r.before.request r.next = (r.answer, r.after) := by
  induction wanted generalizing t with
  | nil => cases hr
  | cons next rest ih =>
    rcases List.mem_cons.mp hr with rfl | later
    · rfl
    · exact ih later

/-- A request that is granted is for a step that is allowed, and the tracker takes it. -/
theorem granted_of_mem {r : Request} {left : Stage} (hr : r ∈ t.requests wanted)
    (ok : r.answer = .ok left) :
    left = r.before.stage ∧ r.before.stage.allows r.next = true ∧
      r.after = r.before.moved r.next := by
  have made := request_of_mem wanted hr
  rw [ok] at made
  by_cases allowed : r.before.stage.allows r.next = true
  · rw [request_of_allows allowed] at made
    obtain ⟨answer, after⟩ := Prod.mk.inj made
    exact ⟨(Except.ok.inj answer).symm, allowed, after.symm⟩
  · rw [request_of_not_allows allowed] at made
    cases (Prod.mk.inj made).1

/-- Requests are granted for the steps that are allowed. -/
theorem granted_iff_of_mem {r : Request} (hr : r ∈ t.requests wanted) :
    (∃ left, r.answer = .ok left) ↔ r.before.stage.allows r.next = true := by
  constructor
  · rintro ⟨left, ok⟩
    exact (granted_of_mem wanted hr ok).2.1
  · intro allowed
    have made := request_of_mem wanted hr
    rw [request_of_allows allowed] at made
    exact ⟨r.before.stage, (Prod.mk.inj made).1.symm⟩

/-- A request that is refused says why, and the tracker stays. -/
theorem refused_of_mem {r : Request} {e : DfuError} (hr : r ∈ t.requests wanted)
    (failed : r.answer = .error e) :
    r.after = r.before ∧ e = .invalidTransition r.before.stage r.next := by
  have made := request_of_mem wanted hr
  rw [failed] at made
  by_cases allowed : r.before.stage.allows r.next = true
  · rw [request_of_allows allowed] at made
    cases (Prod.mk.inj made).1
  · rw [request_of_not_allows allowed] at made
    obtain ⟨answer, after⟩ := Prod.mk.inj made
    exact ⟨after.symm, (Except.error.inj answer).symm⟩

/-- Whatever stages a new tracker is asked for, it only goes forward. -/
theorem requests_go_forward (wanted : List Stage) :
    GoesForward (({} : Tracker).requests wanted) (({} : Tracker).after wanted) := by
  have walk := walk_granted wanted {}
  constructor
  case answered => exact fun r hr => granted_iff_of_mem wanted hr
  case refused => exact fun r hr e => refused_of_mem wanted hr
  case taken =>
    intro r hr left ok
    obtain ⟨rfl, allowed, moved⟩ := granted_of_mem wanted hr ok
    rw [moved]
    exact ⟨rfl, rfl, Stage.rank_lt_of_allows allowed⟩
  case ascending => exact walk.pairwise_entered.2
  case few =>
    have length := walk.length_le
    rw [entered, List.length_map]
    omega
  case final =>
    intro r hr final
    cases answer : r.answer with
    | error e => exact ⟨e, rfl⟩
    | ok left =>
      have allowed := (granted_of_mem wanted hr answer).2.1
      rw [Stage.allows_of_isFinal final] at allowed
      cases allowed
  case aborted => exact isSome_abortedIn_after_iff wanted rfl (by decide)
  case abortedIn => exact abortedIn_after_iff wanted rfl
  case program =>
    intro earlier later split
    obtain ⟨before, onward, steps, rfl, through⟩ := List.map_eq_append_iff.mp split
    obtain ⟨⟨p, st⟩, after, rfl, rfl, -⟩ := List.map_eq_cons_iff.mp through
    rw [steps] at walk
    exact walk.backup_erase_sublist
  case done =>
    intro s hs
    exact Stage.eq_of_allows_done (walk.allows_of_mem hs)

end Tracker

end CanDfu
