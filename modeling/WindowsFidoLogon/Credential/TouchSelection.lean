import WindowsFidoLogon.Model.FIDODevice

/-!
# What touch selection leaves behind

While `SelectByTouch` polls, its counter is the number of pending candidates, and
every device whose request was started is pending, or has failed (`Watches`).  When
it returns, every such device has answered or was cancelled, and the status is
`FIDO_OK` exactly when one of them was touched, the one whose index is returned
(`Settled`).
-/

namespace WindowsFidoLogon
namespace FIDODevice

def pendingIn (candidates : List Candidate) : Nat :=
  candidates.countP (·.pending)

/-- The device of this index is open, and a touch request was started on it. -/
structure Begins (A : TouchAnswers) (count index : Nat) : Prop where
  several : 2 ≤ count
  listed : index < count
  opened : openDevice A index = .ok ()
  begun : A.touchBegin index = FIDO_OK

/-- The device reported the touch, reported an error, or was cancelled. -/
def Resolved (events : List TouchEvent) (index : Nat) : Prop :=
  .touched index ∈ events ∨ (∃ status, .failed index status ∈ events) ∨ .cancelled index ∈ events

theorem Resolved.append {events : List TouchEvent} {index : Nat} (h : Resolved events index)
    (more : List TouchEvent) : Resolved (events ++ more) index := by
  rcases h with h | ⟨status, h⟩ | h
  · exact .inl (List.mem_append_left _ h)
  · exact .inr (.inl ⟨status, List.mem_append_left _ h⟩)
  · exact .inr (.inr (List.mem_append_left _ h))

/-- The state of the polling loops. -/
structure Watches (A : TouchAnswers) (count : Nat) (candidates : List Candidate) (s : TouchLocals) :
    Prop where
  counted : s.pendingCount = pendingIn candidates
  lastError : s.lastError ≠ FIDO_OK
  begun : ∀ i, .begun i ∈ s.events ↔ Begins A count i
  pending_begun : ∀ c ∈ candidates, c.pending = true → .begun c.index ∈ s.events
  watched : ∀ i, .begun i ∈ s.events →
    (∃ c ∈ candidates, c.index = i ∧ c.pending = true) ∨ Resolved s.events i
  untouched : ∀ i, .touched i ∉ s.events

/-- What holds of a return. -/
structure Settled (A : TouchAnswers) (count : Nat) (exit : TouchExit) (status : Int)
    (selected : Nat) (candidates : List Candidate) (s : TouchLocals) : Prop where
  begun : ∀ i, .begun i ∈ s.events ↔ Begins A count i
  settled : ∀ i, Begins A count i → Resolved s.events i
  touched : ∀ i, .touched i ∈ s.events ↔ status = FIDO_OK ∧ i = selected
  answered : status = FIDO_OK → Begins A count selected ∧
    ∃ round, (A.touchStatus round selected).1 = FIDO_OK ∧ (A.touchStatus round selected).2 ≠ 0
  not_pending : ∀ c ∈ candidates, c.pending = false
  nothing : exit = .nothingPending → status ≠ FIDO_OK

variable {A : TouchAnswers}

/-! ## The loops before the polling -/

theorem ne_ok_of_openDevice {index : Nat} {status : Int} (h : openDevice A index = .error status) :
    status ≠ FIDO_OK := by
  unfold openDevice at h
  split_ifs at h with hNew hTimeout hOpen
  · obtain rfl := Except.error.inj h
    decide
  · obtain rfl := Except.error.inj h
    exact hTimeout
  · obtain rfl := Except.error.inj h
    exact hOpen

/-- The devices that open become candidates, each with its own index. -/
theorem mem_openLoop_iff {indices : List Nat} {candidates : List Candidate} {lastError : Int}
    {c : Candidate} :
    c ∈ (openLoop A indices candidates lastError).1 ↔
      c ∈ candidates ∨ ∃ index ∈ indices, openDevice A index = .ok () ∧ c = { index } := by
  induction indices generalizing candidates lastError with
  | nil => simp [openLoop]
  | cons index rest ih =>
      cases hOpen : openDevice A index with
      | error status =>
          rw [openLoop, hOpen, ih]
          simp [hOpen]
      | ok _ =>
          rw [openLoop, hOpen, ih]
          simp [hOpen, or_assoc]

theorem openLoop_lastError {indices : List Nat} {candidates : List Candidate} {lastError : Int}
    (h : lastError ≠ FIDO_OK) : (openLoop A indices candidates lastError).2 ≠ FIDO_OK := by
  induction indices generalizing candidates lastError with
  | nil => exact h
  | cons index rest ih =>
      cases hOpen : openDevice A index with
      | error status =>
          rw [openLoop, hOpen]
          exact ih (ne_ok_of_openDevice hOpen)
      | ok _ =>
          rw [openLoop, hOpen]
          exact ih h

/-- A candidate after the second loop. -/
def marked (A : TouchAnswers) (c : Candidate) : Candidate :=
  { c with pending := decide (A.touchBegin c.index = FIDO_OK) }

/-- The locals after a request was started. -/
def TouchLocals.begin (s : TouchLocals) (index : Nat) : TouchLocals :=
  { s with pendingCount := s.pendingCount + 1, events := s.events ++ [.begun index] }

theorem beginLoop_cons_begun {c : Candidate} (h : A.touchBegin c.index = FIDO_OK)
    (rest : List Candidate) (s : TouchLocals) :
    beginLoop A (c :: rest) s =
      ({ c with pending := true } :: (beginLoop A rest (s.begin c.index)).1,
        (beginLoop A rest (s.begin c.index)).2) := by
  rw [beginLoop, if_neg (not_not.mpr h)]
  rfl

theorem beginLoop_cons_failed {c : Candidate} (h : A.touchBegin c.index ≠ FIDO_OK)
    (rest : List Candidate) (s : TouchLocals) :
    beginLoop A (c :: rest) s =
      (c :: (beginLoop A rest { s with lastError := A.touchBegin c.index }).1,
        (beginLoop A rest { s with lastError := A.touchBegin c.index }).2) := by
  rw [beginLoop, if_pos h]

/-- What the second loop does to candidates of which none is pending. -/
theorem beginLoop_spec {candidates : List Candidate} (h : ∀ c ∈ candidates, c.pending = false)
    {s : TouchLocals} (hError : s.lastError ≠ FIDO_OK) :
    (beginLoop A candidates s).1 = candidates.map (marked A) ∧
    (beginLoop A candidates s).2.pendingCount =
      s.pendingCount + pendingIn (candidates.map (marked A)) ∧
    (beginLoop A candidates s).2.lastError ≠ FIDO_OK ∧
    (beginLoop A candidates s).2.events =
      s.events ++ ((candidates.map (marked A)).filter (·.pending)).map fun c => .begun c.index := by
  induction candidates generalizing s with
  | nil => simp [beginLoop, pendingIn, hError]
  | cons c rest ih =>
      have hc := h c (List.mem_cons_self)
      have hRest : ∀ c ∈ rest, c.pending = false := fun c hMem => h c (List.mem_cons_of_mem _ hMem)
      by_cases hBegin : A.touchBegin c.index = FIDO_OK
      · obtain ⟨hCandidates, hCount, hLast, hEvents⟩ := ih hRest (s := s.begin c.index) hError
        have hMarked : marked A c = { c with pending := true } := by simp [marked, hBegin]
        rw [beginLoop_cons_begun hBegin, List.map_cons, hMarked]
        refine ⟨?_, ?_, hLast, ?_⟩
        · rw [hCandidates]
        · rw [hCount, TouchLocals.begin]
          simp only [pendingIn, List.countP_cons_of_pos]
          omega
        · rw [hEvents, TouchLocals.begin]
          simp
      · obtain ⟨hCandidates, hCount, hLast, hEvents⟩ := ih hRest (s :=
          { s with lastError := A.touchBegin c.index }) hBegin
        have hMarked : marked A c = c := by
          rw [marked, decide_eq_false hBegin, ← hc]
        rw [beginLoop_cons_failed hBegin, List.map_cons, hMarked]
        refine ⟨?_, ?_, hLast, ?_⟩
        · rw [hCandidates]
        · rw [hCount]
          simp [pendingIn, hc]
        · rw [hEvents]
          simp [hc]

/-- The candidates and the locals when the second loop has ended. -/
def afterBegin (A : TouchAnswers) (devices : List FIDODevice) : List Candidate × TouchLocals :=
  let opened := openLoop A (List.range devices.length) [] FIDO_ERR_NOTFOUND
  beginLoop A opened.1 { lastError := opened.2 }

theorem start_eq (devices : List FIDODevice) :
    start A devices =
      if devices.length < 2 then .returned .tooFewDevices FIDO_ERR_INVALID_ARGUMENT 0 [] {}
      else if (afterBegin A devices).2.pendingCount = 0 then
        .returned .nothingPending (afterBegin A devices).2.lastError 0 (afterBegin A devices).1
          (afterBegin A devices).2
      else .waiting 0 (afterBegin A devices).1 (afterBegin A devices).2 := rfl

theorem watches_afterBegin {devices : List FIDODevice} (hSeveral : 2 ≤ devices.length) :
    Watches A devices.length (afterBegin A devices).1 (afterBegin A devices).2 := by
  have hOpened : ∀ c, c ∈ (openLoop A (List.range devices.length) [] FIDO_ERR_NOTFOUND).1 ↔
      ∃ index, index < devices.length ∧ openDevice A index = .ok () ∧ c = { index } := by
    intro c
    rw [mem_openLoop_iff]
    simp
  have hError : (openLoop A (List.range devices.length) [] FIDO_ERR_NOTFOUND).2 ≠ FIDO_OK :=
    openLoop_lastError (by decide)
  unfold afterBegin
  generalize openLoop A (List.range devices.length) [] FIDO_ERR_NOTFOUND = opened at hOpened hError ⊢
  obtain ⟨candidates, lastError⟩ := opened
  have hIdle : ∀ c ∈ candidates, c.pending = false := by
    intro c hc
    obtain ⟨index, _, _, rfl⟩ := (hOpened c).mp hc
    rfl
  obtain ⟨hCandidates, hCount, hLast, hEvents⟩ := beginLoop_spec (A := A) hIdle
    (s := { lastError }) hError
  dsimp only
  have hBegun : ∀ i, .begun i ∈ (beginLoop A candidates { lastError }).2.events ↔
      ∃ c ∈ candidates.map (marked A), c.pending = true ∧ c.index = i := by
    intro i
    rw [hEvents]
    simp [and_assoc]
  constructor
  case counted => rw [hCandidates, hCount, Nat.zero_add]
  case lastError => exact hLast
  case begun =>
    intro i
    rw [hBegun]
    constructor
    · rintro ⟨c, hc, hPending, rfl⟩
      obtain ⟨c', hc', rfl⟩ := List.mem_map.mp hc
      obtain ⟨index, hIndex, hOpen, rfl⟩ := (hOpened c').mp hc'
      exact ⟨hSeveral, hIndex, hOpen, of_decide_eq_true hPending⟩
    · intro h
      exact ⟨marked A { index := i }, List.mem_map_of_mem ((hOpened _).mpr ⟨i, h.listed, h.opened, rfl⟩),
        decide_eq_true h.begun, rfl⟩
  case pending_begun =>
    intro c hc hPending
    rw [hCandidates] at hc
    exact (hBegun _).mpr ⟨c, hc, hPending, rfl⟩
  case watched =>
    intro i hi
    obtain ⟨c, hc, hPending, hIndex⟩ := (hBegun i).mp hi
    exact .inl ⟨c, hCandidates ▸ hc, hIndex, hPending⟩
  case untouched =>
    intro i
    rw [hEvents]
    simp

/-! ## The returns -/

theorem mem_cancelPending_iff {candidates : List Candidate} {s : TouchLocals} {event : TouchEvent} :
    event ∈ (cancelPending candidates s).2.events ↔
      event ∈ s.events ∨ ∃ c ∈ candidates, c.pending = true ∧ .cancelled c.index = event := by
  simp [cancelPending, and_assoc]

/-- Cancelling settles what is still pending. -/
theorem settled_cancelPending {count : Nat} {exit : TouchExit} {status : Int} {selected : Nat}
    {candidates : List Candidate} {s : TouchLocals}
    (hBegun : ∀ i, .begun i ∈ s.events ↔ Begins A count i)
    (hWatched : ∀ i, .begun i ∈ s.events →
      (∃ c ∈ candidates, c.index = i ∧ c.pending = true) ∨ Resolved s.events i)
    (hTouched : ∀ i, .touched i ∈ s.events ↔ status = FIDO_OK ∧ i = selected)
    (hAnswered : status = FIDO_OK → Begins A count selected ∧
      ∃ round, (A.touchStatus round selected).1 = FIDO_OK ∧ (A.touchStatus round selected).2 ≠ 0)
    (hExit : exit ≠ .nothingPending) :
    Settled A count exit status selected (cancelPending candidates s).1
      (cancelPending candidates s).2 := by
  constructor
  case begun =>
    intro i
    rw [mem_cancelPending_iff, ← hBegun]
    simp
  case settled =>
    intro i hi
    rcases hWatched i ((hBegun i).mpr hi) with ⟨c, hc, rfl, hPending⟩ | hResolved
    · exact .inr (.inr (mem_cancelPending_iff.mpr (.inr ⟨c, hc, hPending, rfl⟩)))
    · exact hResolved.append _
  case touched =>
    intro i
    rw [mem_cancelPending_iff, ← hTouched]
    simp
  case answered => exact hAnswered
  case not_pending =>
    intro c hc
    obtain ⟨c', _, rfl⟩ := List.mem_map.mp hc
    rfl
  case nothing => exact fun h => absurd h hExit

/-- With nothing pending, every started request has failed. -/
theorem settled_of_nothing {count : Nat} {candidates : List Candidate} {s : TouchLocals}
    (h : Watches A count candidates s) (hNone : s.pendingCount = 0) :
    Settled A count .nothingPending s.lastError 0 candidates s := by
  have hIdle : ∀ c ∈ candidates, c.pending = false := by
    intro c hc
    have hZero : candidates.countP (·.pending) = 0 := h.counted.symm.trans hNone
    simpa using List.countP_eq_zero.mp hZero c hc
  constructor
  case begun => exact h.begun
  case settled =>
    intro i hi
    refine (h.watched i ((h.begun i).mpr hi)).resolve_left ?_
    rintro ⟨c, hc, _, hPending⟩
    rw [hIdle c hc] at hPending
    cases hPending
  case touched => exact fun i => iff_of_false (h.untouched i) fun hOk => h.lastError hOk.1
  case answered => exact fun hOk => absurd hOk h.lastError
  case not_pending => exact hIdle
  case nothing => exact fun _ => h.lastError

/-! ## One step -/

/-- What holds wherever the function is. -/
def Meets (A : TouchAnswers) (count : Nat) : TouchState → Prop
  | .waiting _ candidates s => Watches A count candidates s
  | .polling _ polled rest s => Watches A count (polled ++ rest) s
  | .returned exit status selected candidates s =>
      Settled A count exit status selected candidates s

theorem meets_returnCancelled {count : Nat} {exit : TouchExit} {status : Int}
    {candidates : List Candidate} {s : TouchLocals} (h : Watches A count candidates s)
    (hStatus : status ≠ FIDO_OK) (hExit : exit ≠ .nothingPending) :
    Meets A count (returnCancelled exit status 0 candidates s) :=
  settled_cancelPending h.begun h.watched
    (fun i => iff_of_false (h.untouched i) fun hOk => hStatus hOk.1)
    (fun hOk => absurd hOk hStatus) hExit

section Poll

variable {count : Nat} {polled rest : List Candidate} {c : Candidate} {s : TouchLocals}
  (h : Watches A count (polled ++ c :: rest) s) (hPending : c.pending = true)

include h hPending

/-- A started request that is not the polled one is as it was. -/
theorem watched_others {i : Nat} (hBegun : .begun i ∈ s.events) :
    i = c.index ∨
      (∃ c' ∈ polled ++ { c with pending := false } :: rest, c'.index = i ∧ c'.pending = true) ∨
      Resolved s.events i := by
  rcases h.watched i hBegun with ⟨c', hc', rfl, hPending'⟩ | hResolved
  · rcases List.mem_append.mp hc' with hPolled | hRest
    · exact .inr (.inl ⟨c', List.mem_append_left _ hPolled, rfl, hPending'⟩)
    · rcases List.mem_cons.mp hRest with rfl | hRest
      · exact .inl rfl
      · exact .inr (.inl ⟨c', List.mem_append_right _ (List.mem_cons_of_mem _ hRest), rfl, hPending'⟩)
  · exact .inr (.inr hResolved)

/-- The polled device fails: it is no longer pending, and counted no longer. -/
theorem watches_failed {status : Int} (hStatus : status ≠ FIDO_OK) :
    Watches A count (polled ++ { c with pending := false } :: rest)
      { s with
        lastError := status
        pendingCount := s.pendingCount - 1
        events := s.events ++ [.failed c.index status] } := by
  constructor
  case counted =>
    have hCounted := h.counted
    simp only [pendingIn, List.countP_append, List.countP_cons, hPending] at hCounted ⊢
    simp only [if_true, Bool.false_eq_true, if_false] at hCounted ⊢
    omega
  case lastError => exact hStatus
  case begun =>
    intro i
    rw [← h.begun]
    simp
  case pending_begun =>
    intro c' hc' hPending'
    have hOld : c' ∈ polled ++ c :: rest := by
      rcases List.mem_append.mp hc' with hPolled | hRest
      · exact List.mem_append_left _ hPolled
      · rcases List.mem_cons.mp hRest with rfl | hRest
        · cases hPending'
        · exact List.mem_append_right _ (List.mem_cons_of_mem _ hRest)
    exact List.mem_append_left _ (h.pending_begun c' hOld hPending')
  case watched =>
    intro i hi
    have hBegun : .begun i ∈ s.events := by simpa using hi
    rcases watched_others h hPending hBegun with rfl | hOther | hResolved
    · exact .inr (.inr (.inl ⟨status, by simp⟩))
    · exact .inl hOther
    · exact .inr (hResolved.append _)
  case untouched =>
    intro i
    simpa using h.untouched i

theorem settled_touched {round : Nat} (hStatus : (A.touchStatus round c.index).1 = FIDO_OK)
    (hTouched : (A.touchStatus round c.index).2 ≠ 0) :
    Meets A count (returnCancelled .touched FIDO_OK c.index
      (polled ++ { c with pending := false } :: rest)
      { s with events := s.events ++ [.touched c.index] }) := by
  have hMem : c ∈ polled ++ c :: rest := List.mem_append_right _ List.mem_cons_self
  have hBegins : Begins A count c.index := (h.begun _).mp (h.pending_begun c hMem hPending)
  apply settled_cancelPending
  · intro i
    rw [← h.begun]
    simp
  · intro i hi
    have hBegun : .begun i ∈ s.events := by simpa using hi
    rcases watched_others h hPending hBegun with rfl | hOther | hResolved
    · exact .inr (.inl (by simp))
    · exact .inl hOther
    · exact .inr (hResolved.append _)
  · intro i
    simp [h.untouched i]
  · exact fun _ => ⟨hBegins, round, hStatus, hTouched⟩
  · decide

end Poll

/-- The inner loop goes on to the next candidate. -/
theorem meets_polling {count round : Nat} {polled rest : List Candidate} {c : Candidate}
    {s : TouchLocals} (h : Watches A count (polled ++ c :: rest) s) :
    Meets A count (.polling round (polled ++ [c]) rest s) := by
  show Watches A count (polled ++ [c] ++ rest) s
  rw [List.append_assoc]
  exact h

theorem meets_poll {count round : Nat} {polled rest : List Candidate} {c : Candidate}
    {s : TouchLocals} (h : Watches A count (polled ++ c :: rest) s) :
    Meets A count (poll A round polled c rest s) := by
  unfold poll
  by_cases hPending : c.pending = true
  · rw [if_neg (by simp [hPending])]
    dsimp only
    by_cases hStatus : (A.touchStatus round c.index).1 = FIDO_OK
    · rw [if_neg (not_not.mpr hStatus)]
      by_cases hTouched : (A.touchStatus round c.index).2 = 0
      · rw [if_pos hTouched]
        exact meets_polling h
      · rw [if_neg hTouched]
        exact settled_touched h hPending hStatus hTouched
    · rw [if_pos hStatus]
      have hWatches := watches_failed h hPending hStatus
      split_ifs with hNone
      · exact settled_of_nothing hWatches hNone
      · exact meets_polling hWatches
  · rw [if_pos (by simp [hPending])]
    exact meets_polling h

theorem step_waiting (A : TouchAnswers) (round : Nat) (candidates : List Candidate)
    (s : TouchLocals) :
    step A (.waiting round candidates s) =
      if A.tickCount (round + 1) < deadline A then
        if stopsAt A round then
          returnCancelled .cancelledByCaller FIDO_ERR_KEEPALIVE_CANCEL 0 candidates s
        else .polling round [] candidates s
      else returnCancelled .timedOut FIDO_ERR_USER_ACTION_TIMEOUT 0 candidates s := by
  rw [step]

theorem meets_step {count : Nat} {t : TouchState} (h : Meets A count t) :
    Meets A count (step A t) := by
  match t, h with
  | .waiting round candidates s, h =>
      rw [step_waiting]
      generalize deadline A = limit
      by_cases hTime : A.tickCount (round + 1) < limit
      · rw [if_pos hTime]
        by_cases hStops : stopsAt A round = true
        · rw [if_pos hStops]
          exact meets_returnCancelled h (by decide) (by decide)
        · rw [if_neg hStops]
          exact h
      · rw [if_neg hTime]
        exact meets_returnCancelled h (by decide) (by decide)
  | .polling round polled [] s, h =>
      have hAll : polled ++ [] = polled := List.append_nil polled
      exact hAll ▸ h
  | .polling round polled (c :: rest) s, h => exact meets_poll h
  | .returned exit status selected candidates s, h => exact h

theorem meets_start (devices : List FIDODevice) : Meets A devices.length (start A devices) := by
  rw [start_eq]
  by_cases hFew : devices.length < 2
  · rw [if_pos hFew]
    have hBegins : ∀ i, ¬ Begins A devices.length i := fun i h => absurd h.several (by omega)
    exact {
      begun := fun i => iff_of_false (List.not_mem_nil) (hBegins i)
      settled := fun i h => absurd h (hBegins i)
      touched := fun i => iff_of_false (List.not_mem_nil) fun h => absurd h.1 (by decide)
      answered := fun h => absurd h (by decide)
      not_pending := fun c hc => absurd hc List.not_mem_nil
      nothing := fun h => absurd h (by decide) }
  · rw [if_neg hFew]
    have hWatches := watches_afterBegin (A := A) (Nat.not_lt.mp hFew)
    split_ifs with hNone
    · exact settled_of_nothing hWatches hNone
    · exact hWatches

theorem meets_selectByTouch (A : TouchAnswers) (devices : List FIDODevice) (n : Nat) :
    Meets A devices.length (selectByTouch A devices n) := by
  induction n with
  | zero => exact meets_start devices
  | succ n ih => exact meets_step ih

/-- The counter is right at every poll; a return leaves no request open, and is `FIDO_OK`
exactly for the device that was touched. -/
theorem selectByTouch_sound (A : TouchAnswers) (devices : List FIDODevice) (n : Nat) :
    (∀ round polled rest s, selectByTouch A devices n = .polling round polled rest s →
      s.pendingCount = pendingIn (polled ++ rest)) ∧
    ∀ exit status selected candidates s,
      selectByTouch A devices n = .returned exit status selected candidates s →
        Settled A devices.length exit status selected candidates s := by
  have hMeets := meets_selectByTouch A devices n
  constructor
  · intro round polled rest s h
    rw [h] at hMeets
    exact hMeets.counted
  · intro exit status selected candidates s h
    rw [h] at hMeets
    exact hMeets

section Example

/-- The first of four devices does not open, the second fails, and the third is touched
in the second round. -/
def thirdTouched : TouchAnswers where
  allocates _ := true
  setTimeout _ := FIDO_OK
  opens index := if index = 0 then FIDO_ERR_INTERNAL else FIDO_OK
  touchBegin _ := FIDO_OK
  touchStatus round index :=
    if index = 1 then (FIDO_ERR_INTERNAL, 0) else (FIDO_OK, if round = 1 ∧ index = 2 then 1 else 0)
  tickCount _ := 0

def fourDevices : List FIDODevice := List.replicate 4 { path := [] }

def thirdReturned : TouchState :=
  .returned .touched FIDO_OK 2 [{ index := 1 }, { index := 2 }, { index := 3 }]
    { pendingCount := 2
      lastError := FIDO_ERR_INTERNAL
      events := [.begun 1, .begun 2, .begun 3, .failed 1 FIDO_ERR_INTERNAL, .touched 2,
        .cancelled 3] }

theorem selectByTouch_sound_example :
    selectByTouch thirdTouched fourDevices 8 = thirdReturned ∧
      Begins thirdTouched 4 2 ∧ Resolved [.begun 1, .begun 2, .begun 3,
        .failed 1 FIDO_ERR_INTERNAL, .touched 2, .cancelled 3] 3 := by
  have hReturned : selectByTouch thirdTouched fourDevices 8 = thirdReturned := by decide +kernel
  have hSettled := (selectByTouch_sound thirdTouched fourDevices 8).2 _ _ _ _ _ hReturned
  have hThird : Begins thirdTouched 4 3 := ⟨by decide, by decide, by rfl, by rfl⟩
  exact ⟨hReturned, (hSettled.answered rfl).1, hSettled.settled 3 hThird⟩

end Example

/-! ## The function returns -/

/-- Some number of steps leads to a return. -/
inductive Ends (A : TouchAnswers) : TouchState → Prop
  | returned (exit : TouchExit) (status : Int) (selected : Nat) (candidates : List Candidate)
      (s : TouchLocals) : Ends A (.returned exit status selected candidates s)
  | step {t : TouchState} (h : Ends A (step A t)) : Ends A t

/-- The inner loop ends, or leaves for the next round of the outer one. -/
theorem ends_polling {round : Nat}
    (hNext : ∀ candidates s, Ends A (.waiting (round + 1) candidates s)) (rest : List Candidate) :
    ∀ polled s, Ends A (.polling round polled rest s) := by
  induction rest with
  | nil => exact fun polled s => .step (hNext polled s)
  | cons c rest ih =>
      intro polled s
      refine .step ?_
      show Ends A (poll A round polled c rest s)
      unfold poll
      dsimp only
      split_ifs
      · exact ih _ _
      · exact .returned _ _ _ _ _
      · exact ih _ _
      · exact ih _ _
      · exact .returned _ _ _ _ _

/-- No round comes after the one in which the clock is found at the deadline. -/
theorem ends_waiting {round : Nat} (hDeadline : deadline A ≤ A.tickCount (round + 1)) (ahead : Nat) :
    ∀ earlier candidates s, earlier + ahead = round → Ends A (.waiting earlier candidates s) := by
  induction ahead with
  | zero =>
      rintro earlier candidates s rfl
      refine .step ?_
      rw [step_waiting, if_neg (UInt64.not_lt.mpr hDeadline)]
      exact .returned _ _ _ _ _
  | succ ahead ih =>
      intro earlier candidates s hRound
      refine .step ?_
      rw [step_waiting]
      generalize deadline A = limit
      by_cases hTime : A.tickCount (earlier + 1) < limit
      · rw [if_pos hTime]
        by_cases hStops : stopsAt A earlier = true
        · rw [if_pos hStops]
          exact .returned _ _ _ _ _
        · rw [if_neg hStops]
          exact ends_polling (fun candidates s => ih _ candidates s (by omega)) candidates [] s
      · rw [if_neg hTime]
        exact .returned _ _ _ _ _

theorem exists_returned_of_ends {devices : List FIDODevice} {t : TouchState} (h : Ends A t) :
    ∀ n, selectByTouch A devices n = t →
      ∃ m exit status selected candidates s,
        selectByTouch A devices m = .returned exit status selected candidates s := by
  induction h with
  | returned exit status selected candidates s =>
      exact fun n hn => ⟨n, exit, status, selected, candidates, s, hn⟩
  | step _ ih =>
      intro n hn
      exact ih (n + 1) (by rw [selectByTouch, hn])

/-- `SelectByTouch` returns once the clock has passed its deadline. -/
theorem selectByTouch_returns {round : Nat} (hDeadline : deadline A ≤ A.tickCount (round + 1))
    (devices : List FIDODevice) :
    ∃ n exit status selected candidates s,
      selectByTouch A devices n = .returned exit status selected candidates s := by
  refine exists_returned_of_ends (t := start A devices) ?_ 0 rfl
  rw [start_eq]
  split_ifs
  · exact .returned _ _ _ _ _
  · exact .returned _ _ _ _ _
  · exact ends_waiting hDeadline round 0 _ _ (Nat.zero_add round)

end FIDODevice
end WindowsFidoLogon
