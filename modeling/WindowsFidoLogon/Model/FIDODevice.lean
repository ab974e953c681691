import WindowsFidoLogon.Model.CCredential

/-!
# Choosing a security key by touch

`FIDODevice::SelectByTouch`.  The loops that open the devices and begin the touch
requests are recursions over the devices.  The polling loops are a machine that
takes one step for each pass of the outer loop's head and for each candidate of
the inner loop, so that the locals can be looked at before every call.

What the function does to its devices is recorded in the order in which it happens.
-/

namespace WindowsFidoLogon
namespace FIDODevice

def kCeremonyTimeoutMs : UInt64 := 120000

def FIDO_ERR_INVALID_ARGUMENT : Int := -7
def FIDO_ERR_INTERNAL : Int := -9
def FIDO_ERR_NOTFOUND : Int := -10
def FIDO_ERR_KEEPALIVE_CANCEL : Int := 0x2d
def FIDO_ERR_USER_ACTION_TIMEOUT : Int := 0x2f

/-- What libfido2, the clock and the caller answer.  A device is named by its index; it
is polled once at most in each round. -/
structure TouchAnswers where
  /-- `fido_dev_new` returns a device -/
  allocates : Nat → Bool
  /-- `fido_dev_set_timeout` -/
  setTimeout : Nat → Int
  /-- `fido_dev_open` -/
  opens : Nat → Int
  /-- `fido_dev_get_touch_begin` -/
  touchBegin : Nat → Int
  /-- `fido_dev_get_touch_status` of a device in a round: the status and `touched` -/
  touchStatus : Nat → Nat → Int × Int
  /-- `GetTickCount64`, call by call -/
  tickCount : Nat → UInt64
  /-- `shouldContinue`, if the caller gave one, round by round -/
  shouldContinue : Option (Nat → Bool) := none

structure Candidate where
  index : Nat
  pending : Bool := false
  deriving DecidableEq, Repr

inductive TouchEvent
  /-- `fido_dev_get_touch_begin` started a request -/
  | begun (index : Nat)
  | touched (index : Nat)
  /-- `fido_dev_get_touch_status` failed -/
  | failed (index : Nat) (status : Int)
  /-- `fido_dev_cancel` -/
  | cancelled (index : Nat)
  deriving DecidableEq, Repr

/-- The locals beside the candidates, and what was done so far. -/
structure TouchLocals where
  pendingCount : Nat := 0
  lastError : Int := FIDO_ERR_NOTFOUND
  events : List TouchEvent := []
  deriving DecidableEq, Repr

/-- The five `return` statements, in the order of the source; the second one stands for
both places that return `lastError`. -/
inductive TouchExit
  | tooFewDevices
  | nothingPending
  | cancelledByCaller
  | touched
  | timedOut
  deriving DecidableEq, Repr

/-- Where the function is. -/
inductive TouchState
  /-- at the head of the outer loop -/
  | waiting (round : Nat) (candidates : List Candidate) (s : TouchLocals)
  /-- in the inner loop, with the candidates before and from its position -/
  | polling (round : Nat) (polled rest : List Candidate) (s : TouchLocals)
  | returned (exit : TouchExit) (status : Int) (selected : Nat) (candidates : List Candidate)
    (s : TouchLocals)
  deriving DecidableEq, Repr

variable (A : TouchAnswers)

/-- `Open`; an error is the status it sets. -/
def openDevice (index : Nat) : Except Int Unit :=
  if !A.allocates index then .error FIDO_ERR_INTERNAL
  else if A.setTimeout index ≠ FIDO_OK then .error (A.setTimeout index)
  else if A.opens index ≠ FIDO_OK then .error (A.opens index)
  else .ok ()

/-- The first loop: the candidates and the last error. -/
def openLoop : List Nat → List Candidate → Int → List Candidate × Int
  | [], candidates, lastError => (candidates, lastError)
  | index :: rest, candidates, lastError =>
      match openDevice A index with
      | .error status => openLoop rest candidates status
      | .ok () => openLoop rest (candidates ++ [{ index }]) lastError

/-- The second loop. -/
def beginLoop : List Candidate → TouchLocals → List Candidate × TouchLocals
  | [], s => ([], s)
  | candidate :: rest, s =>
      let status := A.touchBegin candidate.index
      if status ≠ FIDO_OK then
        let (rest, s) := beginLoop rest { s with lastError := status }
        (candidate :: rest, s)
      else
        let (rest, s) := beginLoop rest
          { s with
            pendingCount := s.pendingCount + 1
            events := s.events ++ [.begun candidate.index] }
        ({ candidate with pending := true } :: rest, s)

/-- `cancelPending` -/
def cancelPending (candidates : List Candidate) (s : TouchLocals) : List Candidate × TouchLocals :=
  (candidates.map fun candidate => { candidate with pending := false },
    { s with
      events := s.events ++
        (candidates.filter (·.pending)).map fun candidate => .cancelled candidate.index })

/-- Cancel what is pending, and return. -/
def returnCancelled (exit : TouchExit) (status : Int) (selected : Nat) (candidates : List Candidate)
    (s : TouchLocals) : TouchState :=
  let (candidates, s) := cancelPending candidates s
  .returned exit status selected candidates s

/-- The function up to its outer loop. -/
def start (devices : List FIDODevice) : TouchState :=
  if devices.length < 2 then .returned .tooFewDevices FIDO_ERR_INVALID_ARGUMENT 0 [] {}
  else
    let (candidates, lastError) := openLoop A (List.range devices.length) [] FIDO_ERR_NOTFOUND
    let (candidates, s) := beginLoop A candidates { lastError }
    if s.pendingCount = 0 then .returned .nothingPending s.lastError 0 candidates s
    else .waiting 0 candidates s

def deadline : UInt64 := A.tickCount 0 + kCeremonyTimeoutMs

/-- The caller has a `shouldContinue`, and it says no. -/
def stopsAt (round : Nat) : Bool :=
  A.shouldContinue.any fun shouldContinue => !shouldContinue round

/-- The inner loop at a candidate. -/
def poll (round : Nat) (polled : List Candidate) (candidate : Candidate) (rest : List Candidate)
    (s : TouchLocals) : TouchState :=
  if !candidate.pending then .polling round (polled ++ [candidate]) rest s
  else
    let (status, touched) := A.touchStatus round candidate.index
    let resolved := { candidate with pending := false }
    if status ≠ FIDO_OK then
      let s := { s with
        lastError := status
        pendingCount := s.pendingCount - 1
        events := s.events ++ [.failed candidate.index status] }
      if s.pendingCount = 0 then
        .returned .nothingPending s.lastError 0 (polled ++ resolved :: rest) s
      else .polling round (polled ++ [resolved]) rest s
    else if touched = 0 then .polling round (polled ++ [candidate]) rest s
    else
      returnCancelled .touched FIDO_OK candidate.index (polled ++ resolved :: rest)
        { s with events := s.events ++ [.touched candidate.index] }

def step : TouchState → TouchState
  | .waiting round candidates s =>
      if A.tickCount (round + 1) < deadline A then
        if stopsAt A round then
          returnCancelled .cancelledByCaller FIDO_ERR_KEEPALIVE_CANCEL 0 candidates s
        else .polling round [] candidates s
      else returnCancelled .timedOut FIDO_ERR_USER_ACTION_TIMEOUT 0 candidates s
  | .polling round polled [] s => .waiting (round + 1) polled s
  | .polling round polled (candidate :: rest) s => poll A round polled candidate rest s
  | .returned exit status selected candidates s => .returned exit status selected candidates s

/-- `SelectByTouch` after a number of steps. -/
def selectByTouch (devices : List FIDODevice) : Nat → TouchState
  | 0 => start A devices
  | n + 1 => step A (selectByTouch devices n)

end FIDODevice
end WindowsFidoLogon
