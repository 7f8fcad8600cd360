import RoomGateway.Lib.Resources
import RoomGateway.Model.Rooms

/-!
The room requests by what they wait for: a connection of the pool, and the lock
of a room. `GatewayState::process` takes a connection for its transaction, then
the lock, and keeps both until the transaction ends. A message that is sent for
the first time reads the roster on the way (`participant_snapshot`), and that
read goes to the pool and not to the transaction. The reads of a join take a
connection each.
-/

namespace RoomGateway

inductive Resource where
  | connection
  /-- An advisory lock; its key is a hash of the room. -/
  | lock (key : Int)
  deriving DecidableEq, Repr

/-- How far the gateway is with a request. -/
inductive Stage where
  /-- A connection is wanted for a read, with `left` more to come. -/
  | reads (left : Nat)
  | reading (left : Nat)
  /-- A connection is wanted for the transaction. -/
  | start
  /-- The lock of the room is wanted. -/
  | begun
  | locked
  /-- A connection is wanted for the replay behind the roster. -/
  | snapshot
  | replaying
  | performing
  | finished
  deriving DecidableEq, Repr

structure IssuedRequest where
  actor : Actor
  request : ValidatedRequest
  deriving DecidableEq, Repr

namespace IssuedRequest

/-- The key in the ledger of the requests that were answered. -/
def key (call : IssuedRequest) : Option (Uuid × Uuid) :=
  match call.request.roomId, call.request.requestId with
  | some room, some requestId => some (room, requestId)
  | _, _ => none

def sendsChat (call : IssuedRequest) : Bool :=
  match call.request with
  | .chatSend _ => true
  | _ => false

/-- The request reaches its transaction. -/
def transacts (call : IssuedRequest) : Bool :=
  match call.request with
  | .join _ | .sessionAuthenticate _ => false
  | _ => !(call.request.governed && call.actor.role ≠ .human)

/-- A join replays, reads the roster and publishes it; a request that is refused
before its transaction touches neither pool nor lock. -/
def start (call : IssuedRequest) : Stage :=
  match call.request with
  | .join _ => .reads 2
  | _ => if call.transacts then .start else .finished

end IssuedRequest

/-- A request on its way through the gateway. -/
structure Handling where
  call : IssuedRequest
  stage : Stage
  deriving DecidableEq, Repr

variable (hash : Uuid → Int)

/-- The lock of a request's room. -/
def IssuedRequest.lock (call : IssuedRequest) : Option Resource :=
  call.request.roomId.map fun room => .lock (hash room)

def Handling.wants (h : Handling) : Option Resource :=
  match h.stage with
  | .reads _ | .start | .snapshot => some .connection
  | .begun => h.call.lock hash
  | _ => none

def Stage.connections : Stage → Nat
  | .reading _ | .begun | .locked | .snapshot | .performing => 1
  | .replaying => 2
  | .reads _ | .start | .finished => 0

def Stage.holdsLock : Stage → Bool
  | .locked | .snapshot | .replaying | .performing => true
  | _ => false

def Handling.holds (h : Handling) : Resource → Nat
  | .connection => h.stage.connections
  | .lock key => if h.stage.holdsLock && h.call.lock hash = some (.lock key) then 1 else 0

/-- What the gateway does next with a request, once it was given what it wants.
`goesOn` says that the statements in between succeed: a read that fails ends its
request, and a transaction that fails is rolled back. For a join it also says
whether there is something left to publish. -/
def Handling.move (answered : List (Uuid × Uuid)) (h : Handling) (goesOn : Bool) :
    List (Uuid × Uuid) × Handling :=
  let ending := (answered, { h with stage := .finished })
  match h.stage with
  | .reads left => (answered, { h with stage := .reading left })
  | .reading 0 => ending
  | .reading (left + 1) => if goesOn then (answered, { h with stage := .reads left }) else ending
  | .start => (answered, { h with stage := .begun })
  | .begun => (answered, { h with stage := .locked })
  | .locked =>
      if h.call.key.any answered.contains then ending
      else if h.call.sendsChat then (answered, { h with stage := .snapshot })
      else (answered, { h with stage := .performing })
  | .snapshot => (answered, { h with stage := .replaying })
  | .replaying => if goesOn then (answered, { h with stage := .performing }) else ending
  | .performing =>
      if goesOn then (answered ++ h.call.key.toList, { h with stage := .finished }) else ending
  | .finished => ending

/-- The pool has `size` connections; of a lock there is one. -/
def poolSystem (size : Nat) : Resources (List (Uuid × Uuid)) Handling Resource Bool where
  capacity
    | .connection => size
    | .lock _ => 1
  wants := Handling.wants hash
  holds := Handling.holds hash
  move := Handling.move

/-- Requests that are issued together, when the ledger has answered some. -/
def issued {ι : Type} (answered : List (Uuid × Uuid)) (calls : ι → IssuedRequest) :
    Resources.World ι (List (Uuid × Uuid)) Handling :=
  ⟨answered, fun i => ⟨calls i, (calls i).start⟩⟩

/-- The gateway handling requests that are issued together; an input names the
request that goes on. -/
def handling {ι : Type} [Fintype ι] [DecidableEq ι] (size : Nat)
    (answered : List (Uuid × Uuid)) (calls : ι → IssuedRequest) :
    Machine (Resources.World ι (List (Uuid × Uuid)) Handling) (ι × Bool) Unit :=
  (poolSystem hash size).machine (issued answered calls)

end RoomGateway
