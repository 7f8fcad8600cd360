import RoomGateway.Lib.Machine
import RoomGateway.Model.Rooms
import RoomGateway.Model.Turn

/-!
The gateway as a machine over its database. A step is one transaction of one
call: each of them runs under the lock of its room from before its first read
of anything that can change, so it is one step. The exception is a claim, which
selects its task before it locks the task's room: it is two steps, with any
steps of other calls in between. The claim lock is held from the first of the
two to the second, so at most one claim is between them.
-/

namespace RoomGateway

variable (env : Env)

/-- A claim that has selected its task and waits for the task's room. -/
structure PendingClaim where
  policy : ConversationPolicy
  owner : String
  task : Uuid
  room : Uuid
  txNow : Time
  deriving DecidableEq, Repr

structure Sys where
  db : Db := {}
  claiming : Option PendingClaim := none

/-- The calls, with everything the code reads from outside the database: the
policy in force, the clock, the fresh identifiers, who is connected. -/
inductive Op where
  | reserve (policy : ConversationPolicy) (actor : Actor) (request : Json)
      (authorizationExpiresAt : Time) (catalog : Option CatalogQuery)
      (presence : Option (List ParticipantPresence)) (clock : Nat → Time) (fresh : Nat → Uuid)
  | claimSelect (policy : ConversationPolicy) (owner : String) (txNow : Time)
  | claimFinish (now : Time) (fresh : Uuid)
  | claimAbort
  | packet (policy : ConversationPolicy) (task lease : Uuid) (txNow now : Time) (fresh : Uuid)
  | recordUpdate (policy : ConversationPolicy) (task lease : Uuid) (request : Json)
      (txNow : Time) (clock : Nat → Time) (fresh : Uuid)
  | process (actor : Actor) (request : ValidatedRequest) (presence : List ParticipantPresence)
      (conversationsEnabled : Bool) (txNow : Time) (fresh : Nat → Uuid)
  | startAgentTask (requesterId : Uuid) (requesterDisplayName : String) (start : AgentTaskStart)
      (txNow : Time) (fresh : Nat → Uuid)
  | claimAgentTask (task owner : Uuid) (now : Time)
  | claimOldestQueuedAgentTask (agent owner : Uuid) (now : Time)
  | recordAgentTaskUpdate (lease : AgentTaskLease) (update : AgentTaskUpdate) (txNow now : Time)
      (fresh : Nat → Uuid)

/-- What a call returns. -/
inductive Out where
  | none
  | reserved (r : Except ConversationError ConversationReservation)
  | claimed (r : Except ConversationError (Option Claimed))
  | packet (r : Except ConversationError Json)
  | updated (r : Except ConversationError ConversationUpdateOutcome)
  | processed (r : Except RpcError ProcessedRequest)
  | started (r : Except StoreError AgentTaskStartResult)
  | leased (r : Except StoreError (Option AgentTaskLease))
  | taskUpdated (r : Except StoreError AgentTaskUpdateResult)

/-- The first half of a claim's round. -/
def Sys.claimSelect (s : Sys) (policy : ConversationPolicy) (owner : String) (txNow : Time) :
    Sys × Out :=
  match s.claiming, checkClaim policy owner with
  | some _, _ => (s, .none)
  | none, .error e => (s, .claimed (.error e))
  | none, .ok _ =>
      match claimCandidate s.db (pgTime txNow) with
      | none => (s, .claimed (.ok none))
      | some t => ({ s with claiming := some ⟨policy, owner, t.taskId, t.roomId, txNow⟩ }, .none)

/-- The second half: the room is locked and the task is read again. -/
def Sys.claimFinish (s : Sys) (now : Time) (fresh : Uuid) : Sys × Out :=
  match s.claiming with
  | none => (s, .none)
  | some p =>
      let (r, db) := (claimLocked env p.policy p.owner p.task p.room p.txNow now fresh).runTx s.db
      ({ db := db, claiming := none }, .claimed r)

/-- One transaction on the database of a state. -/
def Sys.transact {ε α : Type} (s : Sys) (tx : Tx ε (Ending ε α)) (out : Except ε α → Out) :
    Sys × Out :=
  let (r, db) := tx.runTx s.db
  ({ s with db := db }, out r)

def gatewayStep (s : Sys) : Op → Sys × Out
  | .reserve policy actor request authorizationExpiresAt catalog presence clock fresh =>
      s.transact (reserveInner env policy actor request authorizationExpiresAt catalog presence
        clock fresh) .reserved
  | .claimSelect policy owner txNow => s.claimSelect policy owner txNow
  | .claimFinish now fresh => s.claimFinish env now fresh
  | .claimAbort => ({ s with claiming := none }, .none)
  | .packet policy task lease txNow now fresh =>
      s.transact (packet env policy task lease txNow now fresh) .packet
  | .recordUpdate policy task lease request txNow clock fresh =>
      s.transact (recordUpdate env policy task lease request txNow clock fresh) .updated
  | .process actor request presence conversationsEnabled txNow fresh =>
      s.transact (process env actor request presence conversationsEnabled txNow fresh) .processed
  | .startAgentTask requesterId requesterDisplayName start txNow fresh =>
      s.transact (startAgentTask env requesterId requesterDisplayName start txNow fresh) .started
  | .claimAgentTask task owner now => s.transact (claimAgentTask task owner now) .leased
  | .claimOldestQueuedAgentTask agent owner now =>
      s.transact (claimOldestQueuedAgentTask agent owner now) .leased
  | .recordAgentTaskUpdate lease update txNow now fresh =>
      s.transact (recordAgentTaskUpdateWithOutcome env lease update txNow now fresh) .taskUpdated

def gateway : Machine Sys Op Out where
  init := {}
  step := gatewayStep env

end RoomGateway
