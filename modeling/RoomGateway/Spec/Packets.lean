import RoomGateway.Spec.Retries
import RoomGateway.Spec.Snapshot
import RoomGateway.Spec.Visibility

/-!
What a packet shows. It has the part of the log that the requester can see, in
order; whether the agent can see it too is not asked, so the packet is the
history of both exactly when nothing was said to the requester behind the
agent's back.
-/

namespace RoomGateway

variable {env : Env} {db : Db}

/-- The history of a task that its requester can see. -/
def requesterHistory (db : Db) (t : AgentTaskRecord) : List RoomEvent :=
  (eventsUpTo db t.roomId t.contextRevision).filter (eventVisibleTo · t.requesterId)

/-- The history of a task that both its requester and its agent can see. -/
def sharedHistory (db : Db) (t : AgentTaskRecord) : List RoomEvent :=
  (eventsUpTo db t.roomId t.contextRevision).filter fun e =>
    eventVisibleTo e t.requesterId && eventVisibleTo e t.agentId

/-- What the requester can see of the history of the task, the agent can see. -/
def AgentInformed (db : Db) (t : AgentTaskRecord) : Prop :=
  ∀ e ∈ db.roomEvents.rows, e.roomId = t.roomId → e.sequence ≤ t.contextRevision →
    eventVisibleTo e t.requesterId = true → eventVisibleTo e t.agentId = true

theorem mem_requesterHistory {t : AgentTaskRecord} {e : RoomEvent} :
    e ∈ requesterHistory db t ↔ e ∈ db.roomEvents.rows ∧ e.roomId = t.roomId ∧
      e.sequence ≤ t.contextRevision ∧ eventVisibleTo e t.requesterId = true := by
  simp only [requesterHistory, List.mem_filter, mem_eventsUpTo, and_assoc]

theorem sharedHistory_eq_filter (db : Db) (t : AgentTaskRecord) :
    sharedHistory db t = (requesterHistory db t).filter (eventVisibleTo · t.agentId) := by
  simp only [sharedHistory, requesterHistory, List.filter_filter, Bool.and_comm]

/-- The packet has what the requester can see of the history of the task, in
order, and this is the history of both exactly if the agent can see it too. -/
theorem packet_shared_iff (env : Env) (db : Db) (lease : AgentTaskLease) (now : Time)
    (context : AgentTaskContext) (h : contextForLease db lease now = some context) :
    ((contextPacket env context lease).events =
        (requesterHistory db context.task).map (RoomEvent.toWireValue env) ∧
      Ascending RoomEvent.sequence (requesterHistory db context.task)) ∧
    ((contextPacket env context lease).events =
        (sharedHistory db context.task).map (RoomEvent.toWireValue env) ↔
      AgentInformed db context.task) := by
  obtain ⟨t, -, -, rfl⟩ := contextForLease_some h
  have hpacket : (contextPacket env (taskContext db t) lease).events =
      (requesterHistory db t).map (RoomEvent.toWireValue env) := rfl
  refine ⟨⟨hpacket, (eventsUpTo_ascending ..).filter _⟩, ?_⟩
  rw [hpacket]
  change (requesterHistory db t).map _ = (sharedHistory db t).map _ ↔ AgentInformed db t
  rw [sharedHistory_eq_filter]
  constructor
  · intro heq e he hroom hsequence hvisible
    -- nothing was filtered out, for the two lists are as long
    have hlength := congrArg List.length heq
    rw [List.length_map, List.length_map] at hlength
    exact List.length_filter_eq_length_iff.mp hlength.symm e
      (mem_requesterHistory.mpr ⟨he, hroom, hsequence, hvisible⟩)
  · intro hinformed
    rw [List.filter_eq_self.mpr fun e he => ?_]
    obtain ⟨he, hroom, hsequence, hvisible⟩ := mem_requesterHistory.mp he
    exact hinformed e he hroom hsequence hvisible

/-! ### A message that the agent was not sent

Maya writes to the action-items agent alone and then asks the reference agent
for a summary. -/

def sampleClaim : Op := .claimOldestQueuedAgentTask referenceAgentId 40 (seconds 100)

def sampleLease : AgentTaskLease := ⟨30, 40, seconds 400⟩

/-- A start of a task after the message. -/
def sampleAskLater : Op :=
  .startAgentTask 7 "Maya Chen" { sampleStart with requestId := 6 } (seconds 100)
    fun n => .ofNat (30 + n)

def messageBehindBack : List Op :=
  [.process sampleActor (.chatSend sampleChat) [] true (seconds 100) fun n => .ofNat (20 + n),
    sampleAskLater, sampleClaim]

/-- The packet for the reference agent has the message that it could not see. -/
theorem packet_exposes_message :
    ∃ context, contextForLease ((gateway sampleEnv).run messageBehindBack).db sampleLease
        (seconds 200) = some context ∧
      ∃ e ∈ context.visibleEvents, e.toWireValue sampleEnv ∈
          (contextPacket sampleEnv context sampleLease).events ∧
        e.payload["text"] = Json.str sampleChat.text ∧
        eventVisibleTo e context.task.agentId = false := by
  decide +kernel

/-- Before the task Maya writes to the room, and then to the reference agent
alone. -/
def messagesToAgent : List Op :=
  [.process sampleActor (.chatSend { sampleChat with
        requestId := 3, text := "hello", mentions := [], delivery := .room }) [] true
      (seconds 100) fun n => .ofNat (10 + n),
    .process sampleActor (.chatSend { sampleChat with
        text := "@reference between us", mentions := [.participant referenceAgentId "reference"] })
      [⟨referenceAgentId, .agent, "Reference", 1⟩] true (seconds 100) fun n => .ofNat (20 + n),
    sampleAskLater, sampleClaim]

/-- Both messages are in the packet, before the events of the task. -/
theorem packet_shared_sample :
    ∃ context, contextForLease ((gateway sampleEnv).run messagesToAgent).db sampleLease
        (seconds 200) = some context ∧
      ((requesterHistory ((gateway sampleEnv).run messagesToAgent).db context.task).map fun e =>
        (e.payload["text"], e.payload["delivery"])).take 2 =
        [(.str "hello", .str "room"), (.str "@reference between us", .str "mentioned")] ∧
      (contextPacket sampleEnv context sampleLease).events =
        (sharedHistory ((gateway sampleEnv).run messagesToAgent).db context.task).map
          (RoomEvent.toWireValue sampleEnv) := by
  have hfound : ∃ context, contextForLease ((gateway sampleEnv).run messagesToAgent).db
        sampleLease (seconds 200) = some context ∧
      ((requesterHistory ((gateway sampleEnv).run messagesToAgent).db context.task).map fun e =>
        (e.payload["text"], e.payload["delivery"])).take 2 =
        [(.str "hello", .str "room"), (.str "@reference between us", .str "mentioned")] ∧
      ∀ e ∈ ((gateway sampleEnv).run messagesToAgent).db.roomEvents.rows,
        eventVisibleTo e context.task.agentId = true := by
    decide +kernel
  obtain ⟨context, hcontext, htexts, hvisible⟩ := hfound
  have hpacket := packet_shared_iff sampleEnv _ sampleLease (seconds 200) context hcontext
  exact ⟨context, hcontext, htexts, hpacket.2.mpr fun e he _ _ _ => hvisible e he⟩

end RoomGateway
