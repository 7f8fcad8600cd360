import RoomGateway.Model.WebSocket
import RoomGateway.Spec.Log

/-!
A session neither misses nor repeats an event. Its cursor moves over the room's
log one event at a time, past hidden events too, and what the client has been
sent since it joined is what it may see of the log up to the cursor.
-/

namespace RoomGateway

/-! ### What a client may see -/

/-- The events of a room after one sequence and up to another that the actor
may see, in order. -/
def visibleEvents (db : Db) (room : Uuid) (after upTo : Int) (actor : Uuid) : List RoomEvent :=
  (bySequence ((db.eventsOf room).filter fun e => after < e.sequence && e.sequence ≤ upTo)).filter
    (eventVisibleTo · actor)

section Visible

variable {db db' : Db} {room actor : Uuid} {after upTo last : Int} {e : RoomEvent}

theorem mem_visibleEvents : e ∈ visibleEvents db room after upTo actor ↔
    e ∈ db.roomEvents.rows ∧ e.roomId = room ∧ after < e.sequence ∧ e.sequence ≤ upTo ∧
      eventVisibleTo e actor = true := by
  simp only [visibleEvents, bySequence, List.mem_filter, List.mem_insertionSort, Db.mem_eventsOf,
    Bool.and_eq_true, decide_eq_true_eq, and_assoc]

theorem visibleEvents_ascending (db : Db) (room : Uuid) (after upTo : Int) (actor : Uuid) :
    Ascending RoomEvent.sequence (visibleEvents db room after upTo actor) :=
  (ascending_sortOn (db.eventsOf_nodup room _)).filter _

theorem eventsAfter_ascending (db : Db) (room : Uuid) (after : Int) :
    Ascending RoomEvent.sequence (eventsAfter db room after) :=
  ascending_sortOn (db.eventsOf_nodup room _)

theorem mem_eventsAfter : e ∈ eventsAfter db room after ↔
    e ∈ db.roomEvents.rows ∧ e.roomId = room ∧ after < e.sequence := by
  simp only [eventsAfter, bySequence, List.mem_insertionSort, List.mem_filter, Db.mem_eventsOf,
    decide_eq_true_eq, and_assoc]

theorem visibleEvents_self : visibleEvents db room after after actor = [] := by
  refine List.eq_nil_iff_forall_not_mem.mpr fun e he => ?_
  obtain ⟨-, -, hlt, hle, -⟩ := mem_visibleEvents.mp he
  omega

/-- The next event of the room is the next that the actor sees, if it may. -/
theorem visibleEvents_succ (he : e ∈ db.roomEvents.rows) (hroom : e.roomId = room)
    (hnext : e.sequence = last + 1) (hafter : after ≤ last) :
    visibleEvents db room after e.sequence actor =
      visibleEvents db room after last actor ++ if eventVisibleTo e actor then [e] else [] := by
  refine (visibleEvents_ascending ..).eq_of_mem_iff ?_ fun x => ?_
  · refine (visibleEvents_ascending ..).append ?_ fun a ha b hb => ?_
    · split_ifs <;> simp [Ascending]
    · obtain ⟨-, -, -, hle, -⟩ := mem_visibleEvents.mp ha
      split_ifs at hb
      · rw [List.mem_singleton.mp hb]
        omega
      · cases hb
  · rw [List.mem_append, mem_visibleEvents, mem_visibleEvents]
    constructor
    · rintro ⟨hx, hxroom, hlt, hle, hvisible⟩
      rcases Int.lt_or_eq_of_le hle with h | h
      · exact .inl ⟨hx, hxroom, hlt, by omega, hvisible⟩
      · obtain rfl : x = e := by
          refine Table.eq_of_clash hx he ?_ ?_
          · simp [roomEventConstraints, hxroom, hroom, h]
          · simp [roomEventConstraints, hxroom, hroom, h]
        simp [hvisible]
    · rintro (⟨hx, hxroom, hlt, hle, hvisible⟩ | hx)
      · exact ⟨hx, hxroom, hlt, by omega, hvisible⟩
      · split_ifs at hx with hvisible
        · rw [List.mem_singleton.mp hx]
          exact ⟨he, hroom, by omega, le_rfl, hvisible⟩
        · cases hx

/-- All that follows a cursor is what there is up to the last event. -/
theorem visibleEvents_getLast (db : Db) (room : Uuid) (after : Int) (actor : Uuid) :
    visibleEvents db room after
        (((eventsAfter db room after).getLast?.map (·.sequence)).getD after) actor =
      (eventsAfter db room after).filter (eventVisibleTo · actor) := by
  refine (visibleEvents_ascending ..).eq_of_mem_iff ((eventsAfter_ascending ..).filter _)
    fun x => ?_
  rw [mem_visibleEvents, List.mem_filter, mem_eventsAfter]
  constructor
  · rintro ⟨hx, hroom, hlt, -, hvisible⟩
    exact ⟨⟨hx, hroom, hlt⟩, hvisible⟩
  · rintro ⟨⟨hx, hroom, hlt⟩, hvisible⟩
    refine ⟨hx, hroom, hlt, ?_, hvisible⟩
    have hmem : x ∈ eventsAfter db room after := mem_eventsAfter.mpr ⟨hx, hroom, hlt⟩
    exact (eventsAfter_ascending db room after).le_getLast hmem

/-- What was visible up to a recorded event stays so while the log grows. -/
theorem visibleEvents_extends (h : LogExtends db db') (he : e ∈ db.roomEvents.rows)
    (hroom : e.roomId = room) (hlast : e.sequence = upTo) :
    visibleEvents db' room after upTo actor = visibleEvents db room after upTo actor := by
  have hfilter : (db'.eventsOf room).filter (fun x => after < x.sequence && x.sequence ≤ upTo) =
      (db.eventsOf room).filter fun x => after < x.sequence && x.sequence ≤ upTo := by
    rw [Db.eventsOf, Db.eventsOf, List.filter_filter, List.filter_filter]
    refine h.filter_eq he fun x hx => ?_
    simp only [Bool.and_eq_true, decide_eq_true_eq] at hx
    exact ⟨hx.2.trans hroom.symm, hlast ▸ hx.1.2⟩
  rw [visibleEvents, hfilter, visibleEvents]

end Visible

/-! ### The cursor -/

/-- A cursor that began at `after`: it has not moved, or it is at an event of
the room. -/
structure Cursor (db : Db) (room : Uuid) (after last : Int) : Prop where
  lower : -2 ^ 63 ≤ after
  upper : after < 2 ^ 63
  reached : last = after ∨
    (after < last ∧ ∃ e ∈ db.roomEvents.rows, e.roomId = room ∧ e.sequence = last)

namespace Cursor

variable {db db' : Db} {room actor : Uuid} {after last : Int}

theorem le (h : Cursor db room after last) : after ≤ last := by
  rcases h.reached with hlast | ⟨hlt, -⟩ <;> omega

theorem lt_max (h : Cursor db room after last) : last < 2 ^ 63 := by
  rcases h.reached with hlast | ⟨-, e, he, -, hsequence⟩
  · have := h.upper
    omega
  · have hcheck : e.sequence ≤ maxBigint := by
      simpa [roomEventConstraints] using db.roomEvents.checked e he
    unfold maxBigint at hcheck
    omega

theorem later (h : Cursor db room after last) (hlog : LogExtends db db') :
    Cursor db' room after last := by
  refine ⟨h.lower, h.upper, h.reached.imp id ?_⟩
  rintro ⟨hlt, e, he, hroom, hsequence⟩
  exact ⟨hlt, e, hlog.mem he, hroom, hsequence⟩

/-- What is visible up to the cursor does not change while the log grows. -/
theorem visibleEvents_eq (h : Cursor db room after last) (hlog : LogExtends db db') :
    visibleEvents db' room after last actor = visibleEvents db room after last actor := by
  rcases h.reached with rfl | ⟨-, e, he, hroom, hsequence⟩
  · rw [visibleEvents_self, visibleEvents_self]
  · exact visibleEvents_extends hlog he hroom hsequence

/-- The comparison with the next sequence is exact, since no event has the
sequence that the addition wraps to. -/
theorem eq_succ (h : Cursor db room after last) {n : Int} (hpos : 1 ≤ n)
    (heq : n = wrapI64 (last + 1)) : n = last + 1 := by
  have hlower := h.lower
  have hle := h.le
  have hupper := h.lt_max
  unfold wrapI64 at heq
  omega

end Cursor

/-- The cursor moves over the room's events one by one; `events` are those of
them that the actor may see. -/
inductive Follows (db : Db) (room actor : Uuid) : Int → Int → List RoomEvent → Prop where
  | refl (last : Int) : Follows db room actor last last []
  | step {last last' : Int} {e : RoomEvent} {events : List RoomEvent}
      (he : e ∈ db.roomEvents.rows) (hroom : e.roomId = room) (hnext : e.sequence = last + 1)
      (h : Follows db room actor e.sequence last' events) :
      Follows db room actor last last' ((if eventVisibleTo e actor then [e] else []) ++ events)

theorem Follows.visibleEvents_eq {db : Db} {room actor : Uuid} {after last last' : Int}
    {events : List RoomEvent} (h : Follows db room actor last last' events)
    (hcursor : Cursor db room after last) : Cursor db room after last' ∧
      visibleEvents db room after last' actor =
        visibleEvents db room after last actor ++ events := by
  induction h with
  | refl last => exact ⟨hcursor, (List.append_nil _).symm⟩
  | @step last last' e events he hroom hnext _ ih =>
      have hle := hcursor.le
      have hnow : Cursor db room after e.sequence :=
        ⟨hcursor.lower, hcursor.upper, .inr ⟨by omega, e, he, hroom, rfl⟩⟩
      obtain ⟨hlast, hvisible⟩ := ih hnow
      refine ⟨hlast, ?_⟩
      rw [hvisible, visibleEvents_succ he hroom hnext hle, List.append_assoc]

/-- The event that a frame delivers, other than by a join or as the answer to a
repeated request. -/
def Frame.liveEvent : Frame → Option RoomEvent
  | .event e => some e
  | _ => none

/-- The events of a join's response. -/
def Frame.joinedEvents : Frame → Option (List RoomEvent)
  | .joined _ events _ => some events
  | _ => none

theorem replayInOrder_follows {db : Db} {room : Uuid} {after : Int} (actor : Uuid)
    (hpos : ∀ e ∈ db.roomEvents.rows, 1 ≤ e.sequence) {events : List RoomEvent}
    (hevents : ∀ e ∈ events, e ∈ db.roomEvents.rows ∧ e.roomId = room) {last : Int}
    (hcursor : Cursor db room after last) (sends : Nat) :
    Follows db room actor last (replayInOrder actor events last sends).1
        ((replayInOrder actor events last sends).2.1.filterMap Frame.liveEvent) ∧
      ∀ frame ∈ (replayInOrder actor events last sends).2.1, frame.joinedEvents = none := by
  -- one event after the other: each either ends the replay or is the next one
  induction events generalizing last sends with
  | nil => exact ⟨.refl last, by simp [replayInOrder]⟩
  | cons e events ih =>
      obtain ⟨he, hroom⟩ := hevents e List.mem_cons_self
      have hrest : ∀ x ∈ events, x ∈ db.roomEvents.rows ∧ x.roomId = room :=
        fun x hx => hevents x (List.mem_cons_of_mem _ hx)
      unfold replayInOrder
      split_ifs with hold hgap hvisible
      · exact ih hrest hcursor sends
      · exact ⟨.refl last, by simp⟩
      · cases sends with
        | zero => exact ⟨.refl last, by simp⟩
        | succ sends =>
            have hnext := hcursor.eq_succ (hpos e he) (not_not.mp hgap)
            have hnow : Cursor db room after e.sequence :=
              ((Follows.step he hroom hnext (.refl _) :
                Follows db room actor _ _ _).visibleEvents_eq hcursor).1
            obtain ⟨hfollows, hjoined⟩ := ih hrest hnow sends
            refine ⟨?_, ?_⟩
            · have hstep := Follows.step he hroom hnext hfollows
              rw [if_pos hvisible] at hstep
              exact hstep
            · simp only [List.mem_cons, forall_eq_or_imp]
              exact ⟨rfl, hjoined⟩
      · have hnext := hcursor.eq_succ (hpos e he) (not_not.mp hgap)
        have hnow : Cursor db room after e.sequence :=
          ((Follows.step he hroom hnext (.refl _) :
            Follows db room actor _ _ _).visibleEvents_eq hcursor).1
        obtain ⟨hfollows, hjoined⟩ := ih hrest hnow sends
        have hstep := Follows.step he hroom hnext hfollows
        rw [if_neg hvisible] at hstep
        exact ⟨hstep, hjoined⟩

/-! ### One reaction -/

/-- What a reaction does to the session, the log and what its client sees of
the log. -/
inductive Reacted (db : Db) (s : Session) (input : Input) (r : Reaction) : Prop where
  | quiet (session : r.session = s) (live : r.frames.filterMap Frame.liveEvent = [])
      (unjoined : ∀ frame ∈ r.frames, frame.joinedEvents = none)
      (log : LogExtends db r.shared.sys.db)
  | read {room last} (joinedRoom : s.joinedRoom = some room)
      (session : r.session = { s with lastSequence := last })
      (follows : Follows db room s.actor.id s.lastSequence last
        (r.frames.filterMap Frame.liveEvent))
      (unjoined : ∀ frame ∈ r.frames, frame.joinedEvents = none)
      (same : r.shared.sys.db = db)
  | joined {join fallbackId participants}
      (input_eq : input = .message (.ok (.join join)) fallbackId)
      (session : r.session = { s with
        lastSequence :=
          ((eventsAfter db join.roomId join.cursor).getLast?.map (·.sequence)).getD join.cursor
        joinedRoom := some join.roomId
        receiver := some join.roomId })
      (frames : r.frames = [.joined join.id
        ((eventsAfter db join.roomId join.cursor).filter (eventVisibleTo · s.actor.id))
        participants])
      (same : r.shared.sys.db = db)
  /-- The response to a join did not reach the client. -/
  | lost (actor : r.session.actor = s.actor) (frames : r.frames = []) (ended : r.goesOn = false)
      (same : r.shared.sys.db = db)

section React

variable {env : Env} {shared : Shared} {s : Session} {io : Io} {input : Input}

/-- A reaction that delivers nothing of the log. -/
theorem Reacted.of_frames {db : Db} {r : Reaction} (session : r.session = s)
    (frames : ∀ frame ∈ r.frames, frame.liveEvent = none ∧ frame.joinedEvents = none)
    (log : LogExtends db r.shared.sys.db) : Reacted db s input r :=
  .quiet session (List.filterMap_eq_nil_iff.mpr fun frame hframe => (frames frame hframe).1)
    (fun frame hframe => (frames frame hframe).2) log

theorem eq_of_mem_take {frame x : Frame} {n : Nat} (hx : x ∈ [frame].take n) : x = frame :=
  List.mem_singleton.mp (List.mem_of_mem_take hx)

theorem reply_quiet {db : Db} {frame : Frame} (hlive : frame.liveEvent = none)
    (hjoined : frame.joinedEvents = none) (log : LogExtends db shared.sys.db) :
    Reacted db s input (reply shared s io frame) :=
  .of_frames rfl (fun _ hx => (eq_of_mem_take hx).symm ▸ ⟨hlive, hjoined⟩) log

theorem reply_frames {n : Nat} {frame : Frame} (h : io.sends = n + 1) :
    (reply shared s io frame).frames = [frame] := by
  simp [reply, h]

theorem Session.recover_reacted {room : Uuid} {after : Int}
    (hpos : ∀ e ∈ shared.sys.db.roomEvents.rows, 1 ≤ e.sequence)
    (hjoined : s.joinedRoom = some room)
    (hcursor : Cursor shared.sys.db room after s.lastSequence) :
    Reacted shared.sys.db s input (s.recover shared io room) := by
  unfold Session.recover
  split_ifs with hread
  · exact .quiet rfl rfl (by simp) .refl
  · obtain ⟨hfollows, hunjoined⟩ := replayInOrder_follows s.actor.id hpos
      (fun e he => ⟨(mem_eventsAfter.mp he).1, (mem_eventsAfter.mp he).2.1⟩) hcursor io.sends
    exact .read hjoined rfl hfollows hunjoined rfl

theorem Session.receiveEvent_reacted {room : Uuid} {after : Int} {event : RoomEvent}
    (hpos : ∀ e ∈ shared.sys.db.roomEvents.rows, 1 ≤ e.sequence)
    (hjoined : s.joinedRoom = some room)
    (hcursor : Cursor shared.sys.db room after s.lastSequence)
    (hevent : event ∈ shared.sys.db.roomEvents.rows) (hroom : event.roomId = room) :
    Reacted shared.sys.db s input (s.receiveEvent shared io event) := by
  unfold Session.receiveEvent
  split_ifs with hnext hvisible hsends hgap
  · exact .quiet rfl rfl (by simp) .refl
  · have hfollows := Follows.step hevent hroom (hcursor.eq_succ (hpos event hevent) hnext)
      (.refl _ : Follows shared.sys.db room s.actor.id _ _ _)
    rw [if_pos hvisible] at hfollows
    exact .read hjoined rfl hfollows (by simp [Frame.joinedEvents]) rfl
  · have hfollows := Follows.step hevent hroom (hcursor.eq_succ (hpos event hevent) hnext)
      (.refl _ : Follows shared.sys.db room s.actor.id _ _ _)
    rw [if_neg hvisible] at hfollows
    exact .read hjoined rfl hfollows (by simp) rfl
  · rw [hjoined]
    exact s.recover_reacted hpos hjoined hcursor
  · exact .quiet rfl rfl (by simp) .refl

theorem Session.join_reacted {join : Join} {fallbackId : Option String} :
    Reacted shared.sys.db s (.message (.ok (.join join)) fallbackId) (s.join shared io join) := by
  unfold Session.join
  split_ifs with hother hread hroster
  · exact reply_quiet rfl rfl .refl
  · exact reply_quiet rfl rfl .refl
  · exact reply_quiet rfl rfl .refl
  · cases hsends : io.sends with
    | zero => exact .lost rfl (by simp [reply, hsends]) (by simp [reply, hsends]) rfl
    | succ n => exact .joined rfl rfl (reply_frames hsends) rfl

theorem Session.mutate_reacted {room : Uuid} {request : ValidatedRequest} :
    Reacted shared.sys.db s input (s.mutate env shared io room request) := by
  have hlog := ((process_quiet env s.actor request (shared.presence room) io.conversationsEnabled
    io.txNow io.fresh).runTx Quiet.refl shared.sys.db).log
  unfold Session.mutate
  cases hresult : (process env s.actor request (shared.presence room) io.conversationsEnabled
    io.txNow io.fresh).runTx shared.sys.db with
  | mk result db =>
      rw [hresult] at hlog
      cases result with
      | error error => exact reply_quiet rfl rfl hlog
      | ok processed =>
          simp only
          split_ifs
          · refine .of_frames rfl (fun frame hframe => ?_) hlog
            obtain ⟨e, -, rfl⟩ := List.mem_map.mp (List.mem_of_mem_take hframe)
            exact ⟨rfl, rfl⟩
          · exact .quiet rfl rfl (by simp) hlog

/-- Every reaction of a session whose cursor is in order is one of these. -/
theorem Session.reacted {after : Int}
    (hpos : ∀ e ∈ shared.sys.db.roomEvents.rows, 1 ≤ e.sequence)
    (hreceiver : s.receiver = s.joinedRoom)
    (hcursor : ∀ room, s.joinedRoom = some room → Cursor shared.sys.db room after s.lastSequence)
    (hread : s.canRead shared.sys.db input = true) :
    Reacted shared.sys.db s input (s.react env shared io input) := by
  have hquiet : ∀ goesOn, Reacted shared.sys.db s input
      { shared := shared, session := s, goesOn := goesOn } :=
    fun _ => .quiet rfl rfl (by simp) .refl
  have hended : ∀ frame : Frame, frame.liveEvent = none → frame.joinedEvents = none →
      Reacted shared.sys.db s input { reply shared s io frame with goesOn := false } := by
    intro frame hlive hjoined
    exact .of_frames rfl (fun _ hx => (eq_of_mem_take hx).symm ▸ ⟨hlive, hjoined⟩) .refl
  cases input with
  | message request fallbackId =>
      simp only [Session.react, Session.handleMessage]
      split_ifs
      · exact hended _ rfl rfl
      · cases request with
        | error error => exact reply_quiet rfl rfl .refl
        | ok request =>
            cases request with
            | join join => exact s.join_reacted
            | sessionAuthenticate _ => exact reply_quiet rfl rfl .refl
            | _ =>
                simp only [ValidatedRequest.roomId]
                split_ifs
                · exact reply_quiet rfl rfl .refl
                · exact s.mutate_reacted
  | ignored => exact hquiet true
  | closed => exact hquiet false
  | expired => exact hended _ rfl rfl
  | event event =>
      simp only [Session.canRead, Bool.and_eq_true, decide_eq_true_eq, List.contains_iff_mem]
        at hread
      obtain ⟨⟨-, hroom⟩, hevent⟩ := hread
      have hjoined : s.joinedRoom = some event.roomId := hreceiver.symm.trans hroom
      exact s.receiveEvent_reacted hpos hjoined (hcursor _ hjoined) hevent rfl
  | participants participants excludeActorId =>
      simp only [Session.react]
      split_ifs
      · exact hquiet true
      · cases s.joinedRoom with
        | none => exact hquiet false
        | some room => exact reply_quiet rfl rfl .refl
  | lagged =>
      simp only [Session.react]
      cases hjoined : s.joinedRoom with
      | none => exact hquiet true
      | some room => exact s.recover_reacted hpos hjoined (hcursor room hjoined)

end React

/-! ### What a client has been sent -/

/-- The room events a client was sent since it last joined: the room, the
cursor it joined with, and the events. -/
structure Stream where
  room : Uuid
  after : Int
  events : List RoomEvent

/-- One more reaction: the response to a join begins anew, and an event frame
adds to what came before. -/
def Stream.read (stream : Option Stream) (entry : Input × List Frame) : Option Stream :=
  match entry.1, entry.2.findSome? Frame.joinedEvents with
  | .message (.ok (.join join)) _, some events => some ⟨join.roomId, join.cursor, events⟩
  | _, _ => stream.map fun stream =>
      { stream with events := stream.events ++ entry.2.filterMap Frame.liveEvent }

/-- The stream holds what the session's actor may see of the log up to `last`. -/
structure Exact (db : Db) (actor : Uuid) (stream : Stream) (last : Int) : Prop where
  cursor : Cursor db stream.room stream.after last
  events : stream.events = visibleEvents db stream.room stream.after last actor

/-- The session and what its client was sent: while the session runs, the
stream is exact up to the session's cursor. -/
def InStep (db : Db) (s : Session) : Option Stream → Prop
  | none => s.ended = false → s.joinedRoom = none ∧ s.receiver = none
  | some stream => ∃ last, Exact db s.actor.id stream last ∧
      (s.ended = false → last = s.lastSequence ∧ s.joinedRoom = some stream.room ∧
        s.receiver = some stream.room)

section InStep

variable {db db' : Db} {s : Session} {stream : Option Stream}

theorem Stream.read_of_unjoined {input : Input} {frames : List Frame}
    (h : ∀ frame ∈ frames, frame.joinedEvents = none) :
    Stream.read stream (input, frames) = stream.map fun stream =>
      { stream with events := stream.events ++ frames.filterMap Frame.liveEvent } := by
  have hnone : frames.findSome? Frame.joinedEvents = none := List.findSome?_eq_none_iff.mpr h
  unfold Stream.read
  split
  · rename_i hsome
    rw [hnone] at hsome
    cases hsome
  · rfl

theorem Exact.later {actor : Uuid} {stream : Stream} {last : Int}
    (h : Exact db actor stream last) (hlog : LogExtends db db') : Exact db' actor stream last :=
  ⟨h.cursor.later hlog, by rw [h.cursor.visibleEvents_eq hlog, h.events]⟩

/-- The log growing beyond the cursor changes nothing for the session. -/
theorem InStep.later (h : InStep db s stream) (hlog : LogExtends db db') :
    InStep db' s stream := by
  cases stream with
  | none => exact h
  | some stream =>
      obtain ⟨last, hexact, hrunning⟩ := h
      exact ⟨last, hexact.later hlog, hrunning⟩

/-- Leaving the room keeps what was sent. -/
theorem InStep.end (h : InStep db s stream) :
    InStep db { s with joinedRoom := none, receiver := none, ended := true } stream := by
  cases stream with
  | none => exact fun hended => by cases hended
  | some stream =>
      obtain ⟨last, hexact, -⟩ := h
      exact ⟨last, hexact, fun hended => by cases hended⟩

theorem InStep.finish {r : Reaction} (h : InStep db r.session stream) :
    InStep db r.finish.session stream := by
  unfold Reaction.finish
  split
  · exact h
  · exact h.end

theorem Join.cursor_range (join : Join) : -2 ^ 63 ≤ join.cursor ∧ join.cursor < 2 ^ 63 := by
  unfold Join.cursor
  cases join.afterSequence with
  | none => simp
  | some n => exact ⟨n.lower, n.upper⟩

/-- The stream that a join begins. -/
theorem Exact.of_join (db : Db) (actor : Uuid) (join : Join) :
    Exact db actor
      ⟨join.roomId, join.cursor,
        (eventsAfter db join.roomId join.cursor).filter (eventVisibleTo · actor)⟩
      (((eventsAfter db join.roomId join.cursor).getLast?.map (·.sequence)).getD
        join.cursor) := by
  obtain ⟨hlower, hupper⟩ := join.cursor_range
  refine ⟨⟨hlower, hupper, ?_⟩, (visibleEvents_getLast ..).symm⟩
  cases hlast : (eventsAfter db join.roomId join.cursor).getLast? with
  | none => exact .inl rfl
  | some e =>
      obtain ⟨he, hroom, hlt⟩ := mem_eventsAfter.mp (List.mem_of_getLast? hlast)
      exact .inr ⟨hlt, e, he, hroom, rfl⟩

/-- Every reaction keeps a running session in step with its client. -/
theorem Reacted.inStep {input : Input} {r : Reaction} (hr : Reacted db s input r)
    (h : InStep db s stream) (hrunning : s.ended = false) :
    LogExtends db r.shared.sys.db ∧
      InStep r.shared.sys.db r.finish.session (Stream.read stream (input, r.frames)) := by
  cases hr with
  | quiet session live unjoined log =>
      refine ⟨log, ?_⟩
      have hsame : Stream.read stream (input, r.frames) = stream := by
        rw [Stream.read_of_unjoined unjoined, live]
        cases stream <;> simp
      rw [hsame]
      refine InStep.finish ?_
      rw [session]
      exact h.later log
  | @read room last joinedRoom session follows unjoined same =>
      rw [same, Stream.read_of_unjoined unjoined]
      refine ⟨.refl, InStep.finish ?_⟩
      rw [session]
      cases stream with
      | none =>
          rw [(h hrunning).1] at joinedRoom
          cases joinedRoom
      | some stream =>
          obtain ⟨now, hexact, hlive⟩ := h
          obtain ⟨rfl, hjoined, hreceiver⟩ := hlive hrunning
          obtain rfl : stream.room = room := Option.some.inj (hjoined.symm.trans joinedRoom)
          obtain ⟨hcursor, hvisible⟩ := follows.visibleEvents_eq hexact.cursor
          refine ⟨last, ⟨hcursor, ?_⟩, fun _ => ⟨rfl, hjoined, hreceiver⟩⟩
          rw [hvisible, ← hexact.events]
  | @joined join fallbackId participants input_eq session frames same =>
      rw [same, input_eq, frames]
      refine ⟨.refl, InStep.finish ?_⟩
      rw [session]
      exact ⟨_, Exact.of_join db s.actor.id join, fun _ => ⟨rfl, rfl, rfl⟩⟩
  | lost actor frames ended same =>
      have hsame : Stream.read stream (input, r.frames) = stream := by
        rw [frames, Stream.read_of_unjoined (by simp)]
        cases stream <;> simp
      rw [same, hsame]
      refine ⟨.refl, ?_⟩
      -- the session is over, so its cursor no longer counts
      have hended : r.finish.session.ended = true := by simp [Reaction.finish, ended]
      have hactor : r.finish.session.actor = s.actor := by simp [Reaction.finish, ended, actor]
      cases stream with
      | none => exact fun hfalse => absurd hended (by simp [hfalse])
      | some stream =>
          obtain ⟨last, hexact, -⟩ := h
          exact ⟨last, hactor ▸ hexact, fun hfalse => absurd hended (by simp [hfalse])⟩

theorem Session.running_of_canRead {input : Input} (h : s.canRead db input = true) :
    s.ended = false := by
  unfold Session.canRead at h
  split at h <;> simp_all

/-- One reaction of a session. -/
theorem InStep.react {shared : Shared} (env : Env) (io : Io) {input : Input}
    (hpos : ∀ e ∈ shared.sys.db.roomEvents.rows, 1 ≤ e.sequence)
    (h : InStep shared.sys.db s stream) (hread : s.canRead shared.sys.db input = true) :
    LogExtends shared.sys.db (s.react env shared io input).shared.sys.db ∧
      InStep (s.react env shared io input).shared.sys.db
        (s.react env shared io input).finish.session
        (Stream.read stream (input, (s.react env shared io input).frames)) := by
  have hrunning := Session.running_of_canRead hread
  have hready : s.receiver = s.joinedRoom ∧ ∃ after, ∀ room, s.joinedRoom = some room →
      Cursor shared.sys.db room after s.lastSequence := by
    cases stream with
    | none =>
        obtain ⟨hjoined, hreceiver⟩ := h hrunning
        rw [hjoined, hreceiver]
        exact ⟨rfl, 0, fun room hroom => by cases hroom⟩
    | some stream =>
        obtain ⟨last, hexact, hlive⟩ := h
        obtain ⟨rfl, hjoined, hreceiver⟩ := hlive hrunning
        rw [hjoined, hreceiver]
        refine ⟨rfl, stream.after, fun room hroom => ?_⟩
        rw [← Option.some.inj hroom]
        exact hexact.cursor
  obtain ⟨hreceiver, after, hcursor⟩ := hready
  have hreacted : Reacted shared.sys.db s input (s.react env shared io input) :=
    s.reacted hpos hreceiver hcursor hread
  exact hreacted.inStep h hrunning

end InStep

/-! ### Runs -/

/-- What a step has a session react to, and what the session sends. -/
def sessionEntries (env : Env) (h : Hub) (op : HubOp) : List (Nat × Input × List Frame) :=
  match op with
  | .input index input _ => [(index, input, (hub env).out h op)]
  | _ => []

/-- What the client of one session was sent, from the entries of all. -/
def streamOf (entries : List (Nat × Input × List Frame)) (index : Nat) : Option Stream :=
  entries.foldl (fun stream entry => if entry.1 = index then Stream.read stream entry.2 else stream)
    none

/-- Every session is in step with its client. -/
structure HubInStep (h : Hub) (entries : List (Nat × Input × List Frame)) : Prop where
  log : LogExtends {} h.shared.sys.db
  sessions : ∀ index s, h.sessions[index]? = some s →
    InStep h.shared.sys.db s (streamOf entries index)
  unknown : ∀ index, h.sessions[index]? = none → streamOf entries index = none

section HubInStep

variable {env : Env} {h : Hub} {entries : List (Nat × Input × List Frame)}

theorem streamOf_append_of_ne {index other : Nat} {entry : Input × List Frame}
    (hne : other ≠ index) : streamOf (entries ++ [(other, entry)]) index =
      streamOf entries index := by
  simp [streamOf, hne]

theorem streamOf_append_self {index : Nat} {entry : Input × List Frame} :
    streamOf (entries ++ [(index, entry)]) index = Stream.read (streamOf entries index) entry := by
  simp [streamOf]

theorem Stream.read_nil {stream : Option Stream} {input : Input} :
    Stream.read stream (input, []) = stream := by
  rw [Stream.read_of_unjoined (by simp)]
  cases stream <;> simp

theorem appendEvent_quiet (env : Env) (eventId : Uuid) (event : NewEvent) :
    (appendEvent env eventId event).Keeps Quiet :=
  .bind Quiet.trans (.acquire Quiet.refl _) fun _ =>
    .bind Quiet.trans (appendEventInTransaction_quiet env eventId event) fun _ =>
      .pure Quiet.refl _

theorem HubInStep.init : HubInStep (hub env).init [] where
  log := .refl
  sessions := by simp [hub]
  unknown := fun _ _ => rfl

/-- A step of somebody else. -/
theorem HubInStep.grow (hin : HubInStep h entries) {shared : Shared}
    (hlog : LogExtends h.shared.sys.db shared.sys.db) :
    HubInStep { h with shared := shared } entries where
  log := hin.log.trans hlog
  sessions := fun index s hs => (hin.sessions index s hs).later hlog
  unknown := hin.unknown

theorem HubInStep.connect (hin : HubInStep h entries) (actor : Actor) :
    HubInStep { h with sessions := h.sessions ++ [{ actor := actor }] } entries where
  log := hin.log
  sessions := by
    intro index s hs
    rw [List.getElem?_append] at hs
    split_ifs at hs with hindex
    · exact hin.sessions index s hs
    · rw [hin.unknown index (List.getElem?_eq_none (by omega))]
      obtain rfl : s = { actor := actor } :=
        List.mem_singleton.mp (List.mem_of_getElem? hs)
      exact fun _ => ⟨rfl, rfl⟩
  unknown := by
    intro index hnone
    refine hin.unknown index (List.getElem?_eq_none ?_)
    have := List.getElem?_eq_none_iff.mp hnone
    simp only [List.length_append, List.length_singleton] at this
    omega

/-- An input that no session reads. -/
theorem HubInStep.skip (hin : HubInStep h entries) (index : Nat) (input : Input) :
    HubInStep h (entries ++ [(index, input, [])]) := by
  have hsame : ∀ other, streamOf (entries ++ [(index, input, [])]) other =
      streamOf entries other := by
    intro other
    by_cases hindex : index = other
    · rw [hindex, streamOf_append_self, Stream.read_nil]
    · exact streamOf_append_of_ne hindex
  refine ⟨hin.log, fun other s hs => ?_, fun other hnone => ?_⟩
  · rw [hsame]
    exact hin.sessions other s hs
  · rw [hsame]
    exact hin.unknown other hnone

theorem HubInStep.react (hin : HubInStep h entries) {index : Nat} {s : Session} {input : Input}
    (io : Io) (hs : h.sessions[index]? = some s)
    (hread : s.canRead h.shared.sys.db input = true) :
    HubInStep
      { shared := (s.react env h.shared io input).finish.shared
        sessions := h.sessions.set index (s.react env h.shared io input).finish.session }
      (entries ++ [(index, input, (s.react env h.shared io input).finish.frames)]) := by
  have hpos : ∀ e ∈ h.shared.sys.db.roomEvents.rows, 1 ≤ e.sequence :=
    fun e he => (SeqLog.Numbered.of_extends SeqLog.Numbered.nil hin.log).pos he
  obtain ⟨hlog, hstep⟩ := (hin.sessions index s hs).react env io hpos hread
  refine ⟨?_, fun other t ht => ?_, fun other hnone => ?_⟩
  · rw [Reaction.finish_sys]
    exact hin.log.trans hlog
  · rw [Reaction.finish_sys]
    by_cases hindex : index = other
    · subst hindex
      rw [streamOf_append_self, Reaction.finish_frames]
      obtain ⟨hlt, -⟩ := List.getElem?_eq_some_iff.mp hs
      rw [List.getElem?_set_self hlt] at ht
      cases ht
      exact hstep
    · rw [streamOf_append_of_ne hindex]
      rw [List.getElem?_set_ne hindex] at ht
      exact (hin.sessions other t ht).later hlog
  · have hother : index ≠ other := by
      rintro rfl
      obtain ⟨hlt, -⟩ := List.getElem?_eq_some_iff.mp hs
      rw [List.getElem?_set_self hlt] at hnone
      cases hnone
    rw [streamOf_append_of_ne hother]
    rw [List.getElem?_set_ne hother] at hnone
    exact hin.unknown other hnone

theorem HubInStep.step (hin : HubInStep h entries) (op : HubOp) :
    HubInStep ((hub env).next h op) (entries ++ sessionEntries env h op) := by
  cases op with
  | call op =>
      simp only [sessionEntries, List.append_nil]
      exact hin.grow (gateway_effect h.shared.sys op).log
  | append eventId event =>
      simp only [sessionEntries, List.append_nil]
      exact hin.grow ((appendEvent_quiet env eventId event).runTx Quiet.refl _).log
  | connect actor =>
      simp only [sessionEntries, List.append_nil]
      exact hin.connect actor
  | input index input io =>
      simp only [sessionEntries, Machine.next, Machine.out, hub, hubStep]
      cases hs : h.sessions[index]? with
      | none => exact hin.skip index input
      | some s =>
          simp only
          split_ifs with hread
          · exact hin.react io hs hread
          · exact hin.skip index input

end HubInStep

theorem hub_inStep (env : Env) (ops : List HubOp) :
    HubInStep ((hub env).run ops)
      ((hub env).collect (sessionEntries env) (hub env).init ops) :=
  Machine.collect_invariant (P := HubInStep) HubInStep.init (fun _ _ op h => h.step op) ops

/-- What the client of a session was sent in a run, since it last joined. -/
def received (env : Env) (ops : List HubOp) (index : Nat) : Option Stream :=
  streamOf ((hub env).collect (sessionEntries env) (hub env).init ops) index

/-- In a run, the clients of the sessions have what they may see of the log up
to the cursors, in order. -/
structure NothingMissed (env : Env) (ops : List HubOp) : Prop where
  running : ∀ index s stream, ((hub env).run ops).sessions[index]? = some s →
    received env ops index = some stream → s.ended = false →
    s.joinedRoom = some stream.room ∧
      stream.events = visibleEvents ((hub env).run ops).shared.sys.db stream.room stream.after
        s.lastSequence s.actor.id
  ended : ∀ index s stream, ((hub env).run ops).sessions[index]? = some s →
    received env ops index = some stream → ∃ last,
      stream.events = visibleEvents ((hub env).run ops).shared.sys.db stream.room stream.after last
        s.actor.id
  order : ∀ index stream, received env ops index = some stream →
    Ascending RoomEvent.sequence stream.events

theorem session_misses_nothing (env : Env) (ops : List HubOp) : NothingMissed env ops := by
  have hin := hub_inStep env ops
  have hexact : ∀ index s stream, ((hub env).run ops).sessions[index]? = some s →
      received env ops index = some stream →
      InStep ((hub env).run ops).shared.sys.db s (some stream) := by
    intro index s stream hs hstream
    rw [← hstream]
    exact hin.sessions index s hs
  refine ⟨fun index s stream hs hstream hrunning => ?_, fun index s stream hs hstream => ?_,
    fun index stream hstream => ?_⟩
  · obtain ⟨last, hexact, hlive⟩ := hexact index s stream hs hstream
    obtain ⟨rfl, hjoined, -⟩ := hlive hrunning
    exact ⟨hjoined, hexact.events⟩
  · obtain ⟨last, hexact, -⟩ := hexact index s stream hs hstream
    exact ⟨last, hexact.events⟩
  · cases hs : ((hub env).run ops).sessions[index]? with
    | none =>
        have hnone : received env ops index = none := hin.unknown index hs
        rw [hstream] at hnone
        cases hnone
    | some s =>
        obtain ⟨last, hexact, -⟩ := hexact index s stream hs hstream
        rw [hexact.events]
        exact visibleEvents_ascending ..

end RoomGateway
