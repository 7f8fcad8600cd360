import RoomGateway.Model.JoinHandler
import RoomGateway.Spec.Rosters

/-!
Who is online. The connections of an actor to a room are counted where sessions
join and leave, and at every wait in between the count is the number of the
actor's sessions that are there. A step of a session changes the count by as much
as it changes whether the session is there.
-/

namespace RoomGateway

open Keyed

/-! ### Counting connections -/

section Connections

variable {presence : Presence} {room actor : Uuid}

/-- The connections of an actor to a room. -/
def connections (presence : Presence) (room actor : Uuid) : Nat :=
  ((at? ParticipantPresence.id (presence room) actor).map (·.connections)).getD 0

theorem at?_map_of_key {α κ : Type} [DecidableEq κ] {key : α → κ} {f : α → α}
    (h : ∀ a, key (f a) = key a) (l : List α) (k : κ) :
    at? key (l.map f) k = (at? key l k).map f := by
  rw [at?, List.find?_map, at?]
  congr 2
  funext a
  simp [h]

/-- The entries with one for the actor. -/
theorem at?_entries (entries : List ParticipantPresence) (new : ParticipantPresence)
    (actor : Uuid) :
    at? ParticipantPresence.id
      (if entries.any (·.id = new.id) then entries else entries ++ [new]) actor =
      (at? ParticipantPresence.id entries actor).or
        (if actor = new.id then some new else none) := by
  split_ifs with hany hactor hactor
  · obtain ⟨p, hp, hid⟩ := List.any_eq_true.mp hany
    cases hfound : at? ParticipantPresence.id entries actor with
    | none =>
        exact absurd ((of_decide_eq_true hid).trans hactor.symm) (at?_eq_none_iff.mp hfound p hp)
    | some found => rfl
  · rw [Option.or_none]
  · rw [at?_append]
    simp [at?, hactor]
  · rw [at?_append]
    simp [at?, Ne.symm hactor]

theorem connections_register (presence : Presence) (room : Uuid) (joining : Actor)
    (other actor : Uuid) :
    connections (presence.registerParticipant room joining) other actor =
      connections presence other actor + if other = room ∧ actor = joining.id then 1 else 0 := by
  unfold connections Presence.registerParticipant
  by_cases hroom : other = room
  · subst hroom
    have hentries := at?_entries (presence other)
      ⟨joining.id, joining.role, joining.displayName, 0⟩ actor
    dsimp only at hentries ⊢
    rw [Function.update_self, at?_map_of_key (by intro p; split_ifs <;> rfl), hentries]
    by_cases hactor : actor = joining.id
    · cases hfound : at? ParticipantPresence.id (presence other) actor with
      | none => simp [hactor]
      | some p =>
          have hid := (mem_of_at? hfound).2
          simp [hid, hactor]
    · cases hfound : at? ParticipantPresence.id (presence other) actor with
      | none => simp [hactor]
      | some p =>
          have hid := (mem_of_at? hfound).2
          simp [hid, hactor]
  · rw [Function.update_of_ne hroom, if_neg (fun h => hroom h.1), Nat.add_zero]

theorem connections_unregister (presence : Presence) (room leaving other actor : Uuid) :
    connections (presence.unregisterParticipant room leaving) other actor =
      connections presence other actor - if other = room ∧ actor = leaving then 1 else 0 := by
  unfold connections Presence.unregisterParticipant
  by_cases hroom : other = room
  · subst hroom
    rw [Function.update_self, at?_map_of_key (by intro p; split_ifs <;> rfl)]
    cases hfound : at? ParticipantPresence.id (presence other) actor with
    | none => simp
    | some p =>
        have hid := (mem_of_at? hfound).2
        by_cases hactor : actor = leaving
        · simp only [Option.map_some, Option.getD_some, hid, hactor, if_true, and_self]
          split_ifs <;> omega
        · simp [hid, hactor]
  · rw [Function.update_of_ne hroom, if_neg (fun h => hroom h.1), Nat.sub_zero]

/-- Every actor has one entry in a room. -/
def Entered (presence : Presence) : Prop := ∀ room, ((presence room).map (·.id)).Nodup

theorem Entered.update (h : Entered presence) (room : Uuid) {entries : List ParticipantPresence}
    (hentries : (entries.map (·.id)).Nodup) : Entered (Function.update presence room entries) := by
  intro other
  by_cases hroom : other = room
  · rw [hroom, Function.update_self]
    exact hentries
  · rw [Function.update_of_ne hroom]
    exact h other

theorem map_id_of_key {f : ParticipantPresence → ParticipantPresence} (hf : ∀ p, (f p).id = p.id)
    (entries : List ParticipantPresence) :
    (entries.map f).map (·.id) = entries.map (·.id) := by
  rw [List.map_map]
  exact List.map_congr_left fun p _ => hf p

theorem Entered.register (h : Entered presence) (room : Uuid) (joining : Actor) :
    Entered (presence.registerParticipant room joining) := by
  refine h.update room ?_
  rw [map_id_of_key (by intro p; split_ifs <;> rfl)]
  split_ifs with hany
  · exact h room
  · rw [List.map_append, List.nodup_append]
    refine ⟨h room, List.nodup_singleton _, fun id hid other hother heq => hany ?_⟩
    obtain ⟨p, hp, rfl⟩ := List.mem_map.mp hid
    exact List.any_eq_true.mpr ⟨p, hp, decide_eq_true (heq.trans (List.mem_singleton.mp hother))⟩

theorem Entered.unregister (h : Entered presence) (room leaving : Uuid) :
    Entered (presence.unregisterParticipant room leaving) := by
  refine h.update room ?_
  rw [map_id_of_key (by intro p; split_ifs <;> rfl)]
  exact h room

end Connections

/-! ### One session -/

namespace Waiting

variable {w : Waiting} {presence : Presence}

/-- The session is in the room: it has joined it, or has registered and is about
to. -/
def inRoom (w : Waiting) (room : Uuid) : Bool :=
  match w.phase with
  | .snapshotting join true _ => join.roomId = room
  | _ => w.session.joinedRoom = some room

/-- It is a session of the actor in the room. -/
def counted (room actor : Uuid) (w : Waiting) : Bool := w.session.actor.id = actor && w.inRoom room

/-- What a session that waits knows of its room. -/
def Settled (w : Waiting) : Prop :=
  match w.phase with
  | .loop | .sending => True
  | .replaying join => ∀ room ∈ w.session.joinedRoom, room = join.roomId
  | .snapshotting join isNewJoin _ =>
      if isNewJoin then w.session.joinedRoom = none else w.session.joinedRoom = some join.roomId

/-- A step that takes a session and the counts from one state to another. -/
structure Balanced (presence presence' : Presence) (w w' : Waiting) : Prop where
  settled : w'.Settled
  entered : Entered presence → Entered presence'
  balance : ∀ room actor,
    connections presence' room actor + (w.counted room actor).toNat =
      connections presence room actor + (w'.counted room actor).toNat

/-- The counts stay as they are, and so does where the session is. -/
theorem Balanced.still {w' : Waiting} (hsettled : w'.Settled)
    (hactor : w'.session.actor = w.session.actor) (hroom : ∀ room, w'.inRoom room = w.inRoom room) :
    Balanced presence presence w w' := by
  refine ⟨hsettled, id, fun room actor => ?_⟩
  rw [counted, counted, hactor, hroom]

/-- The session comes into a room. -/
theorem Balanced.enter {w' : Waiting} (room : Uuid) (hsettled : w'.Settled)
    (hactor : w'.session.actor = w.session.actor) (hbefore : ∀ other, w.inRoom other = false)
    (hafter : ∀ other, w'.inRoom other = decide (other = room)) :
    Balanced presence (presence.registerParticipant room w.session.actor) w w' := by
  refine ⟨hsettled, fun h => h.register _ _, fun other actor => ?_⟩
  rw [connections_register, counted, counted, hactor, hbefore, hafter, Bool.and_false]
  by_cases hother : other = room
  · by_cases hid : actor = w.session.actor.id
    · simp [hother, hid]
    · simp [hother, hid, Ne.symm hid]
  · simp [hother]

/-- The session leaves a room. -/
theorem Balanced.leave {w' : Waiting} (room : Uuid) (hsettled : w'.Settled)
    (hbefore : ∀ other, w.inRoom other = decide (other = room))
    (hafter : ∀ other, w'.inRoom other = false)
    (hpresent : 0 < connections presence room w.session.actor.id) :
    Balanced presence (presence.unregisterParticipant room w.session.actor.id) w w' := by
  refine ⟨hsettled, fun h => h.unregister _ _, fun other actor => ?_⟩
  rw [connections_unregister, counted, counted, hafter, hbefore, Bool.and_false]
  by_cases hother : other = room
  · by_cases hid : actor = w.session.actor.id
    · subst hother hid
      simp
      omega
    · simp [hother, hid, Ne.symm hid]
  · simp [hother]

/-- A session that ends is in no room any more. -/
theorem balanced_finish (hroom : ∀ room, w.inRoom room = decide (w.session.joinedRoom = some room))
    (hpresent : ∀ room, w.inRoom room = true → 0 < connections presence room w.session.actor.id) :
    Balanced presence (w.finish presence).1 w (w.finish presence).2 := by
  unfold finish cleanupPresence
  cases hjoined : w.session.joinedRoom with
  | none =>
      refine .still trivial rfl fun room => ?_
      rw [hroom, hjoined]
      simp [inRoom]
  | some room =>
      refine .leave room trivial (fun other => ?_) (fun other => ?_) (hpresent room ?_)
      · rw [hroom, hjoined]
        simp [eq_comm]
      · simp [inRoom]
      · rw [hroom, hjoined]
        simp

theorem inRoom_of_phase (h : ∀ join events, w.phase ≠ .snapshotting join true events)
    (room : Uuid) : w.inRoom room = decide (w.session.joinedRoom = some room) := by
  unfold inRoom
  split
  · next hphase => exact absurd hphase (h _ _)
  · rfl

theorem balanced_advance (hsettled : w.Settled)
    (hpresent : ∀ room, w.inRoom room = true → 0 < connections presence room w.session.actor.id)
    (wake : Wake) :
    Balanced presence (w.advance presence wake).1 w (w.advance presence wake).2 := by
  obtain ⟨s, phase⟩ := w
  cases phase with
  | loop =>
      have hroom := inRoom_of_phase (w := ⟨s, .loop⟩) (by simp)
      cases wake with
      | join join =>
          dsimp only [advance]
          split_ifs with hother
          · exact .still trivial rfl fun _ => rfl
          · refine .still ?_ rfl fun _ => rfl
            intro room hjoined
            rw [Option.mem_def] at hjoined
            rw [hjoined] at hother
            simpa using hother
      | turned lastSequence goesOn =>
          cases goesOn with
          | true => exact .still trivial rfl fun _ => rfl
          | false =>
              have h := balanced_finish (w := ⟨{ s with lastSequence := lastSequence }, .loop⟩)
                hroom hpresent
              exact ⟨h.settled, h.entered, h.balance⟩
      | _ => exact .still hsettled rfl fun _ => rfl
  | replaying join =>
      cases wake with
      | replayed result =>
          cases result with
          | error e => exact .still trivial rfl fun _ => rfl
          | ok events =>
              dsimp only [advance]
              cases hjoined : s.joinedRoom with
              | none =>
                  change Balanced presence (presence.registerParticipant join.roomId s.actor)
                    ⟨s, .replaying join⟩ ⟨s, .snapshotting join true events⟩
                  refine Balanced.enter (w := ⟨s, .replaying join⟩) join.roomId ?_ rfl
                    (fun other => ?_) fun other => ?_
                  · simpa [Settled] using hjoined
                  · simp [inRoom, hjoined]
                  · simp [inRoom, eq_comm]
              | some room =>
                  have hsame : room = join.roomId := hsettled room hjoined
                  refine .still ?_ rfl fun other => ?_
                  · simpa [Settled, hsame] using hjoined
                  · simp [inRoom, hjoined]
      | _ => exact .still hsettled rfl fun _ => rfl
  | snapshotting join isNewJoin events =>
      cases wake with
      | snapshotted ok =>
          cases ok with
          | true =>
              refine .still trivial rfl fun other => ?_
              cases isNewJoin with
              | true => simp [advance, inRoom]
              | false =>
                  have hjoined : s.joinedRoom = some join.roomId := by
                    simpa [Settled] using hsettled
                  simp [advance, inRoom, hjoined]
          | false =>
              dsimp only [advance]
              cases isNewJoin with
              | true =>
                  have hjoined : s.joinedRoom = none := by simpa [Settled] using hsettled
                  change Balanced presence (presence.unregisterParticipant join.roomId s.actor.id)
                    ⟨s, .snapshotting join true events⟩ ⟨s, .sending⟩
                  refine Balanced.leave (w := ⟨s, .snapshotting join true events⟩) join.roomId
                    trivial (fun other => ?_) (fun other => ?_) (hpresent join.roomId ?_)
                  · simp [inRoom, eq_comm]
                  · simp [inRoom, hjoined]
                  · simp [inRoom]
              | false => exact .still trivial rfl fun _ => rfl
      | _ => exact .still hsettled rfl fun _ => rfl
  | sending =>
      have hroom := inRoom_of_phase (w := ⟨s, .sending⟩) (by simp)
      cases wake with
      | sent ok =>
          cases ok with
          | true => exact .still trivial rfl fun _ => rfl
          | false => exact balanced_finish hroom hpresent
      | _ => exact .still hsettled rfl fun _ => rfl

end Waiting

/-! ### All the steps at once -/

section Steps

variable (env : Env) {shared : Shared} {s : Session} {io : Io}

/-- The steps that a session makes, one after the other. -/
def Waiting.advanceAll (presence : Presence) (w : Waiting) (wakes : List Wake) :
    Presence × Waiting :=
  wakes.foldl (fun state wake => state.2.advance state.1 wake) (presence, w)

/-- What wakes a session that joins while nothing else happens. -/
def joinWakes (shared : Shared) (io : Io) (join : Join) : List Wake :=
  [.join join,
    .replayed (if io.replayOk then .ok (eventsAfter shared.sys.db join.roomId join.cursor)
      else .error .internalError),
    .snapshotted io.snapshotOk,
    .sent (decide (1 ≤ io.sends))]

/-- A reaction has the counts and the session of a state that has come to wait in
the loop. -/
def Reaction.Reaches (r : Reaction) (state : Presence × Waiting) : Prop :=
  state = (r.finish.shared.presence, ⟨r.finish.session, .loop⟩)

theorem Reaction.reaches_sent (r : Reaction) :
    r.Reaches ((⟨r.session, .sending⟩ : Waiting).advance r.shared.presence (.sent r.goesOn)) := by
  unfold Reaction.Reaches Reaction.finish Waiting.advance
  cases hgoes : r.goesOn with
  | true => rfl
  | false =>
      unfold Waiting.finish cleanupPresence
      cases hjoined : r.session.joinedRoom with
      | none => simp [← hjoined]
      | some room => simp

theorem Session.join_reaches (join : Join) :
    (s.join shared io join).Reaches
      (Waiting.advanceAll shared.presence ⟨s, .loop⟩ (joinWakes shared io join)) := by
  unfold Session.join joinWakes Waiting.advanceAll
  simp only [List.foldl_cons, List.foldl_nil]
  by_cases hother : s.joinedRoom.any (· ≠ join.roomId) = true
  · rw [if_pos hother]
    have hstep : (⟨s, .loop⟩ : Waiting).advance shared.presence (.join join) =
        (shared.presence, ⟨s, .sending⟩) := if_pos hother
    rw [hstep]
    exact Reaction.reaches_sent _
  · rw [if_neg hother]
    have hstep : (⟨s, .loop⟩ : Waiting).advance shared.presence (.join join) =
        (shared.presence, ⟨s, .replaying join⟩) := if_neg hother
    rw [hstep]
    cases hreplay : io.replayOk with
    | false => exact Reaction.reaches_sent _
    | true =>
        cases hsnapshot : io.snapshotOk with
        | false => exact Reaction.reaches_sent (reply ⟨shared.sys, _⟩ s io _)
        | true => exact Reaction.reaches_sent (reply ⟨shared.sys, _⟩ _ io _)

/-- A reaction that moves nothing but the cursor is a turn of the loop. -/
theorem Reaction.reaches_turned {r : Reaction} (hpresence : r.shared.presence = shared.presence)
    (hsession : r.session = { s with lastSequence := r.session.lastSequence }) :
    r.Reaches (Waiting.advanceAll shared.presence ⟨s, .loop⟩
      [.turned r.session.lastSequence r.goesOn]) := by
  have hsent := r.reaches_sent
  unfold Reaction.Reaches at hsent ⊢
  rw [← hsent, hpresence, hsession]
  cases r.goesOn <;> rfl

theorem Session.recover_quiet (room : Uuid) :
    (s.recover shared io room).shared = shared ∧
      (s.recover shared io room).session =
        { s with lastSequence := (s.recover shared io room).session.lastSequence } := by
  unfold Session.recover
  split_ifs <;> exact ⟨rfl, rfl⟩

theorem Session.receiveEvent_quiet (event : RoomEvent) :
    (s.receiveEvent shared io event).shared = shared ∧
      (s.receiveEvent shared io event).session =
        { s with lastSequence := (s.receiveEvent shared io event).session.lastSequence } := by
  unfold Session.receiveEvent
  split_ifs
  · exact ⟨rfl, rfl⟩
  · exact ⟨rfl, rfl⟩
  · exact ⟨rfl, rfl⟩
  · split
    · exact ⟨rfl, rfl⟩
    · exact s.recover_quiet _
  · exact ⟨rfl, rfl⟩

theorem Session.mutate_quiet (room : Uuid) (request : ValidatedRequest) :
    (s.mutate env shared io room request).shared.presence = shared.presence ∧
      (s.mutate env shared io room request).session = s := by
  unfold Session.mutate
  dsimp only
  split
  · exact ⟨rfl, rfl⟩
  · split_ifs <;> exact ⟨rfl, rfl⟩

/-- Whatever a session reacts to while nothing else happens, the same steps lead
to the same counts and the same session. -/
theorem Session.react_reaches (input : Input) : ∃ wakes,
    (s.react env shared io input).Reaches
      (Waiting.advanceAll shared.presence ⟨s, .loop⟩ wakes) := by
  cases input with
  | message request fallbackId =>
      dsimp only [Session.react, Session.handleMessage]
      split_ifs
      · exact ⟨_, Reaction.reaches_turned rfl rfl⟩
      · split
        · exact ⟨_, Reaction.reaches_turned rfl rfl⟩
        · exact ⟨_, s.join_reaches _⟩
        · split
          · exact ⟨_, Reaction.reaches_turned rfl rfl⟩
          · split_ifs
            · exact ⟨_, Reaction.reaches_turned rfl rfl⟩
            · obtain ⟨hpresence, hsession⟩ := s.mutate_quiet env _ _
              refine ⟨_, Reaction.reaches_turned hpresence ?_⟩
              rw [hsession]
  | ignored => exact ⟨_, Reaction.reaches_turned rfl rfl⟩
  | closed => exact ⟨_, Reaction.reaches_turned rfl rfl⟩
  | expired => exact ⟨_, Reaction.reaches_turned rfl rfl⟩
  | event event =>
      obtain ⟨hshared, hsession⟩ := s.receiveEvent_quiet event
      exact ⟨_, Reaction.reaches_turned (congrArg Shared.presence hshared) hsession⟩
  | participants participants excludeActorId =>
      dsimp only [Session.react]
      split_ifs
      · exact ⟨_, Reaction.reaches_turned rfl rfl⟩
      · split <;> exact ⟨_, Reaction.reaches_turned rfl rfl⟩
  | lagged =>
      dsimp only [Session.react]
      split
      · exact ⟨_, Reaction.reaches_turned rfl rfl⟩
      · obtain ⟨hshared, hsession⟩ := s.recover_quiet _
        exact ⟨_, Reaction.reaches_turned (congrArg Shared.presence hshared) hsession⟩

end Steps

/-! ### Runs -/

/-- The actor's sessions in the room. -/
def sessionsIn (lobby : Lobby) (room actor : Uuid) : Nat :=
  lobby.sessions.countP (·.counted room actor)

/-- The counts are exact. -/
structure ExactCounts (lobby : Lobby) : Prop where
  settled : ∀ w ∈ lobby.sessions, w.Settled
  entered : Entered lobby.presence
  counts : ∀ room actor, connections lobby.presence room actor = sessionsIn lobby room actor

/-- A session that is in a room is among those that are counted. -/
theorem ExactCounts.present {l : Lobby} (h : ExactCounts l) {w : Waiting} (hw : w ∈ l.sessions)
    {room : Uuid} (hroom : w.inRoom room = true) :
    0 < connections l.presence room w.session.actor.id := by
  rw [h.counts, sessionsIn, List.countP_pos_iff]
  exact ⟨w, hw, by simp [Waiting.counted, hroom]⟩

theorem ExactCounts.next {l : Lobby} (h : ExactCounts l) (op : LobbyOp) :
    ExactCounts (lobby.next l op) := by
  change ExactCounts (lobbyStep l op).1
  cases op with
  | connect actor =>
      dsimp only [lobbyStep]
      refine ⟨?_, h.entered, fun room id => ?_⟩
      · rw [List.forall_mem_append]
        exact ⟨h.settled, by simp [Waiting.Settled]⟩
      · rw [h.counts, sessionsIn, sessionsIn, List.countP_append]
        simp [Waiting.counted, Waiting.inRoom]
  | wake index wake =>
      dsimp only [lobbyStep]
      cases hget : l.sessions[index]? with
      | none => exact h
      | some w =>
          dsimp only
          split_ifs
          · exact h
          · have hmem := List.mem_of_getElem? hget
            have hbalanced := Waiting.balanced_advance (h.settled w hmem)
              (fun room hroom => h.present hmem hroom) wake
            refine ⟨fun other hother => ?_, hbalanced.entered h.entered, fun room actor => ?_⟩
            · rcases List.mem_or_eq_of_mem_set hother with hother | rfl
              · exact h.settled other hother
              · exact hbalanced.settled
            · -- the session is replaced by what it has become
              have hbalance := hbalanced.balance room actor
              obtain ⟨hindex, hat⟩ := List.getElem?_eq_some_iff.mp hget
              have hcount := h.counts room actor
              have hpositive : w.counted room actor = true →
                  0 < l.sessions.countP (·.counted room actor) :=
                fun hcounted => List.countP_pos_iff.mpr ⟨w, hmem, hcounted⟩
              rw [sessionsIn] at hcount
              rw [sessionsIn, List.countP_set hindex, hat]
              rw [hcount] at hbalance
              cases hbefore : w.counted room actor <;>
                cases hafter : ((w.advance l.presence wake).2).counted room actor <;>
                simp only [hbefore, hafter, Bool.toNat_true, Bool.toNat_false, if_true, if_false,
                  Bool.false_eq_true, forall_const] at hbalance hpositive ⊢ <;>
                omega

theorem lobby_exact (ops : List LobbyOp) : ExactCounts (lobby.run ops) := by
  have hinit : ExactCounts {} := ⟨by simp, fun _ => List.nodup_nil, fun _ _ => rfl⟩
  exact Machine.run_invariant hinit (fun _ op h => h.next op) ops

/-! ### Who is shown online -/

section Shown

variable {entries : List ParticipantPresence} {actor : Uuid}

theorem at?_present (h : (entries.map (·.id)).Nodup) (actor : Uuid) :
    at? RoomParticipant.id (entries.map presentParticipant).reverse actor =
      (at? ParticipantPresence.id entries actor).map presentParticipant := by
  have hids : ((entries.map presentParticipant).reverse.map RoomParticipant.id).Nodup := by
    rw [List.map_reverse, List.nodup_reverse, List.map_map]
    exact h
  rw [at?_perm hids (List.reverse_perm _), at?, List.find?_map]
  rfl

/-- An actor whose last entry is none of the connected ones is offline. -/
theorem online_of_recorded (h : (entries.map (·.id)).Nodup) {events : List RoomEvent}
    {p : RoomParticipant} (hp : recorded events entries actor = some p) :
    p.online = true ↔ ∃ entry, at? ParticipantPresence.id entries actor = some entry ∧
      0 < entry.connections := by
  rw [recorded, at?_present h] at hp
  cases hentry : at? ParticipantPresence.id entries actor with
  | some entry =>
      rw [hentry] at hp
      obtain rfl : presentParticipant entry = p := Option.some.inj hp
      simp [presentParticipant]
  | none =>
      rw [hentry] at hp
      obtain ⟨e, -, rfl⟩ := Option.map_eq_some_iff.mp hp
      simp [eventParticipant]

/-- What is shown of an actor other than the agents that are built in. -/
theorem mem_snapshot_iff (db : Db) (room : Uuid) (enabled : Bool)
    (hitems : actor ≠ actionItemsAgentId) (hcodex : actor ≠ codexAgentId) {p : RoomParticipant} :
    (p ∈ participantSnapshot db room entries enabled ∧ p.id = actor) ↔
      recorded (eventsAfter db room 0) entries actor = some p := by
  have hstart : at? RoomParticipant.id [actionItemsParticipant] actor = none := by
    simp [at?, actionItemsParticipant, Ne.symm hitems]
  have hgathered := at?_gathered entries [actionItemsParticipant] (eventsAfter db room 0) actor
  rw [hstart, Option.or_none] at hgathered
  have hnodup := nodup_gathered entries [actionItemsParticipant] (eventsAfter db room 0) (by simp)
  obtain ⟨shown, hperm, hids, hat⟩ : ∃ shown : List RoomParticipant,
      (participantSnapshot db room entries enabled).Perm shown ∧ (shown.map (·.id)).Nodup ∧
        at? RoomParticipant.id shown actor = recorded (eventsAfter db room 0) entries actor := by
    cases enabled with
    | false => exact ⟨_, List.perm_insertionSort _ _, hnodup, hgathered⟩
    | true =>
        refine ⟨_, List.perm_insertionSort _ _, nodup_put hnodup codexParticipant, ?_⟩
        rw [← hgathered]
        exact (at?_put _ codexParticipant actor).trans (if_neg (Ne.symm hcodex))
  rw [hperm.mem_iff, ← hat]
  constructor
  · rintro ⟨hp, rfl⟩
    exact (mem_iff_at? hids).mp hp
  · exact fun hfound => mem_of_at? hfound

theorem connections_pos_iff {presence : Presence} {room : Uuid} :
    0 < connections presence room actor ↔ ∃ entry,
      at? ParticipantPresence.id (presence room) actor = some entry ∧ 0 < entry.connections := by
  unfold connections
  cases at? ParticipantPresence.id (presence room) actor <;> simp

end Shown

/-- However the steps of any sessions follow each other, the connections of an
actor to a room are the actor's sessions there, and an actor other than the
agents that are built in is shown online exactly if there is one. -/
theorem presence_exact (ops : List LobbyOp) (room actor : Uuid) :
    connections (lobby.run ops).presence room actor = sessionsIn (lobby.run ops) room actor ∧
    ∀ (db : Db) (enabled : Bool), actor ≠ actionItemsAgentId → actor ≠ codexAgentId →
      ((∃ p ∈ participantSnapshot db room ((lobby.run ops).presence room) enabled,
          p.id = actor ∧ p.online = true) ↔
        ∃ w ∈ (lobby.run ops).sessions, w.session.actor.id = actor ∧ w.inRoom room = true) := by
  have hexact := lobby_exact ops
  refine ⟨hexact.counts room actor, fun db enabled hitems hcodex => ?_⟩
  have hsessions : (∃ w ∈ (lobby.run ops).sessions,
      w.session.actor.id = actor ∧ w.inRoom room = true) ↔
      0 < connections (lobby.run ops).presence room actor := by
    rw [hexact.counts, sessionsIn, List.countP_pos_iff]
    simp [Waiting.counted]
  rw [hsessions, connections_pos_iff]
  constructor
  · rintro ⟨p, hp, hid, honline⟩
    have hrecorded := (mem_snapshot_iff db room enabled hitems hcodex).mp ⟨hp, hid⟩
    exact (online_of_recorded (hexact.entered room) hrecorded).mp honline
  · rintro ⟨entry, hentry, hconnected⟩
    have hrecorded : recorded (eventsAfter db room 0) ((lobby.run ops).presence room) actor =
        some (presentParticipant entry) := by
      rw [recorded, at?_present (hexact.entered room), hentry]
      rfl
    obtain ⟨hp, hid⟩ := (mem_snapshot_iff db room enabled hitems hcodex).mpr hrecorded
    exact ⟨_, hp, hid, (online_of_recorded (hexact.entered room) hrecorded).mpr
      ⟨entry, hentry, hconnected⟩⟩

/-- Someone connects twice and joins twice. The first session ends, and the second
is between its registration and its answer. -/
def sampleLobbyOps : List LobbyOp :=
  let someone : Actor := ⟨7, .human, "Maya Chen", 1000⟩
  let join : Join := ⟨"1", "v1", 2, 1, 0, none⟩
  [.connect someone, .connect someone,
    .wake 0 (.join join), .wake 1 (.join join),
    .wake 0 (.replayed (.ok [])), .wake 0 (.snapshotted true), .wake 1 (.replayed (.ok [])),
    .wake 0 (.sent false)]

/-- There the actor is online, by one connection. -/
theorem presence_exact_sample :
    connections (lobby.run sampleLobbyOps).presence 1 7 = 1 ∧
      ∃ p ∈ participantSnapshot {} 1 ((lobby.run sampleLobbyOps).presence 1) true,
        p.id = 7 ∧ p.online = true := by
  obtain ⟨hcount, hshown⟩ := presence_exact sampleLobbyOps 1 7
  refine ⟨hcount.trans (by decide), ?_⟩
  refine (hshown {} true (by decide) (by decide)).mpr ?_
  decide

end RoomGateway
