import RoomGateway.Model.WebSocket
import RoomGateway.Spec.Ledger
import RoomGateway.Spec.Record

/-!
What the sessions disclose. An event reaches a client in the response to a
join, live, by a replay of the log, or as the answer to a repeated request. The
first three are filtered by `eventVisibleTo`; the last is looked up by the
request alone, whoever asks. So the one way an event reaches a client that may
not see it is that the client repeats, to the letter, a message that another
one has sent to an audience without it.
-/

namespace RoomGateway

/-! ### The filtered ways -/

/-- The room events that a frame carries. -/
def Frame.events : Frame → List RoomEvent
  | joined _ events _ => events
  | event e | duplicate e => [e]
  | participantsUpdated _ _ | error _ _ => []

/-- The actor may see every event of the frames. -/
def Discreet (actor : Uuid) (frames : List Frame) : Prop :=
  ∀ frame ∈ frames, ∀ e ∈ frame.events, eventVisibleTo e actor = true

section Discreet

variable {env : Env} {shared : Shared} {s : Session} {io : Io} {actor : Uuid}

theorem Discreet.nil : Discreet actor [] := by simp [Discreet]

theorem Discreet.cons {frame : Frame} {frames : List Frame}
    (hframe : ∀ e ∈ frame.events, eventVisibleTo e actor = true) (h : Discreet actor frames) :
    Discreet actor (frame :: frames) :=
  List.forall_mem_cons.mpr ⟨hframe, h⟩

/-- A reply, as far as the socket takes it. -/
theorem Discreet.one {frame : Frame} {sends : Nat}
    (h : ∀ e ∈ frame.events, eventVisibleTo e actor = true) :
    Discreet actor ([frame].take sends) :=
  fun x hx => Discreet.nil.cons h x (List.mem_of_mem_take hx)

theorem Discreet.blank {frame : Frame} {sends : Nat} (h : frame.events = []) :
    Discreet actor ([frame].take sends) :=
  .one (by simp [h])

theorem replayInOrder_discreet (actor : Uuid) (events : List RoomEvent) (last : Int) (sends : Nat) :
    Discreet actor (replayInOrder actor events last sends).2.1 := by
  induction events generalizing last sends with
  | nil => exact .nil
  | cons e events ih =>
      unfold replayInOrder
      split_ifs with hold hgap hvisible
      · exact ih last sends
      · exact .nil
      · cases sends with
        | zero => exact .nil
        | succ sends => exact (ih e.sequence sends).cons (by simp [Frame.events, hvisible])
      · exact ih e.sequence sends

theorem Session.recover_discreet (room : Uuid) :
    Discreet s.actor.id (s.recover shared io room).frames := by
  unfold Session.recover
  split_ifs
  · exact .nil
  · exact replayInOrder_discreet s.actor.id _ _ _

theorem Session.receiveEvent_discreet (event : RoomEvent) :
    Discreet s.actor.id (s.receiveEvent shared io event).frames := by
  unfold Session.receiveEvent
  split_ifs with hnext hvisible hsends hgap
  · exact .nil
  · exact Discreet.nil.cons (by simp [Frame.events, hvisible])
  · exact .nil
  · cases s.joinedRoom with
    | none => exact .nil
    | some room => exact s.recover_discreet room
  · exact .nil

theorem Session.join_discreet (join : Join) :
    Discreet s.actor.id (s.join shared io join).frames := by
  unfold Session.join
  split_ifs
  · exact .blank rfl
  · exact .blank rfl
  · exact .blank rfl
  · exact Discreet.one fun e he => (List.mem_filter.mp he).2

end Discreet

/-! ### The answer to a repeated request -/

/-- The message repeats a recorded one whose audience the actor is not in. -/
def exposes (env : Env) (db : Db) (actor : Uuid) (chat : ChatSend) : Bool :=
  chat.delivery = .mentioned && (findRequest db chat.roomId chat.requestId).any fun r =>
    r.requestFingerprint = (ValidatedRequest.chatSend chat).fingerprint env &&
      !(eventsById db r.eventIds).all (eventVisibleTo · actor)

section Repeated

variable {env : Env} {db : Db} {shared : Shared} {s : Session} {io : Io}

/-- The fingerprint tells the method and, of a message, the delivery. -/
theorem ValidatedRequest.fingerprint_chat {request : ValidatedRequest} {chat : ChatSend}
    (h : request.fingerprint env = (ValidatedRequest.chatSend chat).fingerprint env) :
    ∃ chat', request = .chatSend chat' ∧ chat'.delivery = chat.delivery := by
  cases request with
  | chatSend chat' =>
      refine ⟨chat', rfl, ?_⟩
      have hdelivery : chat'.delivery.asStr = chat.delivery.asStr := by
        simp_all [fingerprint, requestFingerprint]
      cases hc : chat'.delivery <;> cases hd : chat.delivery <;>
        simp_all [ChatDelivery.asStr]
  | _ => simp [fingerprint, requestFingerprint] at h

theorem process_duplicate {actor : Actor} {request : ValidatedRequest}
    {presence : List ParticipantPresence} {conversationsEnabled : Bool} {txNow : Time}
    {fresh : Nat → Uuid} {processed : ProcessedRequest}
    (h : ((process env actor request presence conversationsEnabled txNow fresh).runTx db).1 =
      .ok processed) (hduplicate : processed.duplicate = true) :
    ∃ room requestId r, request.roomId = some room ∧ request.requestId = some requestId ∧
      findRequest db room requestId = some r ∧
      r.requestFingerprint = request.fingerprint env ∧
      processed.events = eventsById db r.eventIds := by
  have hcommitted : ∀ {ending db'}, (process env actor request presence conversationsEnabled txNow
      fresh).exec db = .ok (ending, db') → ending = .rollback processed ∨
        ending = .commit (.ok processed) → ∃ room requestId r, request.roomId = some room ∧
          request.requestId = some requestId ∧ findRequest db room requestId = some r ∧
          r.requestFingerprint = request.fingerprint env ∧
          processed.events = eventsById db r.eventIds := by
    intro ending db' hexec hending
    obtain ⟨room, requestId, hroom, hrequest, ⟨r, hfound, hsame, heq⟩ | ⟨-, events, _, heq, -⟩⟩ :=
      process_ok hexec
    · rcases hending with rfl | rfl
      · cases heq
        exact ⟨room, requestId, r, hroom, hrequest, hfound, hsame, rfl⟩
      · cases heq
    · rcases hending with rfl | rfl
      · cases heq
      · cases heq
        cases hduplicate
  obtain ⟨_, hexec, -⟩ | hexec := Prog.runTx_ok h
  · exact hcommitted hexec (.inl rfl)
  · exact hcommitted hexec (.inr rfl)

theorem findRequest_mem {room requestId : Uuid} {r : RoomRequest}
    (h : findRequest db room requestId = some r) :
    r ∈ db.roomRequests.rows ∧ r.roomId = room ∧ r.requestId = requestId := by
  have hkey := List.find?_some h
  simp only [Bool.and_eq_true, decide_eq_true_eq] at hkey
  exact ⟨List.mem_of_find?_eq_some h, hkey⟩

theorem Session.mutate_discreet (hentries : Entries env shared.sys.db) {room : Uuid}
    {request : ValidatedRequest} (h : 0 < io.sends → ∀ chat, request = .chatSend chat →
      exposes env shared.sys.db s.actor.id chat = false) :
    Discreet s.actor.id (s.mutate env shared io room request).frames := by
  unfold Session.mutate
  cases hresult : (process env s.actor request (shared.presence room) io.conversationsEnabled
    io.txNow io.fresh).runTx shared.sys.db with
  | mk result db =>
      cases result with
      | error error => exact .blank rfl
      | ok processed =>
          simp only
          split_ifs with hduplicate
          · obtain ⟨room, requestId, r, hroom, hrequest, hfound, hsame, hevents⟩ :=
              process_duplicate (congrArg Prod.fst hresult) hduplicate
            obtain ⟨events, hentry⟩ := hentries r (findRequest_mem hfound).1
            intro frame hframe
            have hsends : 0 < io.sends := by
              by_contra hnone
              simp [Nat.eq_zero_of_not_pos hnone] at hframe
            obtain ⟨e, he, rfl⟩ := List.mem_map.mp (List.mem_of_mem_take hframe)
            simp only [Frame.events, List.mem_singleton, forall_eq]
            by_cases htargeted : e.targeted
            · have he' : e ∈ events := by rwa [← hentry.eventsById_eq, ← hevents]
              obtain ⟨-, chat, hdelivery, hchat⟩ := hentry.targeted e he' htargeted
              obtain ⟨chat', rfl, hdelivery'⟩ :=
                ValidatedRequest.fingerprint_chat (hsame.symm.trans hchat)
              cases hroom
              cases hrequest
              have hopen := h hsends chat' rfl
              simp only [exposes, hdelivery'.trans hdelivery, hfound, hsame, Option.any_some,
                decide_true, Bool.true_and, Bool.not_eq_false', List.all_eq_true] at hopen
              exact hopen e (hevents ▸ he)
            · exact eventVisibleTo_of_not_targeted htargeted _
          · exact .nil

/-- A repeated message that exposes the first one does so in the first frame. -/
theorem Session.mutate_exposed (hentries : Entries env shared.sys.db) {room : Uuid}
    {chat : ChatSend} (h : exposes env shared.sys.db s.actor.id chat = true)
    (hsends : 0 < io.sends) :
    ¬ Discreet s.actor.id (s.mutate env shared io room (.chatSend chat)).frames := by
  simp only [exposes, Bool.and_eq_true, Option.any_eq_true, decide_eq_true_eq,
    Bool.not_eq_true', List.all_eq_false, Bool.not_eq_true] at h
  obtain ⟨-, r, hfound, hsame, e, he, hhidden⟩ := h
  obtain ⟨events, hentry⟩ := hentries r (findRequest_mem hfound).1
  have htargeted : e.targeted := by
    by_contra hopen
    rw [eventVisibleTo_of_not_targeted hopen] at hhidden
    cases hhidden
  have hone : eventsById shared.sys.db r.eventIds = [e] := by
    rw [hentry.eventsById_eq] at he ⊢
    exact (hentry.targeted e he htargeted).1
  have hprocess : (process env s.actor (.chatSend chat) (shared.presence room)
      io.conversationsEnabled io.txNow io.fresh).runTx shared.sys.db =
        (.ok ⟨[e], true⟩, shared.sys.db) := by
    rw [process_recorded (by simp [ValidatedRequest.governed]) rfl hfound, if_pos hsame, hone]
  intro hdiscreet
  obtain ⟨n, hn⟩ := Nat.exists_eq_succ_of_ne_zero hsends.ne'
  have hframes : (s.mutate env shared io room (.chatSend chat)).frames = [.duplicate e] := by
    simp [Session.mutate, hprocess, hn]
  rw [hframes] at hdiscreet
  have hvisible := hdiscreet (.duplicate e) (by simp) e (by simp [Frame.events])
  rw [hhidden] at hvisible
  cases hvisible

/-- The session's client is about to be sent an event it may not see. -/
def Session.leaks (env : Env) (db : Db) (s : Session) (io : Io) : Input → Bool
  | .message (.ok (.chatSend chat)) _ =>
      io.now < s.actor.expiresAt && s.joinedRoom = some chat.roomId && 0 < io.sends &&
        exposes env db s.actor.id chat
  | _ => false

theorem Session.handleMessage_discreet_iff (hentries : Entries env shared.sys.db)
    (request : Except RpcError ValidatedRequest) (fallbackId : Option String) :
    Discreet s.actor.id (s.handleMessage env shared io request fallbackId).frames ↔
      s.leaks env shared.sys.db io (.message request fallbackId) = false := by
  unfold Session.handleMessage
  split_ifs with hexpired
  · refine iff_of_true (.blank rfl) ?_
    unfold Session.leaks
    split
    · simp [not_lt.mpr hexpired]
    · rfl
  · cases request with
    | error error => exact iff_of_true (.blank rfl) rfl
    | ok request =>
        cases request with
        | join join => exact iff_of_true (s.join_discreet join) rfl
        | sessionAuthenticate _ => exact iff_of_true (.blank rfl) rfl
        | chatSend chat =>
            simp only [ValidatedRequest.roomId]
            split_ifs with hjoined
            · exact iff_of_true (.blank rfl) (by simp [Session.leaks, hjoined])
            · have hjoined := not_not.mp hjoined
              have hlive := not_le.mp hexpired
              simp only [Session.leaks, hjoined, hlive, decide_true, Bool.true_and,
                Bool.and_eq_false_iff, decide_eq_false_iff_not]
              constructor
              · intro hdiscreet
                by_contra hleaks
                obtain ⟨hsends, hexposes⟩ := not_or.mp hleaks
                exact s.mutate_exposed hentries (by simpa using hexposes) (not_not.mp hsends)
                  hdiscreet
              · intro hsafe
                refine s.mutate_discreet hentries fun hsends chat' heq => ?_
                cases heq
                exact hsafe.resolve_left (not_not.mpr hsends)
        | _ =>
            simp only [ValidatedRequest.roomId]
            split_ifs
            · exact iff_of_true (.blank rfl) rfl
            · exact iff_of_true (s.mutate_discreet hentries fun _ _ h => by cases h) rfl

theorem Session.react_discreet_iff (hentries : Entries env shared.sys.db) (input : Input) :
    Discreet s.actor.id (s.react env shared io input).frames ↔
      s.leaks env shared.sys.db io input = false := by
  cases input with
  | message request fallbackId => exact s.handleMessage_discreet_iff hentries request fallbackId
  | ignored => exact iff_of_true .nil rfl
  | closed => exact iff_of_true .nil rfl
  | expired => exact iff_of_true (.blank rfl) rfl
  | event event => exact iff_of_true (s.receiveEvent_discreet event) rfl
  | participants participants excludeActorId =>
      refine iff_of_true ?_ rfl
      simp only [Session.react]
      split_ifs
      · exact .nil
      · cases s.joinedRoom with
        | none => exact .nil
        | some room => exact .blank rfl
  | lagged =>
      refine iff_of_true ?_ rfl
      simp only [Session.react]
      cases s.joinedRoom with
      | none => exact .nil
      | some room => exact s.recover_discreet room

end Repeated

/-! ### The ledger under the sessions -/

section Hub

variable {env : Env} {shared : Shared} {s : Session} {io : Io}

theorem Session.mutate_db {room : Uuid} {request : ValidatedRequest} :
    (s.mutate env shared io room request).shared.sys.db =
      ((process env s.actor request (shared.presence room) io.conversationsEnabled io.txNow
        io.fresh).runTx shared.sys.db).2 := by
  unfold Session.mutate
  cases (process env s.actor request (shared.presence room) io.conversationsEnabled io.txNow
    io.fresh).runTx shared.sys.db with
  | mk result db =>
      cases result with
      | error error => rfl
      | ok processed =>
          simp only
          split_ifs <;> rfl

/-- A reaction changes the database by a request or not at all. -/
theorem Session.react_db (env : Env) (shared : Shared) (s : Session) (io : Io) (input : Input) :
    (s.react env shared io input).shared.sys.db = shared.sys.db ∨
      ∃ room request, (s.react env shared io input).shared.sys.db =
        ((process env s.actor request (shared.presence room) io.conversationsEnabled io.txNow
          io.fresh).runTx shared.sys.db).2 := by
  have hrecover : ∀ room, (s.recover shared io room).shared.sys.db = shared.sys.db := by
    intro room
    unfold Session.recover
    split_ifs <;> rfl
  cases input with
  | message request fallbackId =>
      simp only [Session.react, Session.handleMessage]
      split_ifs
      · exact .inl rfl
      · cases request with
        | error error => exact .inl rfl
        | ok request =>
            cases request with
            | join join =>
                refine .inl ?_
                simp only [Session.join]
                split_ifs <;> rfl
            | sessionAuthenticate _ => exact .inl rfl
            | _ =>
                simp only [ValidatedRequest.roomId]
                split_ifs
                · exact .inl rfl
                · exact .inr ⟨_, _, s.mutate_db⟩
  | ignored => exact .inl rfl
  | closed => exact .inl rfl
  | expired => exact .inl rfl
  | event event =>
      refine .inl ?_
      simp only [Session.react, Session.receiveEvent]
      split_ifs
      · rfl
      · rfl
      · rfl
      · cases s.joinedRoom with
        | none => rfl
        | some room => exact hrecover room
      · rfl
  | participants participants excludeActorId =>
      refine .inl ?_
      simp only [Session.react]
      split_ifs
      · rfl
      · cases s.joinedRoom <;> rfl
  | lagged =>
      refine .inl ?_
      simp only [Session.react]
      cases s.joinedRoom with
      | none => rfl
      | some room => exact hrecover room

theorem LedgerGrows.refl (db : Db) : LedgerGrows env db db := (RequestEffect.refl db).grows

theorem appendEvent_grows (eventId : Uuid) (event : NewEvent) (db : Db) :
    LedgerGrows env db ((appendEvent env eventId event).runTx db).2 := by
  obtain hsame | ⟨r, hcommit⟩ := Prog.runTx_store (appendEvent env eventId event) db
  · rw [hsame]
    exact .refl db
  · obtain ⟨e, log, happended, heq⟩ := appendEvent_ok hcommit
    rw [heq]
    exact ⟨happended.extends, [], (List.append_nil _).symm, by simp⟩

theorem hub_grows (h : Hub) (op : HubOp) :
    LedgerGrows env h.shared.sys.db ((hub env).next h op).shared.sys.db := by
  cases op with
  | call op => exact (gateway_requestEffect h.shared.sys op).grows
  | append eventId event => exact appendEvent_grows eventId event h.shared.sys.db
  | connect actor => exact .refl _
  | input index input io =>
      simp only [Machine.next, hub, hubStep]
      cases h.sessions[index]? with
      | none => exact .refl _
      | some s =>
          simp only
          split_ifs
          · rw [Reaction.finish_sys]
            obtain hsame | ⟨room, request, heq⟩ := Session.react_db env h.shared s io input
            · rw [hsame]
              exact .refl _
            · rw [heq]
              exact (process_requestEffect ..).grows
          · exact .refl _

/-- Who is sent which room event in a step. -/
def disclosed (env : Env) (h : Hub) (op : HubOp) : List (Uuid × RoomEvent) :=
  match op with
  | .input index _ _ =>
      match h.sessions[index]? with
      | some s => ((hub env).out h op).flatMap fun frame => frame.events.map (s.actor.id, ·)
      | none => []
  | _ => []

/-- In the step, a client that is in the room and whose socket is open repeats
a recorded message to some participants that it is not one of. -/
def leaks (env : Env) (h : Hub) : HubOp → Bool
  | .input index input io => h.sessions[index]?.any fun s =>
      !s.ended && s.leaks env h.shared.sys.db io input
  | _ => false

theorem Session.open_of_canRead {db : Db} {input : Input} (h : s.canRead db input = true) :
    s.ended = false := by
  cases hended : s.ended with
  | false => rfl
  | true => cases input <;> simp [Session.canRead, hended] at h

theorem Session.not_leaks_of_not_canRead {db : Db} {input : Input}
    (h : s.canRead db input = false) : (!s.ended && s.leaks env db io input) = false := by
  cases input with
  | message request fallbackId =>
      rw [show (!s.ended) = false from h]
      rfl
  | _ => exact Bool.and_false _

theorem disclosed_iff {h : Hub} (hentries : Entries env h.shared.sys.db) (op : HubOp) :
    (∀ p ∈ disclosed env h op, eventVisibleTo p.2 p.1 = true) ↔ leaks env h op = false := by
  cases op with
  | call op => simp [disclosed, leaks]
  | append eventId event => simp [disclosed, leaks]
  | connect actor => simp [disclosed, leaks]
  | input index input io =>
      cases hs : h.sessions[index]? with
      | none => simp [disclosed, leaks, hs]
      | some s =>
          have hmem : (∀ p ∈ disclosed env h (.input index input io),
              eventVisibleTo p.2 p.1 = true) ↔
              Discreet s.actor.id ((hub env).out h (.input index input io)) := by
            simp only [disclosed, hs, Discreet, List.mem_flatMap, List.mem_map]
            constructor
            · exact fun hall frame hframe e he => hall _ ⟨frame, hframe, e, he, rfl⟩
            · rintro hall p ⟨frame, hframe, e, he, rfl⟩
              exact hall frame hframe e he
          rw [hmem]
          simp only [leaks, hs, Machine.out, hub, hubStep, Option.any_some]
          cases hread : s.canRead h.shared.sys.db input with
          | true =>
              rw [if_pos rfl, Reaction.finish_frames, s.react_discreet_iff hentries input,
                s.open_of_canRead hread, Bool.not_false, Bool.true_and]
          | false =>
              rw [if_neg (by simp)]
              exact iff_of_true .nil (s.not_leaks_of_not_canRead hread)

/-- A client is sent only events it may see, exactly if no client repeats a
recorded message whose audience it is not in. -/
theorem sent_events_visible_iff (ops : List HubOp) :
    (∀ p ∈ (hub env).collect (disclosed env) (hub env).init ops,
      eventVisibleTo p.2 p.1 = true) ↔
    (hub env).Guarded (fun h op => leaks env h op = false) (hub env).init ops :=
  Machine.forall_collect_iff (P := fun h => Entries env h.shared.sys.db)
    (fun h op hentries => (hub_grows h op).entries hentries)
    (fun _ op hentries => disclosed_iff hentries op) (by simp [Entries, hub]) ops

end Hub

/-! ### A message that is repeated by somebody else

Maya sends a message to the action-items agent alone; Noor, who is in the room
too, sends the same request and is sent Maya's message. -/

def sampleReader : Actor := ⟨8, .human, "Noor Haddad", 1000⟩

def sampleJoin : Join where
  id := "join"
  contractVersion := "n2n.room.v1"
  requestId := 2
  roomId := 1
  occurredAt := seconds 0
  afterSequence := none

def sampleChat : ChatSend where
  id := "chat"
  contractVersion := "n2n.room.v1"
  requestId := 5
  roomId := 1
  occurredAt := seconds 0
  text := "@action-items between us"
  mentions := [.participant actionItemsAgentId "action-items"]
  delivery := .mentioned

def sampleIo : Io where
  now := 100
  sends := 8
  txNow := seconds 100
  fresh n := .ofNat (20 + n)

def repeatedMessage : List HubOp :=
  [.connect sampleActor, .connect sampleReader,
    .input 0 (.message (.ok (.join sampleJoin)) none) sampleIo,
    .input 1 (.message (.ok (.join sampleJoin)) none) sampleIo,
    .input 0 (.message (.ok (.chatSend sampleChat)) none) sampleIo,
    .input 1 (.message (.ok (.chatSend sampleChat)) none) sampleIo]

theorem repeated_message_exposed :
    ∃ p ∈ (hub sampleEnv).collect (disclosed sampleEnv) (hub sampleEnv).init repeatedMessage,
      p.1 = sampleReader.id ∧ p.2.actorId = sampleActor.id ∧
        eventVisibleTo p.2 p.1 = false := by
  decide +kernel

end RoomGateway
