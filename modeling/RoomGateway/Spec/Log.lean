import RoomGateway.Lib.Sort
import RoomGateway.Spec.Effect

/-!
The log of the rooms over whole runs: the sequences of a room count up from 1,
and what the log holds up to a sequence it has reached stays as it is.
-/

namespace RoomGateway

variable {env : Env} {db db' : Db} {room : Uuid} {e : RoomEvent}

theorem Db.mem_eventsOf : e ∈ db.eventsOf room ↔ e ∈ db.roomEvents.rows ∧ e.roomId = room := by
  simp [Db.eventsOf]

/-- The sequences of a room's events are all different. -/
theorem Db.sequences_nodup {p : RoomEvent → Bool} (hp : ∀ e, p e = true → e.roomId = room) :
    ((db.roomEvents.rows.filter p).map (·.sequence)).Nodup := by
  refine List.pairwise_map.mpr (List.Pairwise.imp_of_mem ?_ (db.roomEvents.unique.filter p))
  intro a b ha hb hclash heq
  have hroom : a.roomId = b.roomId :=
    (hp a (List.mem_filter.mp ha).2).trans (hp b (List.mem_filter.mp hb).2).symm
  simp [roomEventConstraints, hroom, heq] at hclash

theorem Db.eventsOf_nodup (db : Db) (room : Uuid) (p : RoomEvent → Bool) :
    (((db.eventsOf room).filter p).map (·.sequence)).Nodup := by
  rw [Db.eventsOf, List.filter_filter]
  have hroom : ∀ e, (p e && decide (e.roomId = room)) = true → e.roomId = room := by
    intro e he
    simp only [Bool.and_eq_true, decide_eq_true_eq] at he
    exact he.2
  exact Db.sequences_nodup hroom

theorem Db.maxSequence_add_one (db : Db) (room : Uuid) :
    db.maxSequence room + 1 =
      SeqLog.next RoomEvent.roomId RoomEvent.sequence db.roomEvents.rows room := rfl

/-! ### Up to a sequence -/

/-- The events of a room up to a sequence, in order. -/
def eventsUpTo (db : Db) (room : Uuid) (revision : Int) : List RoomEvent :=
  bySequence ((db.eventsOf room).filter fun e => e.sequence ≤ revision)

theorem mem_eventsUpTo {revision : Int} : e ∈ eventsUpTo db room revision ↔
    e ∈ db.roomEvents.rows ∧ e.roomId = room ∧ e.sequence ≤ revision := by
  simp only [eventsUpTo, bySequence, List.mem_insertionSort, List.mem_filter, Db.mem_eventsOf,
    decide_eq_true_eq, and_assoc]

theorem eventsUpTo_ascending (db : Db) (room : Uuid) (revision : Int) :
    Ascending RoomEvent.sequence (eventsUpTo db room revision) :=
  ascending_sortOn (db.eventsOf_nodup room _)

/-- What is there up to a sequence the room has reached stays as it is. -/
theorem eventsUpTo_extends (h : LogExtends db db') {revision : Int}
    (hrevision : revision ≤ db.maxSequence room) :
    eventsUpTo db' room revision = eventsUpTo db room revision := by
  unfold eventsUpTo Db.eventsOf
  rw [List.filter_filter, List.filter_filter]
  congr 1
  refine h.filter_below (k := room) fun e he => ?_
  simp only [Bool.and_eq_true, decide_eq_true_eq] at he
  have hnext := db.maxSequence_add_one room
  exact ⟨he.2, by omega⟩

/-- The log is in the order of the sequences. -/
theorem eventsUpTo_maxSequence
    (h : SeqLog.Numbered RoomEvent.roomId RoomEvent.sequence db.roomEvents.rows) (room : Uuid) :
    eventsUpTo db room (db.maxSequence room) = db.eventsOf room := by
  have hall : (db.eventsOf room).filter (fun e => e.sequence ≤ db.maxSequence room) =
      db.eventsOf room := by
    refine List.filter_eq_self.mpr fun e he => ?_
    obtain ⟨hmem, hroom⟩ := Db.mem_eventsOf.mp he
    have hlt : e.sequence < db.maxSequence e.roomId + 1 := SeqLog.lt_next hmem
    rw [hroom] at hlt
    exact decide_eq_true (by omega)
  rw [eventsUpTo, hall]
  exact Ascending.sortOn_eq (h.sorted room) (List.Perm.refl _)

/-! ### Runs -/

theorem gateway_log (s : Sys) (ops : List Op) :
    LogExtends s.db ((gateway env).runFrom s ops).db :=
  Machine.runFrom_trans (R := fun a b : Sys => LogExtends a.db b.db) (P := fun _ => True)
    (fun _ => .refl) (fun _ _ _ => SeqLog.Extends.trans) (fun _ _ _ _ => trivial)
    (fun s op _ _ => (gateway_effect s op).log) trivial (Machine.guarded_true _ ops)

theorem gateway_numbered (ops : List Op) :
    SeqLog.Numbered RoomEvent.roomId RoomEvent.sequence
      ((gateway env).run ops).db.roomEvents.rows :=
  SeqLog.Numbered.nil.of_extends (gateway_log (gateway env).init ops)

end RoomGateway
