import RoomGateway.Lib.Sort

/-!
Finite maps that list their entries in the order of the keys. The order is part
of the map, so the listing of its values is determined by what they are.
-/

namespace RoomGateway

/-- The entries in increasing order of their keys, no key twice. -/
structure OrdMap (κ α : Type) [LinearOrder κ] where
  entries : List (κ × α)
  ascending : Ascending Prod.fst entries

namespace OrdMap

variable {κ α : Type} [LinearOrder κ]

def empty : OrdMap κ α := ⟨[], .nil⟩

/-- Without the key. -/
def erase (m : OrdMap κ α) (key : κ) : OrdMap κ α where
  entries := m.entries.filter fun e => e.1 ≠ key
  ascending := m.ascending.filter _

/-- The value under the key, in place of the one it had. -/
def insert (m : OrdMap κ α) (key : κ) (value : α) : OrdMap κ α where
  entries := sortOn Prod.fst ((key, value) :: (m.erase key).entries)
  ascending := by
    refine ascending_sortOn (List.nodup_cons.mpr ⟨by simp [erase], ?_⟩)
    exact List.pairwise_map.mpr ((m.erase key).ascending.imp fun hlt => hlt.ne)

def values (m : OrdMap κ α) : List α := m.entries.map (·.2)

@[simp] theorem mem_erase {m : OrdMap κ α} {key : κ} {e : κ × α} :
    e ∈ (m.erase key).entries ↔ e ∈ m.entries ∧ e.1 ≠ key := by
  simp [erase]

@[simp] theorem mem_insert {m : OrdMap κ α} {key : κ} {value : α} {e : κ × α} :
    e ∈ (m.insert key value).entries ↔ e = (key, value) ∨ (e ∈ m.entries ∧ e.1 ≠ key) := by
  simp [insert, mem_sortOn]

theorem mem_values {m : OrdMap κ α} {a : α} : a ∈ m.values ↔ ∃ key, (key, a) ∈ m.entries := by
  simp [values]

/-- Values that carry their keys are listed in the order of these. -/
theorem ascending_values {m : OrdMap κ α} {key : α → κ} (h : ∀ e ∈ m.entries, key e.2 = e.1) :
    Ascending key m.values := by
  refine List.pairwise_map.mpr (m.ascending.imp_of_mem fun ha hb hlt => ?_)
  rw [h _ ha, h _ hb]
  exact hlt

end OrdMap

end RoomGateway
