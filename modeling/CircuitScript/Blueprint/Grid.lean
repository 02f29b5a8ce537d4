import CircuitScript.Blueprint.Entity
/-!
Which entity stands on which tile. Where entities overlap, the one registered last is found.
-/
namespace CircuitScript

/-- A map from tiles to entities; a tile occurs once. -/
structure Grid where
  entries : List (Position × EntityId)
  deriving DecidableEq, Repr, Inhabited

namespace Grid

def empty : Grid := ⟨[]⟩

def find? (grid : Grid) (tile : Position) : Option EntityId := grid.entries.lookup tile

def erase (grid : Grid) (tile : Position) : Grid :=
  ⟨grid.entries.filter fun entry => entry.1 ≠ tile⟩

def insert (grid : Grid) (tile : Position) (id : EntityId) : Grid :=
  ⟨(tile, id) :: (grid.erase tile).entries⟩

/-- Frees the tiles on which the entity is found. -/
def release (grid : Grid) (id : EntityId) (tiles : List Position) : Grid :=
  tiles.foldl (fun grid tile => if grid.find? tile = some id then grid.erase tile else grid) grid

/-- Moves every tile. -/
def shift (grid : Grid) (offset : Position) : Grid :=
  ⟨grid.entries.map fun (tile, id) => (tile + offset, id)⟩

theorem lookup_filter_ne (tile other : Position) (list : List (Position × EntityId)) :
    (list.filter fun entry => entry.1 ≠ tile).lookup other =
      if other = tile then none else list.lookup other := by
  induction list with
  | nil => simp
  | cons entry rest ih =>
    by_cases h : entry.1 = tile <;> by_cases ho : other = entry.1 <;> grind

@[simp] theorem find?_erase (grid : Grid) (tile other : Position) :
    (grid.erase tile).find? other = if other = tile then none else grid.find? other :=
  lookup_filter_ne tile other grid.entries

@[simp] theorem find?_insert (grid : Grid) (tile other : Position) (id : EntityId) :
    (grid.insert tile id).find? other = if other = tile then some id else grid.find? other := by
  have := find?_erase grid tile other
  by_cases h : other = tile <;> grind [insert, find?]

@[simp] theorem find?_empty (tile : Position) : empty.find? tile = none := rfl

end Grid

end CircuitScript
