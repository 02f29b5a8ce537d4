/-!
Tile positions and axis-aligned directions. The vertical axis points down.
-/
namespace CircuitScript

structure Position where
  x : Int
  y : Int
  deriving DecidableEq, Repr, Inhabited

namespace Position

def origin : Position := ⟨0, 0⟩

instance : Add Position := ⟨fun a b => ⟨a.x + b.x, a.y + b.y⟩⟩

instance : Sub Position := ⟨fun a b => ⟨a.x - b.x, a.y - b.y⟩⟩

instance : Neg Position := ⟨fun a => ⟨-a.x, -a.y⟩⟩

def scale (a : Position) (factor : Int) : Position := ⟨a.x * factor, a.y * factor⟩

/-- A quarter turn that takes the right to below. -/
def turnLeft (a : Position) : Position := ⟨-a.y, a.x⟩

/-- The opposite quarter turn. -/
def turnRight (a : Position) : Position := ⟨a.y, -a.x⟩

/-- The projection onto a direction. -/
def along (a direction : Position) : Int := a.x * direction.x + a.y * direction.y

def text (a : Position) : String := "(" ++ toString a.x ++ ", " ++ toString a.y ++ ")"

@[simp] theorem add_x (a b : Position) : (a + b).x = a.x + b.x := rfl

@[simp] theorem add_y (a b : Position) : (a + b).y = a.y + b.y := rfl

@[simp] theorem sub_x (a b : Position) : (a - b).x = a.x - b.x := rfl

@[simp] theorem sub_y (a b : Position) : (a - b).y = a.y - b.y := rfl

end Position

end CircuitScript
