import DogFoodTracker.Storage.SortedMap

/-! # Left-leaning red-black trees

The maps and sets of the client are these trees once they have outgrown an array. Nodes
are shared between versions of a map, so an operation builds the nodes on its path anew.
A leaf has a colour too, and flipping the colours of a node whose child is missing would
leave a red one.
-/

namespace DogFoodTracker.Immutable

open SortedMap

inductive Color where
  | black
  | red
  deriving DecidableEq, Repr

def Color.opposite : Color → Color
  | .red => .black
  | .black => .red

/-- A leaf is the node of size 0. -/
inductive LlrbNode (Key α : Type) where
  | leaf (color : Color)
  | node (color : Color) (size : Nat) (left : LlrbNode Key α) (entry : Key × α)
      (right : LlrbNode Key α)

namespace LlrbNode

variable {Key α : Type}

/-! ## Nodes -/

/-- The shared empty node. -/
def empty : LlrbNode Key α := leaf .black

def isEmpty : LlrbNode Key α → Bool
  | leaf _ => true
  | node .. => false

def size : LlrbNode Key α → Nat
  | leaf _ => 0
  | node _ size _ _ _ => size

def color : LlrbNode Key α → Color
  | leaf color => color
  | node color _ _ _ _ => color

def red (n : LlrbNode Key α) : Bool := n.color = .red

/-- The links of the empty node lead back to it. -/
def left : LlrbNode Key α → LlrbNode Key α
  | leaf _ => empty
  | node _ _ left _ _ => left

def right : LlrbNode Key α → LlrbNode Key α
  | leaf _ => empty
  | node _ _ _ _ right => right

def entry : LlrbNode Key α → Option (Key × α)
  | leaf _ => none
  | node _ _ _ entry _ => some entry

def key (n : LlrbNode Key α) : Option Key := n.entry.map Prod.fst

def setLeft (n left : LlrbNode Key α) : LlrbNode Key α :=
  match n with
  | leaf color => leaf color
  | node color size _ entry right => node color size left entry right

def setRight (n right : LlrbNode Key α) : LlrbNode Key α :=
  match n with
  | leaf color => leaf color
  | node color size left entry _ => node color size left entry right

def setEntry (n : LlrbNode Key α) (entry : Key × α) : LlrbNode Key α :=
  match n with
  | leaf color => leaf color
  | node color size left _ right => node color size left entry right

def setColor (color : Color) : LlrbNode Key α → LlrbNode Key α
  | leaf _ => leaf color
  | node _ size left entry right => node color size left entry right

def oppositeColor (n : LlrbNode Key α) : Color := n.color.opposite

/-- A new node, with the size of what is beneath it. -/
def rep (color : Color) (left : LlrbNode Key α) (entry : Key × α) (right : LlrbNode Key α) :
    LlrbNode Key α :=
  node color (left.size + 1 + right.size) left entry right

/-! ## Rotations

Only a red link is rotated, and the child on it is there. -/

def rotateLeft : LlrbNode Key α → LlrbNode Key α
  | node color size left entry (node _ _ rightLeft rightEntry rightRight) =>
      node color size (rep .red left entry rightLeft) rightEntry rightRight
  | n => n

def rotateRight : LlrbNode Key α → LlrbNode Key α
  | node color size (node _ _ leftLeft leftEntry leftRight) entry right =>
      node color size leftLeft leftEntry (rep .red leftRight entry right)
  | n => n

def flipColor (n : LlrbNode Key α) : LlrbNode Key α :=
  match n with
  | leaf _ => leaf n.oppositeColor
  | node _ size left entry right =>
      node n.oppositeColor size (left.setColor left.oppositeColor) entry
        (right.setColor right.oppositeColor)

def fixSize : LlrbNode Key α → LlrbNode Key α
  | leaf color => leaf color
  | node color _ left entry right => rep color left entry right

/-- The first `if` of `FixUp`. -/
def fixRight (n : LlrbNode Key α) : LlrbNode Key α :=
  if n.right.red && !n.left.red then n.rotateLeft else n

/-- The second. -/
def fixLeft (n : LlrbNode Key α) : LlrbNode Key α :=
  if n.left.red && n.left.left.red then n.rotateRight else n

/-- The third. -/
def fixBoth (n : LlrbNode Key α) : LlrbNode Key α :=
  if n.left.red && n.right.red then n.flipColor else n

def fixUp (n : LlrbNode Key α) : LlrbNode Key α :=
  n.fixSize.fixRight.fixLeft.fixBoth

def moveRedLeft (n : LlrbNode Key α) : LlrbNode Key α :=
  if n.flipColor.right.left.red then
    (n.flipColor.setRight n.flipColor.right.rotateRight).rotateLeft.flipColor
  else n.flipColor

def moveRedRight (n : LlrbNode Key α) : LlrbNode Key α :=
  if n.flipColor.left.left.red then n.flipColor.rotateRight.flipColor else n.flipColor

section

variable (color : Color) (stored : Nat) (left : LlrbNode Key α) (entry : Key × α)
  (right : LlrbNode Key α)

@[simp] theorem color_leaf : (leaf color : LlrbNode Key α).color = color := rfl

@[simp] theorem color_node : (node color stored left entry right).color = color := rfl

@[simp] theorem red_leaf : (leaf color : LlrbNode Key α).red = (color = .red : Bool) := rfl

@[simp] theorem red_node : (node color stored left entry right).red = (color = .red : Bool) := rfl

@[simp] theorem left_node : (node color stored left entry right).left = left := rfl

@[simp] theorem right_node : (node color stored left entry right).right = right := rfl

@[simp] theorem key_node : (node color stored left entry right).key = some entry.1 := rfl

@[simp] theorem setEntry_node (other : Key × α) :
    (node color stored left entry right).setEntry other = node color stored left other right := rfl

@[simp] theorem flipColor_node :
    (node color stored left entry right).flipColor =
      node color.opposite stored (left.setColor left.color.opposite) entry
        (right.setColor right.color.opposite) := rfl

@[simp] theorem fixSize_node :
    (node color stored left entry right).fixSize =
      node color (left.size + 1 + right.size) left entry right := rfl

@[simp] theorem setLeft_node (n : LlrbNode Key α) :
    (node color stored left entry right).setLeft n = node color stored n entry right := rfl

@[simp] theorem setRight_node (n : LlrbNode Key α) :
    (node color stored left entry right).setRight n = node color stored left entry n := rfl

end

/-! ## Elements -/

def toList : LlrbNode Key α → List (Key × α)
  | leaf _ => []
  | node _ _ left entry right => left.toList ++ entry :: right.toList

/-- The entry of `min()`, if there is one. -/
def min : LlrbNode Key α → Option (Key × α)
  | leaf _ => none
  | node _ _ (leaf _) entry _ => some entry
  | node _ _ left _ _ => left.min

@[simp] theorem toList_leaf (color : Color) : (leaf color : LlrbNode Key α).toList = [] := rfl

@[simp] theorem toList_empty : (empty : LlrbNode Key α).toList = [] := rfl

@[simp] theorem toList_node (color : Color) (size : Nat) (left : LlrbNode Key α)
    (entry : Key × α) (right : LlrbNode Key α) :
    (node color size left entry right).toList = left.toList ++ entry :: right.toList := rfl

@[simp] theorem toList_rep (color : Color) (left : LlrbNode Key α) (entry : Key × α)
    (right : LlrbNode Key α) :
    (rep color left entry right).toList = left.toList ++ entry :: right.toList := rfl

@[simp] theorem toList_setColor (color : Color) (n : LlrbNode Key α) :
    (n.setColor color).toList = n.toList := by
  cases n <;> rfl

@[simp] theorem toList_rotateLeft (n : LlrbNode Key α) : n.rotateLeft.toList = n.toList := by
  unfold rotateLeft
  split <;> simp

@[simp] theorem toList_rotateRight (n : LlrbNode Key α) : n.rotateRight.toList = n.toList := by
  unfold rotateRight
  split <;> simp

@[simp] theorem toList_flipColor (n : LlrbNode Key α) : n.flipColor.toList = n.toList := by
  unfold flipColor
  split <;> simp

@[simp] theorem toList_fixSize (n : LlrbNode Key α) : n.fixSize.toList = n.toList := by
  cases n <;> rfl

@[simp] theorem toList_fixUp (n : LlrbNode Key α) : n.fixUp.toList = n.toList := by
  have right : ∀ n : LlrbNode Key α, n.fixRight.toList = n.toList := by
    intro n
    unfold fixRight
    split <;> simp
  have left : ∀ n : LlrbNode Key α, n.fixLeft.toList = n.toList := by
    intro n
    unfold fixLeft
    split <;> simp
  have both : ∀ n : LlrbNode Key α, n.fixBoth.toList = n.toList := by
    intro n
    unfold fixBoth
    split <;> simp
  rw [fixUp, both, left, right, toList_fixSize]

theorem toList_setRight_rotateRight (n : LlrbNode Key α) :
    (n.setRight n.right.rotateRight).toList = n.toList := by
  cases n <;> simp [setRight, right]

@[simp] theorem toList_moveRedLeft (n : LlrbNode Key α) : n.moveRedLeft.toList = n.toList := by
  unfold moveRedLeft
  split <;> simp [toList_setRight_rotateRight]

@[simp] theorem toList_moveRedRight (n : LlrbNode Key α) : n.moveRedRight.toList = n.toList := by
  unfold moveRedRight
  split <;> simp

theorem min_eq (n : LlrbNode Key α) : n.min = n.toList.head? := by
  induction n with
  | leaf color => rfl
  | node color size left entry right ihl ihr =>
      cases left with
      | leaf => rfl
      | node => rw [min, ihl] <;> simp [List.head?_append]

end LlrbNode

end DogFoodTracker.Immutable
