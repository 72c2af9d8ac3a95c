import DogFoodTracker.Immutable.LlrbNode

/-! # Inserting into a balanced tree

A tree is balanced when red links lean to the left, no two of them follow each other, and
every way down passes the same number of black nodes. An insertion may leave two red links
in a row at the top of a red node; the node above, which is black, puts them right.
-/

namespace DogFoodTracker.Immutable.LlrbNode

open SortedMap

/-! ## Balance -/

/-- Balanced with a root of this colour, and with this number of black nodes on the way to
    any leaf. -/
inductive Balanced {Key α : Type} : LlrbNode Key α → Color → Nat → Prop where
  | leaf : Balanced (leaf .black) .black 0
  | red {left right : LlrbNode Key α} {entry : Key × α} {stored blacks : Nat}
      (left_balanced : Balanced left .black blacks)
      (right_balanced : Balanced right .black blacks) :
      Balanced (node .red stored left entry right) .red blacks
  | black {left right : LlrbNode Key α} {entry : Key × α} {stored blacks : Nat} {color : Color}
      (left_balanced : Balanced left color blacks)
      (right_balanced : Balanced right .black blacks) :
      Balanced (node .black stored left entry right) .black (blacks + 1)

variable {Key α : Type} {left right n : LlrbNode Key α} {entry : Key × α} {color : Color}
  {blacks stored : Nat}

/-- The sizes that are kept in the nodes are right. -/
def Sized : LlrbNode Key α → Prop
  | leaf _ => True
  | node _ stored left _ right =>
      left.Sized ∧ right.Sized ∧ stored = left.toList.length + 1 + right.toList.length

theorem Sized.size (sized : n.Sized) : n.size = n.toList.length := by
  cases n with
  | leaf => rfl
  | node color stored left entry right =>
      rw [toList_node, List.length_append, List.length_cons]
      exact sized.2.2.trans (by omega)

theorem Sized.rep (leftSized : left.Sized) (rightSized : right.Sized) :
    (rep color left entry right).Sized :=
  ⟨leftSized, rightSized, by rw [leftSized.size, rightSized.size]⟩

theorem Balanced.rootColor (balanced : Balanced n color blacks) : n.color = color := by
  cases balanced <;> rfl

theorem Balanced.red_red (balanced : Balanced n .red blacks) : n.red = true := by
  rw [LlrbNode.red, balanced.rootColor]
  rfl

theorem Balanced.black_red (balanced : Balanced n .black blacks) : n.red = false := by
  rw [LlrbNode.red, balanced.rootColor]
  rfl

/-- The links below a red node are black. -/
theorem Balanced.left_black (balanced : Balanced n .red blacks) : n.left.red = false := by
  cases balanced with
  | red left_balanced _ => exact left_balanced.black_red

/-! ## Putting a node right -/

theorem Sized.fixSize (leftSized : left.Sized) (rightSized : right.Sized) :
    (node color stored left entry right).fixSize.Sized :=
  leftSized.rep rightSized

theorem Sized.setColor (sized : n.Sized) (color : Color) : (n.setColor color).Sized := by
  cases n with
  | leaf => trivial
  | node => exact sized

theorem Sized.flipColor (sized : n.Sized) : n.flipColor.Sized := by
  cases n with
  | leaf => trivial
  | node color stored left entry right =>
      obtain ⟨leftSized, rightSized, same⟩ := sized
      exact ⟨leftSized.setColor _, rightSized.setColor _, by simpa using same⟩

theorem Sized.rotateLeft (sized : n.Sized) : n.rotateLeft.Sized := by
  unfold LlrbNode.rotateLeft
  split
  · obtain ⟨leftSized, ⟨middleSized, rightSized, -⟩, same⟩ := sized
    refine ⟨leftSized.rep middleSized, rightSized, ?_⟩
    simp only [toList_node, toList_rep, List.length_append, List.length_cons] at same ⊢
    omega
  · exact sized

theorem Sized.rotateRight (sized : n.Sized) : n.rotateRight.Sized := by
  unfold LlrbNode.rotateRight
  split
  · obtain ⟨⟨leftSized, middleSized, -⟩, rightSized, same⟩ := sized
    refine ⟨leftSized, middleSized.rep rightSized, ?_⟩
    simp only [toList_node, toList_rep, List.length_append, List.length_cons] at same ⊢
    omega
  · exact sized

/-- Only the root's size may be wrong before. -/
theorem Sized.fixUp (leftSized : left.Sized) (rightSized : right.Sized) :
    (node color stored left entry right).fixUp.Sized := by
  have fixRight : ∀ n : LlrbNode Key α, n.Sized → n.fixRight.Sized := by
    intro n sized
    unfold LlrbNode.fixRight
    split
    · exact sized.rotateLeft
    · exact sized
  have fixLeft : ∀ n : LlrbNode Key α, n.Sized → n.fixLeft.Sized := by
    intro n sized
    unfold LlrbNode.fixLeft
    split
    · exact sized.rotateRight
    · exact sized
  have fixBoth : ∀ n : LlrbNode Key α, n.Sized → n.fixBoth.Sized := by
    intro n sized
    unfold LlrbNode.fixBoth
    split
    · exact sized.flipColor
    · exact sized
  exact fixBoth _ (fixLeft _ (fixRight _ (leftSized.fixSize rightSized)))

/-- A node with nothing to put right is not changed but for its size. -/
theorem fixUp_straight (straight : right.red = false)
    (apart : left.red = true → left.left.red = false) :
    (node color stored left entry right).fixUp = rep color left entry right := by
  have single : (left.red && left.left.red) = false := by
    cases isRed : left.red with
    | false => rfl
    | true => rw [apart isRed, Bool.and_false]
  have first : (node color stored left entry right).fixSize.fixRight =
      rep color left entry right := if_neg (by simp [straight])
  have second : (rep color left entry right).fixLeft = rep color left entry right :=
    if_neg (by simp [rep, single])
  have third : (rep color left entry right).fixBoth = rep color left entry right :=
    if_neg (by simp [rep, straight])
  rw [fixUp, first, second, third]

/-- No two red links follow each other in a balanced tree. -/
theorem Balanced.apart (balanced : Balanced n color blacks) (isRed : n.red = true) :
    n.left.red = false := by
  cases color with
  | red => exact balanced.left_black
  | black => rw [balanced.black_red] at isRed; cases isRed

theorem Balanced.setBlack (balanced : Balanced n .red blacks) :
    Balanced (n.setColor .black) .black (blacks + 1) := by
  cases balanced with
  | red left_balanced right_balanced => exact .black left_balanced right_balanced

section

variable {leftStored rightStored : Nat} {leftLeft leftRight rightLeft rightRight : LlrbNode Key α}
  {leftEntry rightEntry : Key × α}

/-- A red link to the right is turned to the left. -/
theorem fixUp_right (leftBlack : left.red = false) (rightBlack : rightRight.red = false) :
    (node color stored left entry
        (node .red rightStored rightLeft rightEntry rightRight)).fixUp =
      node color (left.size + 1 + rightStored) (rep .red left entry rightLeft) rightEntry
        rightRight := by
  simp [fixUp, fixRight, fixLeft, fixBoth, rotateLeft, rep, size, leftBlack, rightBlack]

/-- Two red links in a row are split. -/
theorem fixUp_row (isRed : leftLeft.red = true) (rightBlack : right.red = false) :
    (node color stored (node .red leftStored leftLeft leftEntry leftRight) entry right).fixUp =
      flipColor (node color (leftStored + 1 + right.size) leftLeft leftEntry
        (rep .red leftRight entry right)) := by
  simp [fixUp, fixRight, fixLeft, fixBoth, rotateRight, rep, size, isRed, rightBlack]

/-- Two red links side by side are made one above. -/
theorem fixUp_both (leftLeftBlack : leftLeft.red = false) :
    (node color stored (node .red leftStored leftLeft leftEntry leftRight) entry
        (node .red rightStored rightLeft rightEntry rightRight)).fixUp =
      flipColor (node color (leftStored + 1 + rightStored)
        (node .red leftStored leftLeft leftEntry leftRight) entry
        (node .red rightStored rightLeft rightEntry rightRight)) := by
  simp [fixUp, fixRight, fixLeft, fixBoth, size, leftLeftBlack]

end

theorem Balanced.fixUp_red (left_balanced : Balanced left .black blacks)
    (right_balanced : Balanced right .black blacks) :
    Balanced (node .red stored left entry right).fixUp .red blacks := by
  rw [fixUp_straight right_balanced.black_red left_balanced.apart]
  exact .red left_balanced right_balanced

/-- A black node stays one unless both its links were red. -/
theorem Balanced.fixUp_black {rightColor : Color} (left_balanced : Balanced left color blacks)
    (right_balanced : Balanced right rightColor blacks) :
    ∃ color', Balanced (node .black stored left entry right).fixUp color' (blacks + 1) ∧
      (color = .black ∨ rightColor = .black → color' = .black) := by
  cases rightColor with
  | black =>
      rw [fixUp_straight right_balanced.black_red left_balanced.apart]
      exact ⟨.black, .black left_balanced right_balanced, fun _ => rfl⟩
  | red =>
      cases right_balanced with
      | red leftward rightward =>
          cases color with
          | black =>
              rw [fixUp_right left_balanced.black_red rightward.black_red]
              exact ⟨.black, .black (.red left_balanced leftward) rightward, fun _ => rfl⟩
          | red =>
              cases left_balanced with
              | red outer inner =>
                  rw [fixUp_both outer.black_red]
                  exact ⟨.red, .red (.black outer inner) (.black leftward rightward), by simp⟩

/-! ## Inserting -/

def fixRootColor (n : LlrbNode Key α) : LlrbNode Key α :=
  if n.red then n.setColor .black else n

@[simp] theorem toList_fixRootColor (n : LlrbNode Key α) : n.fixRootColor.toList = n.toList := by
  unfold fixRootColor
  split <;> simp

section

variable [LinearOrder Key]

def innerInsert (key : Key) (value : α) : LlrbNode Key α → LlrbNode Key α
  | leaf _ => rep .red empty (key, value) empty
  | node color stored left entry right =>
      match compare entry.1 key with
      | .gt => (node color stored (left.innerInsert key value) entry right).fixUp
      | .lt => (node color stored left entry (right.innerInsert key value)).fixUp
      | .eq => node color stored left (entry.1, value) right

def insert (key : Key) (value : α) (n : LlrbNode Key α) : LlrbNode Key α :=
  (n.innerInsert key value).fixRootColor

theorem toList_innerInsert (sorted : Sorted n.toList) (key : Key) (value : α) :
    (n.innerInsert key value).toList = SortedMap.insert key value n.toList := by
  induction n with
  | leaf => rfl
  | node color stored left entry right ihl ihr =>
      obtain ⟨leftSorted, rightSorted, earlier, later⟩ := sorted_around.mp sorted
      rw [innerInsert, toList_node]
      cases order : compare entry.1 key with
      | gt =>
          rw [insert_before (compare_gt_iff_gt.mp order), ← ihl leftSorted]
          exact toList_fixUp _
      | lt =>
          rw [insert_after earlier (compare_lt_iff_lt.mp order), ← ihr rightSorted]
          exact toList_fixUp _
      | eq =>
          have same := compare_eq_iff_eq.mp order
          rw [insert_here earlier same, ← same]
          rfl

theorem Sized.innerInsert (sized : n.Sized) (key : Key) (value : α) :
    (n.innerInsert key value).Sized := by
  induction n with
  | leaf => exact Sized.rep trivial trivial
  | node color stored left entry right ihl ihr =>
      obtain ⟨leftSized, rightSized, same⟩ := sized
      rw [LlrbNode.innerInsert]
      split
      · exact Sized.fixUp (ihl leftSized) rightSized
      · exact Sized.fixUp leftSized (ihr rightSized)
      · exact ⟨leftSized, rightSized, same⟩

end

/-- What an insertion leaves: a balanced node, or two red links in a row where it was red. -/
inductive Inserted {Key α : Type} : LlrbNode Key α → Color → Nat → Prop where
  | balanced {n : LlrbNode Key α} {color color' : Color} {blacks : Nat}
      (balanced : Balanced n color' blacks) : Inserted n color blacks
  | row {left right : LlrbNode Key α} {entry : Key × α} {stored blacks : Nat}
      (left_balanced : Balanced left .red blacks) (right_balanced : Balanced right .black blacks) :
      Inserted (node .red stored left entry right) .red blacks

theorem Inserted.fixRootColor (inserted : Inserted n .black blacks) :
    ∃ blacks', Balanced n.fixRootColor .black blacks' := by
  cases inserted with
  | @balanced _ _ color' _ balanced =>
      cases color' with
      | black => exact ⟨blacks, by rwa [LlrbNode.fixRootColor, balanced.black_red]⟩
      | red =>
          refine ⟨blacks + 1, ?_⟩
          rw [LlrbNode.fixRootColor, balanced.red_red]
          exact balanced.setBlack

theorem Balanced.inserted_left {left' : LlrbNode Key α}
    (balanced : Balanced (node color stored left entry right) color blacks)
    (inserted : ∀ color' blacks', Balanced left color' blacks' → Inserted left' color' blacks') :
    Inserted (node color stored left' entry right).fixUp color blacks := by
  cases balanced with
  | red left_balanced right_balanced =>
      cases inserted _ _ left_balanced with
      | @balanced _ _ color' _ balanced' =>
          cases color' with
          | black => exact .balanced (balanced'.fixUp_red right_balanced)
          | red =>
              rw [fixUp_straight right_balanced.black_red balanced'.apart]
              exact .row balanced' right_balanced
  | black left_balanced right_balanced =>
      cases inserted _ _ left_balanced with
      | balanced balanced' =>
          obtain ⟨_, after, -⟩ := balanced'.fixUp_black right_balanced
          exact .balanced after
      | row row_balanced middle_balanced =>
          rw [fixUp_row row_balanced.red_red right_balanced.black_red, flipColor_node,
            row_balanced.rootColor]
          exact .balanced (.red row_balanced.setBlack (.black middle_balanced right_balanced))

theorem Balanced.inserted_right {right' : LlrbNode Key α}
    (balanced : Balanced (node color stored left entry right) color blacks)
    (inserted : ∀ color' blacks', Balanced right color' blacks' → Inserted right' color' blacks') :
    Inserted (node color stored left entry right').fixUp color blacks := by
  cases balanced with
  | red left_balanced right_balanced =>
      cases inserted _ _ right_balanced with
      | @balanced _ _ color' _ balanced' =>
          cases color' with
          | black => exact .balanced (left_balanced.fixUp_red balanced')
          | red =>
              cases balanced' with
              | red leftward rightward =>
                  rw [fixUp_right left_balanced.black_red rightward.black_red]
                  exact .row (.red left_balanced leftward) rightward
  | black left_balanced right_balanced =>
      cases inserted _ _ right_balanced with
      | balanced balanced' =>
          obtain ⟨_, after, -⟩ := left_balanced.fixUp_black balanced'
          exact .balanced after

section

variable [LinearOrder Key]

theorem Balanced.innerInsert (balanced : Balanced n color blacks) (key : Key) (value : α) :
    Inserted (n.innerInsert key value) color blacks := by
  induction n generalizing color blacks with
  | leaf =>
      cases balanced with
      | leaf => exact .balanced (.red .leaf .leaf)
  | node color' stored left entry right ihl ihr =>
      obtain rfl : color' = color := by cases balanced <;> rfl
      rw [LlrbNode.innerInsert]
      split
      · exact balanced.inserted_left fun _ _ below => ihl below
      · exact balanced.inserted_right fun _ _ below => ihr below
      · cases balanced with
        | red left_balanced right_balanced =>
            exact .balanced (.red left_balanced right_balanced)
        | black left_balanced right_balanced =>
            exact .balanced (.black left_balanced right_balanced)

end

end DogFoodTracker.Immutable.LlrbNode
