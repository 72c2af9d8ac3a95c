import DogFoodTracker.Immutable.Insert

/-! # Erasing from a balanced tree

On its way down an erasure turns the tree so that the node it stands at is red or has a red
link, and what it takes away at the bottom is a red node. One rotation to the right leaves
a black node that leans the other way, and the key is then on that side.
-/

namespace DogFoodTracker.Immutable.LlrbNode

open SortedMap

variable {Key α : Type} {left right n : LlrbNode Key α} {entry : Key × α} {color color' : Color}
  {blacks stored : Nat}

/-! ## Going down -/

/-- Before a step to the left. -/
def borrowLeft (n : LlrbNode Key α) : LlrbNode Key α :=
  if !n.left.isEmpty && !n.left.red && !n.left.left.red then n.moveRedLeft else n

def turnRight (n : LlrbNode Key α) : LlrbNode Key α :=
  if n.left.red then n.rotateRight else n

def borrowRight (n : LlrbNode Key α) : LlrbNode Key α :=
  if !n.right.isEmpty && !n.right.red && !n.right.left.red then n.moveRedRight else n

/-- Before a step to the right. -/
def openRight (n : LlrbNode Key α) : LlrbNode Key α :=
  n.turnRight.borrowRight

@[simp] theorem toList_borrowLeft (n : LlrbNode Key α) : n.borrowLeft.toList = n.toList := by
  unfold borrowLeft
  split <;> simp

@[simp] theorem toList_openRight (n : LlrbNode Key α) : n.openRight.toList = n.toList := by
  have turned : n.turnRight.toList = n.toList := by
    unfold turnRight
    split <;> simp
  rw [openRight, borrowRight, ← turned]
  split <;> simp

theorem borrowLeft_shorter (more : n.toList ≠ []) :
    n.borrowLeft.left.toList.length < n.toList.length := by
  rw [← toList_borrowLeft n] at more ⊢
  cases opened : n.borrowLeft with
  | leaf => rw [opened] at more; exact absurd rfl more
  | node => simp

theorem openRight_shorter (more : n.toList ≠ []) :
    n.openRight.right.toList.length < n.toList.length := by
  rw [← toList_openRight n] at more ⊢
  cases opened : n.openRight with
  | leaf => rw [opened] at more; exact absurd rfl more
  | node =>
      simp only [right_node, toList_node, List.length_append, List.length_cons]
      omega

theorem toList_ne_nil {key : Key} (own : n.key = some key) : n.toList ≠ [] := by
  cases n with
  | leaf => cases own
  | node => simp

theorem toList_ne_nil_of_left (more : n.left.isEmpty = false) : n.toList ≠ [] := by
  cases n with
  | leaf => cases more
  | node => simp

def removeMin (n : LlrbNode Key α) : LlrbNode Key α :=
  if n.left.isEmpty then empty
  else (n.borrowLeft.setLeft n.borrowLeft.left.removeMin).fixUp
termination_by n.toList.length
decreasing_by
  rename_i more
  exact borrowLeft_shorter (toList_ne_nil_of_left (by simpa using more))

section

variable [LinearOrder Key]

def innerErase (key : Key) (n : LlrbNode Key α) : LlrbNode Key α :=
  match _own : n.key with
  | none => empty
  | some own =>
      if compare key own = .lt then
        (n.borrowLeft.setLeft (n.borrowLeft.left.innerErase key)).fixUp
      else if n.openRight.key = some key then
        match n.openRight.right.min with
        | none => empty
        | some smallest =>
            ((n.openRight.setEntry smallest).setRight n.openRight.right.removeMin).fixUp
      else (n.openRight.setRight (n.openRight.right.innerErase key)).fixUp
termination_by n.toList.length
decreasing_by
  · exact borrowLeft_shorter (toList_ne_nil ‹_›)
  · exact openRight_shorter (toList_ne_nil ‹_›)

def erase (key : Key) (n : LlrbNode Key α) : LlrbNode Key α :=
  (n.innerErase key).fixRootColor

@[simp] theorem innerErase_leaf (key : Key) : (leaf color : LlrbNode Key α).innerErase key = empty := by
  rw [innerErase]
  rfl

theorem innerErase_before {key : Key} (before : key < entry.1) :
    (node color stored left entry right).innerErase key =
      ((node color stored left entry right).borrowLeft.setLeft
        ((node color stored left entry right).borrowLeft.left.innerErase key)).fixUp := by
  rw [innerErase]
  exact if_pos (compare_lt_iff_lt.mpr before)

theorem innerErase_reached {key : Key} (reached : ¬ key < entry.1)
    (opened : (node color stored left entry right).openRight = n) :
    (node color stored left entry right).innerErase key =
      if n.key = some key then
        match n.right.min with
        | none => empty
        | some smallest => ((n.setEntry smallest).setRight n.right.removeMin).fixUp
      else (n.setRight (n.right.innerErase key)).fixUp := by
  subst opened
  rw [innerErase]
  exact if_neg fun order => reached (compare_lt_iff_lt.mp order)

end

/-! ## What a step down leaves to do -/

/-- A node that can lose an entry beneath it: it is red, or the link to its left is. -/
inductive Ready {Key α : Type} : LlrbNode Key α → Color → Nat → Prop where
  | red {left right : LlrbNode Key α} {entry : Key × α} {stored blacks : Nat}
      (left_balanced : Balanced left .black blacks)
      (right_balanced : Balanced right .black blacks) :
      Ready (node .red stored left entry right) .red blacks
  | leftward {left right : LlrbNode Key α} {entry : Key × α} {stored blacks : Nat}
      (left_balanced : Balanced left .red blacks)
      (right_balanced : Balanced right .black blacks) :
      Ready (node .black stored left entry right) .black (blacks + 1)

/-- What the loss leaves: a red node may have turned black. -/
def Shrunk (color : Color) (blacks : Nat) (n : LlrbNode Key α) : Prop :=
  ∃ color', Balanced n color' blacks ∧ (color = .black → color' = .black)

theorem Shrunk.black (shrunk : Shrunk .black blacks n) : Balanced n .black blacks := by
  obtain ⟨color', balanced, same⟩ := shrunk
  rwa [same rfl] at balanced

theorem Shrunk.of_red {color' : Color} (balanced : Balanced n color' blacks) :
    Shrunk .red blacks n :=
  ⟨color', balanced, fun black => by cases black⟩

theorem Shrunk.of_black (balanced : Balanced n .black blacks) : Shrunk color blacks n :=
  ⟨.black, balanced, fun _ => rfl⟩

theorem Balanced.ready (balanced : Balanced n .red blacks) : Ready n .red blacks := by
  cases balanced with
  | red left_balanced right_balanced => exact .red left_balanced right_balanced

/-- A node with two black links is red; it lends its colour to both. -/
theorem moveRedLeft_flat {leftStored rightStored : Nat}
    {leftLeft leftRight rightLeft rightRight : LlrbNode Key α} {leftEntry rightEntry : Key × α}
    (flat : rightLeft.red = false) :
    (node .red stored (node .black leftStored leftLeft leftEntry leftRight) entry
        (node .black rightStored rightLeft rightEntry rightRight)).moveRedLeft =
      node .black stored (node .red leftStored leftLeft leftEntry leftRight) entry
        (node .red rightStored rightLeft rightEntry rightRight) := by
  simp [moveRedLeft, flat, Color.opposite, setColor]

/-- Where the right child has a node to spare, it comes to the left. -/
theorem moveRedLeft_spare {leftStored rightStored spareStored : Nat}
    {leftLeft leftRight spareLeft spareRight rightRight : LlrbNode Key α}
    {leftEntry rightEntry spareEntry : Key × α} :
    (node .red stored (node .black leftStored leftLeft leftEntry leftRight) entry
        (node .black rightStored (node .red spareStored spareLeft spareEntry spareRight) rightEntry
          rightRight)).moveRedLeft =
      node .red stored
        (rep .black (node .red leftStored leftLeft leftEntry leftRight) entry spareLeft) spareEntry
        (rep .black spareRight rightEntry rightRight) := by
  simp [moveRedLeft, Color.opposite, setColor, rotateLeft, rotateRight, rep]

theorem moveRedRight_flat {leftStored rightStored : Nat}
    {leftLeft leftRight rightLeft rightRight : LlrbNode Key α} {leftEntry rightEntry : Key × α}
    (flat : leftLeft.red = false) :
    (node .red stored (node .black leftStored leftLeft leftEntry leftRight) entry
        (node .black rightStored rightLeft rightEntry rightRight)).moveRedRight =
      node .black stored (node .red leftStored leftLeft leftEntry leftRight) entry
        (node .red rightStored rightLeft rightEntry rightRight) := by
  simp [moveRedRight, flat, Color.opposite, setColor]

theorem moveRedRight_spare {leftStored rightStored spareStored : Nat}
    {spareLeft spareRight leftRight rightLeft rightRight : LlrbNode Key α}
    {leftEntry rightEntry spareEntry : Key × α} :
    (node .red stored
        (node .black leftStored (node .red spareStored spareLeft spareEntry spareRight) leftEntry
          leftRight) entry
        (node .black rightStored rightLeft rightEntry rightRight)).moveRedRight =
      node .red stored (node .black spareStored spareLeft spareEntry spareRight) leftEntry
        (rep .black leftRight entry (node .red rightStored rightLeft rightEntry rightRight)) := by
  simp [moveRedRight, Color.opposite, setColor, rotateRight, rep]

/-- A node opened to the left: the child is ready, and once it has lost an entry it is enough
    to put the node right. The entry that was at the node is still there or on that side. -/
structure LeftOpen (own : Key × α) (color : Color) (blacks : Nat) (n : LlrbNode Key α) :
    Prop where
  passed : n.key = some own.1 ∨ own ∈ n.left.toList
  opened : ∃ color' blacks', Ready n.left color' blacks' ∧
    ∀ left', Shrunk color' blacks' left' → Shrunk color blacks (n.setLeft left').fixUp

/-- The only ready node without a child to the left has none at all. -/
inductive Lone {Key α : Type} : LlrbNode Key α → Color → Nat → Prop where
  | lone {own : Key × α} {stored : Nat} :
      Lone (node .red stored (leaf .black) own (leaf .black)) .red 0

theorem Ready.borrowLeft (ready : Ready (node color stored left entry right) color' blacks) :
    Lone (node color stored left entry right) color' blacks ∨
      left.isEmpty = false ∧
        LeftOpen entry color' blacks (node color stored left entry right).borrowLeft := by
  cases ready with
  | leftward left_balanced right_balanced =>
      have kept : (node .black stored left entry right).borrowLeft =
          node .black stored left entry right := if_neg (by simp [left_balanced.red_red])
      rw [kept]
      refine .inr ⟨by cases left_balanced; rfl, .inl rfl, _, _, left_balanced.ready, ?_⟩
      rintro left' ⟨color', left_balanced', -⟩
      obtain ⟨_, after, same⟩ := left_balanced'.fixUp_black right_balanced
      rw [same (.inr rfl)] at after
      exact .of_black after
  | red left_balanced right_balanced =>
      cases left_balanced with
      | leaf =>
          cases right_balanced with
          | leaf => exact .inl .lone
      | @black leftLeft leftRight _ _ _ leftColor outer inner =>
          refine .inr ⟨rfl, ?_⟩
          cases leftColor with
          | red =>
              rw [LlrbNode.borrowLeft, if_neg (by simp [outer.red_red])]
              refine ⟨.inl rfl, _, _, .leftward outer inner, fun left' shrunk => ?_⟩
              exact .of_red (shrunk.black.fixUp_red right_balanced)
          | black =>
              rw [LlrbNode.borrowLeft, if_pos (by simp [isEmpty, outer.black_red])]
              cases right_balanced with
              | @black _ _ _ _ _ rightColor near far =>
                  cases rightColor with
                  | black =>
                      rw [moveRedLeft_flat near.black_red]
                      refine ⟨.inl rfl, _, _, .red outer inner, ?_⟩
                      rintro left' ⟨color', left_balanced', -⟩
                      obtain ⟨_, after, -⟩ := left_balanced'.fixUp_black (.red near far)
                      exact .of_red after
                  | red =>
                      -- The node's own entry goes down with the child, so it is on that side now.
                      cases near with
                      | red spareLeft spareRight =>
                          rw [moveRedLeft_spare]
                          refine ⟨.inr (by simp [rep]), _, _, .leftward (.red outer inner) spareLeft,
                            fun left' shrunk => ?_⟩
                          exact .of_red (shrunk.black.fixUp_red (.black spareRight far))

section

variable [LinearOrder Key] {key : Key}

/-- Where an erasure of `key` may stand. -/
inductive Prepared {Key α : Type} [LinearOrder Key] (key : Key) :
    LlrbNode Key α → Color → Nat → Prop where
  | leaf : Prepared key (leaf .black) .black 0
  | ready {n : LlrbNode Key α} {color : Color} {blacks : Nat} (ready : Ready n color blacks) :
      Prepared key n color blacks
  | rightward {left right : LlrbNode Key α} {entry : Key × α} {stored blacks : Nat}
      (left_balanced : Balanced left .black blacks) (right_balanced : Balanced right .red blacks)
      (reached : ¬ key < entry.1) :
      Prepared key (node .black stored left entry right) .black (blacks + 1)

/-- A node opened to the right, where its entry may be replaced too. -/
structure RightOpen (key : Key) (own : Key × α) (color : Color) (blacks : Nat)
    (n : LlrbNode Key α) : Prop where
  opened : ∃ color' blacks', Prepared key n.right color' blacks' ∧
    (own ∈ n.right.toList ∨ n.key = some own.1 ∧ Ready n.right color' blacks') ∧
    ∀ entry' right', Shrunk color' blacks' right' →
      Shrunk color blacks ((n.setEntry entry').setRight right').fixUp

theorem Ready.openRight (ready : Ready (node color stored left entry right) color' blacks)
    (reached : ¬ key < entry.1) :
    Lone (node color stored left entry right) color' blacks ∨
      RightOpen key entry color' blacks (node color stored left entry right).openRight := by
  cases ready with
  | leftward left_balanced right_balanced =>
      cases left_balanced with
      | @red leftLeft leftRight leftEntry leftStored _ outer inner =>
          have turned : (node .black stored (node .red leftStored leftLeft leftEntry leftRight)
              entry right).openRight = node .black stored leftLeft leftEntry
                (rep .red leftRight entry right) := by
            simp [LlrbNode.openRight, turnRight, borrowRight, rotateRight, rep]
          rw [turned]
          refine .inr ⟨_, _, .ready (.red inner right_balanced), .inl (by simp), ?_⟩
          rintro entry' right' ⟨color', right_balanced', -⟩
          obtain ⟨_, after, same⟩ := outer.fixUp_black right_balanced'
          rw [same (.inl rfl)] at after
          exact .of_black after
  | red left_balanced right_balanced =>
      have unturned : (node .red stored left entry right).turnRight =
          node .red stored left entry right := if_neg (by simp [left_balanced.black_red])
      rw [LlrbNode.openRight, unturned]
      cases right_balanced with
      | leaf =>
          cases left_balanced with
          | leaf => exact .inl .lone
      | @black rightLeft rightRight _ _ _ rightColor near far =>
          refine .inr ?_
          cases rightColor with
          | red =>
              have near_red := near.red_red
              rw [borrowRight, if_neg (by simp [near_red])]
              refine ⟨_, _, .ready (.leftward near far), .inr ⟨rfl, .leftward near far⟩,
                fun entry' right' shrunk => ?_⟩
              exact .of_red (left_balanced.fixUp_red shrunk.black)
          | black =>
              rw [borrowRight, if_pos (by simp [isEmpty, near.black_red])]
              cases left_balanced with
              | @black _ _ _ _ _ leftColor outer inner =>
                  cases leftColor with
                  | black =>
                      rw [moveRedRight_flat outer.black_red]
                      refine ⟨_, _, .ready (.red near far), .inr ⟨rfl, .red near far⟩, ?_⟩
                      rintro entry' right' ⟨color', right_balanced', -⟩
                      obtain ⟨_, after, -⟩ :=
                        (Balanced.red outer inner).fixUp_black right_balanced'
                      exact .of_red after
                  | red =>
                      -- The one turn after which the child leans to the right.
                      cases outer with
                      | red spareLeft spareRight =>
                          rw [moveRedRight_spare]
                          refine ⟨_, _, .rightward inner (.red near far) reached,
                            .inl (by simp [rep]), fun entry' right' shrunk => ?_⟩
                          exact .of_red
                            ((Balanced.black spareLeft spareRight).fixUp_red shrunk.black)

theorem Prepared.openRight (prepared : Prepared key (node color stored left entry right) color' blacks)
    (reached : ¬ key < entry.1) :
    Lone (node color stored left entry right) color' blacks ∨
      RightOpen key entry color' blacks (node color stored left entry right).openRight := by
  cases prepared with
  | ready ready => exact ready.openRight reached
  | rightward left_balanced right_balanced _ =>
      have kept : (node .black stored left entry right).openRight =
          node .black stored left entry right := by
        simp [LlrbNode.openRight, turnRight, borrowRight, left_balanced.black_red,
          right_balanced.red_red]
      rw [kept]
      refine .inr ⟨_, _, .ready right_balanced.ready, .inr ⟨rfl, right_balanced.ready⟩, ?_⟩
      rintro entry' right' ⟨color', right_balanced', -⟩
      obtain ⟨_, after, same⟩ := left_balanced.fixUp_black right_balanced'
      rw [same (.inl rfl)] at after
      exact .of_black after

end

/-! ## Erasing -/

theorem Ready.toList_ne_nil (ready : Ready n color blacks) : n.toList ≠ [] := by
  cases ready <;> simp

theorem removeMin_open (more : left.isEmpty = false) :
    (node color stored left entry right).removeMin =
      ((node color stored left entry right).borrowLeft.setLeft
        (node color stored left entry right).borrowLeft.left.removeMin).fixUp := by
  rw [removeMin, if_neg]
  simpa using more

theorem Ready.removeMin (ready : Ready n color blacks) :
    Shrunk color blacks n.removeMin ∧ n.removeMin.toList = n.toList.tail := by
  induction count : n.toList.length using Nat.strong_induction_on generalizing n color blacks with
  | h count' ih =>
      subst count
      cases n with
      | leaf => cases ready
      | node color' stored left entry right =>
          rcases ready.borrowLeft with lone | ⟨more, -, c, b, below, fits⟩
          · cases lone with
            | lone =>
                rw [LlrbNode.removeMin]
                exact ⟨.of_red .leaf, rfl⟩
          · obtain ⟨shrunk, rest⟩ := ih _ (borrowLeft_shorter (by simp)) below rfl
            have same := toList_borrowLeft (node color' stored left entry right)
            rw [removeMin_open more, ← same]
            refine ⟨fits _ shrunk, ?_⟩
            generalize (node color' stored left entry right).borrowLeft = opened at below rest
            cases opened with
            | leaf => cases below
            | node =>
                rw [left_node] at below rest
                simp [rest, List.tail_append_of_ne_nil below.toList_ne_nil]

section

variable [LinearOrder Key] {key : Key}

theorem sorted_left (sorted : Sorted n.toList) : Sorted n.left.toList := by
  cases n with
  | leaf => exact sorted
  | node => exact (sorted_around.mp sorted).1

theorem sorted_right (sorted : Sorted n.toList) : Sorted n.right.toList := by
  cases n with
  | leaf => exact sorted
  | node => exact (sorted_around.mp sorted).2.1

/-- The entry of an opened node is no earlier than the one that was there. -/
theorem LeftOpen.erase {own : Key × α} {left' : LlrbNode Key α}
    (leftOpen : LeftOpen own color blacks n) (sorted : Sorted n.toList) (before : key < own.1)
    (erased : left'.toList = SortedMap.erase key n.left.toList) :
    (n.setLeft left').toList = SortedMap.erase key n.toList := by
  cases n with
  | leaf =>
      obtain ⟨_, _, below, _⟩ := leftOpen.opened
      cases below
  | node color' stored left entry right =>
      obtain ⟨-, -, earlier, later⟩ := sorted_around.mp sorted
      have first : key < entry.1 := by
        rcases leftOpen.passed with here | under
        · rw [Option.some.inj here]
          exact before
        · exact before.trans (earlier own under)
      rw [left_node] at erased
      rw [setLeft_node, toList_node, toList_node, erased, erase_before first later]

theorem erase_toRight {own : Key × α} {right' : LlrbNode Key α}
    (passed : own ∈ right.toList ∨ entry.1 = own.1)
    (sorted : Sorted (node color stored left entry right).toList) (reached : ¬ key < own.1)
    (other : entry.1 ≠ key) (erased : right'.toList = SortedMap.erase key right.toList) :
    (node color stored left entry right').toList =
      SortedMap.erase key (node color stored left entry right).toList := by
  obtain ⟨-, -, earlier, later⟩ := sorted_around.mp sorted
  have last : entry.1 < key := by
    rcases passed with under | here
    · exact lt_of_lt_of_le (later own under) (not_lt.mp reached)
    · exact lt_of_le_of_ne (here ▸ not_lt.mp reached) other
  rw [toList_node, toList_node, erased, erase_after earlier last]

theorem Lone.innerErase (lone : Lone n color blacks) :
    Shrunk color blacks (n.innerErase key) ∧
      (n.innerErase key).toList = SortedMap.erase key n.toList := by
  cases lone with
  | @lone own stored =>
      rw [toList_node, SortedMap.erase]
      by_cases before : key < own.1
      · have kept : (node .red stored (leaf .black) own (leaf .black)).borrowLeft =
            node .red stored (leaf .black) own (leaf .black) := rfl
        have different : own.1 ≠ key := ne_of_gt before
        rw [innerErase_before before, kept, left_node, innerErase_leaf]
        exact ⟨.of_red (.red .leaf .leaf), by simp [different]⟩
      · have kept : (node .red stored (leaf .black) own (leaf .black)).openRight =
            node .red stored (leaf .black) own (leaf .black) := rfl
        rw [innerErase_reached before kept, key_node, right_node, innerErase_leaf]
        by_cases here : own.1 = key
        · rw [if_pos (congrArg some here)]
          exact ⟨.of_red .leaf, by simp [here, LlrbNode.min]⟩
        · rw [if_neg (fun same => here (Option.some.inj same))]
          exact ⟨.of_red (.red .leaf .leaf), by simp [here]⟩

/-- An erasure goes through a prepared node, and what it leaves is balanced again. -/
theorem Prepared.innerErase (prepared : Prepared key n color blacks) (sorted : Sorted n.toList) :
    Shrunk color blacks (n.innerErase key) ∧
      (n.innerErase key).toList = SortedMap.erase key n.toList := by
  -- A turned node has the entries it had and its child has fewer, though it is no subtree of `n`.
  induction count : n.toList.length using Nat.strong_induction_on generalizing n color blacks with
  | h count' ih =>
      subst count
      cases n with
      | leaf =>
          rw [innerErase_leaf]
          cases prepared with
          | leaf => exact ⟨.of_black .leaf, rfl⟩
          | ready ready => cases ready
      | node color' stored left entry right =>
          by_cases before : key < entry.1
          · have ready : Ready (node color' stored left entry right) color blacks := by
              cases prepared with
              | ready ready => exact ready
              | rightward _ _ reached => exact absurd before reached
            have same := toList_borrowLeft (node color' stored left entry right)
            rcases ready.borrowLeft with lone | ⟨more, leftOpen⟩
            · exact lone.innerErase
            · obtain ⟨c, b, below, fits⟩ := leftOpen.opened
              rw [← same] at sorted
              obtain ⟨shrunk, erased⟩ := ih _ (borrowLeft_shorter (by simp)) (.ready below)
                (sorted_left sorted) rfl
              rw [innerErase_before before]
              refine ⟨fits _ shrunk, ?_⟩
              rw [toList_fixUp, leftOpen.erase sorted before erased, same]
          · have same := toList_openRight (node color' stored left entry right)
            rcases prepared.openRight before with lone | rightOpen
            · exact lone.innerErase
            · obtain ⟨c, b, below, passed, fits⟩ := rightOpen.opened
              rw [← same] at sorted
              obtain ⟨shrunk, erased⟩ := ih _ (openRight_shorter (by simp)) below
                (sorted_right sorted) rfl
              rw [innerErase_reached before rfl, ← same]
              generalize (node color' stored left entry right).openRight = opened at *
              cases opened with
              | leaf => simp at same
              | node color₁ stored₁ left₁ entry₁ right₁ =>
                  by_cases here : entry₁.1 = key
                  · -- Had the node's entry moved to the right, the key would be there as well.
                    have ready : Ready right₁ c b := by
                      rcases passed with under | ⟨-, ready⟩
                      · obtain ⟨-, -, -, later⟩ := sorted_around.mp sorted
                        exact absurd (later entry under) (here ▸ before)
                      · exact ready
                    obtain ⟨smaller, rest⟩ := ready.removeMin
                    obtain ⟨smallest, later, content⟩ := List.exists_cons_of_ne_nil ready.toList_ne_nil
                    have least : right₁.min = some smallest := by rw [min_eq, content]; rfl
                    rw [key_node, if_pos (congrArg some here), right_node, least]
                    refine ⟨fits smallest _ smaller, ?_⟩
                    rw [toList_node, erase_here sorted here]
                    simp [rest, content]
                  · rw [key_node, if_neg (fun own => here (Option.some.inj own))]
                    refine ⟨fits entry₁ _ shrunk, ?_⟩
                    rw [toList_fixUp]
                    refine erase_toRight (passed.imp id fun own => ?_) sorted before here erased
                    exact Option.some.inj own.1

end

/-! ## At the root

Only the root may be black with two black links. Its own colour decides nothing on the way
down, and in the end it is black: it might as well have been red.
-/

/-- The same but for the colour of the root. -/
def Alike (m n : LlrbNode Key α) : Prop :=
  m.setColor .black = n.setColor .black

section alike

variable {m : LlrbNode Key α}

theorem Alike.cases (alike : Alike m n) :
    (∃ color color', m = leaf color ∧ n = leaf color') ∨
      ∃ color color' stored left entry right,
        m = node color stored left entry right ∧ n = node color' stored left entry right := by
  cases m with
  | leaf =>
      cases n with
      | leaf => exact .inl ⟨_, _, rfl, rfl⟩
      | node => cases alike
  | node =>
      cases n with
      | leaf => cases alike
      | node =>
          cases alike
          exact .inr ⟨_, _, _, _, _, _, rfl, rfl⟩

theorem Alike.sameLeft (alike : Alike m n) : m.left = n.left := by
  rcases alike.cases with ⟨_, _, rfl, rfl⟩ | ⟨_, _, _, _, _, _, rfl, rfl⟩ <;> rfl

theorem Alike.sameRight (alike : Alike m n) : m.right = n.right := by
  rcases alike.cases with ⟨_, _, rfl, rfl⟩ | ⟨_, _, _, _, _, _, rfl, rfl⟩ <;> rfl

theorem Alike.sameKey (alike : Alike m n) : m.key = n.key := by
  rcases alike.cases with ⟨_, _, rfl, rfl⟩ | ⟨_, _, _, _, _, _, rfl, rfl⟩ <;> rfl

theorem Alike.setLeft (alike : Alike m n) (left : LlrbNode Key α) :
    Alike (m.setLeft left) (n.setLeft left) := by
  rcases alike.cases with ⟨_, _, rfl, rfl⟩ | ⟨_, _, _, _, _, _, rfl, rfl⟩ <;> rfl

theorem Alike.setRight (alike : Alike m n) (right : LlrbNode Key α) :
    Alike (m.setRight right) (n.setRight right) := by
  rcases alike.cases with ⟨_, _, rfl, rfl⟩ | ⟨_, _, _, _, _, _, rfl, rfl⟩ <;> rfl

theorem Alike.setEntry (alike : Alike m n) (entry : Key × α) :
    Alike (m.setEntry entry) (n.setEntry entry) := by
  rcases alike.cases with ⟨_, _, rfl, rfl⟩ | ⟨_, _, _, _, _, _, rfl, rfl⟩ <;> rfl

theorem Alike.rotateLeft (alike : Alike m n) : Alike m.rotateLeft n.rotateLeft := by
  rcases alike.cases with ⟨_, _, rfl, rfl⟩ | ⟨_, _, _, _, _, right, rfl, rfl⟩
  · rfl
  · cases right <;> rfl

theorem Alike.rotateRight (alike : Alike m n) : Alike m.rotateRight n.rotateRight := by
  rcases alike.cases with ⟨_, _, rfl, rfl⟩ | ⟨_, _, _, left, _, _, rfl, rfl⟩
  · rfl
  · cases left <;> rfl

theorem Alike.flipColor (alike : Alike m n) : Alike m.flipColor n.flipColor := by
  rcases alike.cases with ⟨_, _, rfl, rfl⟩ | ⟨_, _, _, _, _, _, rfl, rfl⟩ <;> rfl

theorem Alike.fixSize (alike : Alike m n) : Alike m.fixSize n.fixSize := by
  rcases alike.cases with ⟨_, _, rfl, rfl⟩ | ⟨_, _, _, _, _, _, rfl, rfl⟩ <;> rfl

theorem Alike.fixRight (alike : Alike m n) : Alike m.fixRight n.fixRight := by
  rw [LlrbNode.fixRight, LlrbNode.fixRight, alike.sameLeft, alike.sameRight]
  split
  · exact alike.rotateLeft
  · exact alike

theorem Alike.fixLeft (alike : Alike m n) : Alike m.fixLeft n.fixLeft := by
  rw [LlrbNode.fixLeft, LlrbNode.fixLeft, alike.sameLeft]
  split
  · exact alike.rotateRight
  · exact alike

theorem Alike.fixBoth (alike : Alike m n) : Alike m.fixBoth n.fixBoth := by
  rw [LlrbNode.fixBoth, LlrbNode.fixBoth, alike.sameLeft, alike.sameRight]
  split
  · exact alike.flipColor
  · exact alike

theorem Alike.fixUp (alike : Alike m n) : Alike m.fixUp n.fixUp :=
  alike.fixSize.fixRight.fixLeft.fixBoth

theorem Alike.moveRedLeft (alike : Alike m n) : Alike m.moveRedLeft n.moveRedLeft := by
  rw [LlrbNode.moveRedLeft, LlrbNode.moveRedLeft, alike.flipColor.sameRight]
  split
  · exact (alike.flipColor.setRight _).rotateLeft.flipColor
  · exact alike.flipColor

theorem Alike.moveRedRight (alike : Alike m n) : Alike m.moveRedRight n.moveRedRight := by
  rw [LlrbNode.moveRedRight, LlrbNode.moveRedRight, alike.flipColor.sameLeft]
  split
  · exact alike.flipColor.rotateRight.flipColor
  · exact alike.flipColor

theorem Alike.borrowLeft (alike : Alike m n) : Alike m.borrowLeft n.borrowLeft := by
  rw [LlrbNode.borrowLeft, LlrbNode.borrowLeft, alike.sameLeft]
  split
  · exact alike.moveRedLeft
  · exact alike

theorem Alike.turnRight (alike : Alike m n) : Alike m.turnRight n.turnRight := by
  rw [LlrbNode.turnRight, LlrbNode.turnRight, alike.sameLeft]
  split
  · exact alike.rotateRight
  · exact alike

theorem Alike.openRight (alike : Alike m n) : Alike m.openRight n.openRight := by
  rw [LlrbNode.openRight, LlrbNode.openRight, borrowRight, borrowRight, alike.turnRight.sameRight]
  split
  · exact alike.turnRight.moveRedRight
  · exact alike.turnRight

theorem Alike.fixRootColor (alike : Alike m n) : m.fixRootColor = n.fixRootColor := by
  have blackened : ∀ n : LlrbNode Key α, n.fixRootColor = n.setColor .black := by
    intro n
    unfold LlrbNode.fixRootColor
    split
    · rfl
    · cases n with
      | leaf color => cases color <;> simp_all [setColor]
      | node color => cases color <;> simp_all [setColor]
  rw [blackened, blackened]
  exact alike

end alike

section

variable [LinearOrder Key] {key : Key}

theorem Alike.innerErase {m : LlrbNode Key α} (alike : Alike m n) (key : Key) :
    Alike (m.innerErase key) (n.innerErase key) := by
  rcases alike.cases with ⟨_, _, rfl, rfl⟩ | ⟨_, _, _, _, entry, _, rfl, rfl⟩
  · rw [innerErase_leaf, innerErase_leaf]
    rfl
  · by_cases before : key < entry.1
    · rw [innerErase_before before, innerErase_before before, alike.borrowLeft.sameLeft]
      exact (alike.borrowLeft.setLeft _).fixUp
    · rw [innerErase_reached before rfl, innerErase_reached before rfl, alike.openRight.sameKey,
        alike.openRight.sameRight]
      split
      · split
        · rfl
        · exact ((alike.openRight.setEntry _).setRight _).fixUp
      · exact (alike.openRight.setRight _).fixUp

theorem Balanced.erase (balanced : Balanced n .black blacks) (sorted : Sorted n.toList)
    (key : Key) : (∃ blacks', Balanced (n.erase key) .black blacks') ∧
      (n.erase key).toList = SortedMap.erase key n.toList := by
  cases balanced with
  | leaf => exact ⟨⟨0, by rw [LlrbNode.erase, innerErase_leaf]; exact .leaf⟩,
      by rw [LlrbNode.erase, innerErase_leaf]; rfl⟩
  | @black left right entry stored blacks leftColor left_balanced right_balanced =>
      cases leftColor with
      | red =>
          obtain ⟨shrunk, erased⟩ :=
            (Prepared.ready (.leftward left_balanced right_balanced)).innerErase sorted
          exact ⟨(Inserted.balanced shrunk.black).fixRootColor, by rw [LlrbNode.erase, toList_fixRootColor, erased]⟩
      | black =>
          have alike : Alike (node .red stored left entry right) (node .black stored left entry right) :=
            rfl
          obtain ⟨⟨_, shrunk, -⟩, erased⟩ :=
            (Prepared.ready (.red left_balanced right_balanced)).innerErase sorted
          rw [LlrbNode.erase, ← (alike.innerErase key).fixRootColor, toList_fixRootColor]
          exact ⟨(Inserted.balanced shrunk).fixRootColor, erased⟩

end

/-! ## Sizes -/

theorem Sized.below (sized : n.Sized) : n.left.Sized ∧ n.right.Sized := by
  cases n with
  | leaf => exact ⟨trivial, trivial⟩
  | node => exact ⟨sized.1, sized.2.1⟩

theorem Sized.setLeft (sized : n.Sized) (leftSized : left.Sized) : (n.setLeft left).fixUp.Sized := by
  cases n with
  | leaf color => cases color <;> trivial
  | node => exact Sized.fixUp leftSized sized.2.1

theorem Sized.setRight (sized : n.Sized) (rightSized : right.Sized) :
    (n.setRight right).fixUp.Sized := by
  cases n with
  | leaf color => cases color <;> trivial
  | node => exact Sized.fixUp sized.1 rightSized

theorem Sized.setEntry (sized : n.Sized) (entry : Key × α) : (n.setEntry entry).Sized := by
  cases n with
  | leaf => trivial
  | node => exact sized

theorem Sized.rotateBelow (sized : n.Sized) : (n.setRight n.right.rotateRight).Sized := by
  cases n with
  | leaf => trivial
  | node =>
      obtain ⟨leftSized, rightSized, same⟩ := sized
      exact ⟨leftSized, rightSized.rotateRight, by simpa using same⟩

theorem Sized.borrowLeft (sized : n.Sized) : n.borrowLeft.Sized := by
  unfold LlrbNode.borrowLeft
  split
  · unfold moveRedLeft
    split
    · exact sized.flipColor.rotateBelow.rotateLeft.flipColor
    · exact sized.flipColor
  · exact sized

theorem Sized.openRight (sized : n.Sized) : n.openRight.Sized := by
  have turned : n.turnRight.Sized := by
    unfold turnRight
    split
    · exact sized.rotateRight
    · exact sized
  unfold LlrbNode.openRight borrowRight
  split
  · unfold moveRedRight
    split
    · exact turned.flipColor.rotateRight.flipColor
    · exact turned.flipColor
  · exact turned

theorem Sized.removeMin (sized : n.Sized) : n.removeMin.Sized := by
  induction count : n.toList.length using Nat.strong_induction_on generalizing n with
  | h count' ih =>
      subst count
      rw [LlrbNode.removeMin]
      split
      · trivial
      · rename_i more
        have shorter := borrowLeft_shorter (toList_ne_nil_of_left (by simpa using more))
        exact sized.borrowLeft.setLeft (ih _ shorter sized.borrowLeft.below.1 rfl)

theorem Sized.innerErase [LinearOrder Key] (sized : n.Sized) (key : Key) :
    (n.innerErase key).Sized := by
  induction count : n.toList.length using Nat.strong_induction_on generalizing n with
  | h count' ih =>
      subst count
      cases n with
      | leaf =>
          rw [innerErase_leaf]
          trivial
      | node color stored left entry right =>
          by_cases before : key < entry.1
          · rw [innerErase_before before]
            exact sized.borrowLeft.setLeft
              (ih _ (borrowLeft_shorter (by simp)) sized.borrowLeft.below.1 rfl)
          · rw [innerErase_reached before rfl]
            split
            · split
              · trivial
              · exact (sized.openRight.setEntry _).setRight sized.openRight.below.2.removeMin
            · exact sized.openRight.setRight
                (ih _ (openRight_shorter (by simp)) sized.openRight.below.2 rfl)

theorem Sized.fixRootColor (sized : n.Sized) : n.fixRootColor.Sized := by
  unfold LlrbNode.fixRootColor
  split
  · exact sized.setColor _
  · exact sized

end DogFoodTracker.Immutable.LlrbNode
