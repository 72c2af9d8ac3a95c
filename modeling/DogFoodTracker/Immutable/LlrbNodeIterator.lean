import DogFoodTracker.Immutable.LlrbNode

/-! # Going through a tree

An iterator cannot find its way up from a node, so it keeps the nodes that are still to come
on a stack: each stands for its own entry and what is to the right of it.
-/

namespace DogFoodTracker.Immutable

open SortedMap

variable {Key α : Type}

/-- The top of the stack is first. -/
structure LlrbNodeIterator (Key α : Type) where
  stack : List (LlrbNode Key α)

namespace LlrbNodeIterator

def accumulateLeft : LlrbNode Key α → List (LlrbNode Key α) → List (LlrbNode Key α)
  | .leaf _, stack => stack
  | .node color size left entry right, stack =>
      accumulateLeft left (.node color size left entry right :: stack)

def begin (root : LlrbNode Key α) : LlrbNodeIterator Key α :=
  ⟨accumulateLeft root []⟩

/-- `End`. -/
def pastLast : LlrbNodeIterator Key α := ⟨[]⟩

/-- `none` where the source asserts that this is not the end. -/
def get (it : LlrbNodeIterator Key α) : Option (Key × α) :=
  it.stack.head?.bind LlrbNode.entry

/-- `operator++`, with the same assertion. -/
def next (it : LlrbNodeIterator Key α) : Option (LlrbNodeIterator Key α) :=
  match it.stack with
  | [] => none
  | node :: stack => some ⟨accumulateLeft node.right stack⟩

/-- What the iterator has still to give. -/
def pending (it : LlrbNodeIterator Key α) : List (Key × α) :=
  it.stack.flatMap fun node => node.entry.toList ++ node.right.toList

/-- No leaf is on the stack. -/
def Standing (it : LlrbNodeIterator Key α) : Prop :=
  ∀ node ∈ it.stack, node.isEmpty = false

variable {it : LlrbNodeIterator Key α} {stack : List (LlrbNode Key α)} {n : LlrbNode Key α}

theorem pending_push (node : LlrbNode Key α) :
    pending ⟨node :: stack⟩ = node.entry.toList ++ node.right.toList ++ pending ⟨stack⟩ := by
  simp [pending]

theorem pending_accumulateLeft (n : LlrbNode Key α) (stack : List (LlrbNode Key α)) :
    pending ⟨accumulateLeft n stack⟩ = n.toList ++ pending ⟨stack⟩ := by
  induction n generalizing stack with
  | leaf => rfl
  | node color size left entry right ihl ihr =>
      rw [accumulateLeft, ihl, pending_push]
      simp [LlrbNode.entry]

theorem standing_nil : Standing (⟨[]⟩ : LlrbNodeIterator Key α) := by
  intro node member
  cases member

theorem standing_accumulateLeft (standing : Standing ⟨stack⟩) : Standing ⟨accumulateLeft n stack⟩ := by
  induction n generalizing stack with
  | leaf => exact standing
  | node color size left entry right ihl ihr =>
      apply ihl
      intro node member
      rcases List.mem_cons.mp member with rfl | member
      · rfl
      · exact standing node member

theorem get_eq (standing : it.Standing) : it.get = it.pending.head? := by
  obtain ⟨stack⟩ := it
  cases stack with
  | nil => rfl
  | cons node stack =>
      cases node with
      | leaf => exact absurd (standing _ List.mem_cons_self) (by simp [LlrbNode.isEmpty])
      | node => rfl

/-- Stepping on loses the first entry, and only that. -/
theorem next_spec (standing : it.Standing) {entry : Key × α} {rest : List (Key × α)}
    (first : it.pending = entry :: rest) :
    ∃ after, it.next = some after ∧ after.Standing ∧ after.pending = rest := by
  obtain ⟨stack⟩ := it
  cases stack with
  | nil => cases first
  | cons node stack =>
      cases node with
      | leaf => exact absurd (standing _ List.mem_cons_self) (by simp [LlrbNode.isEmpty])
      | node color size left own right =>
          refine ⟨_, rfl, ?_, ?_⟩
          · exact standing_accumulateLeft fun node member => standing node (List.mem_cons_of_mem _ member)
          · rw [pending_accumulateLeft]
            rw [pending_push] at first
            exact (List.cons.inj first).2

theorem begin_spec (root : LlrbNode Key α) :
    (begin root).Standing ∧ (begin root).pending = root.toList := by
  refine ⟨standing_accumulateLeft standing_nil, ?_⟩
  rw [begin, pending_accumulateLeft]
  exact List.append_nil _

section

variable [LinearOrder Key]

/-- The loop of `LowerBound`: nodes before the key are not kept. -/
def lowerBoundFrom (key : Key) : LlrbNode Key α → List (LlrbNode Key α) → List (LlrbNode Key α)
  | .leaf _, stack => stack
  | .node color size left entry right, stack =>
      match compare key entry.1 with
      | .eq => .node color size left entry right :: stack
      | .lt => lowerBoundFrom key left (.node color size left entry right :: stack)
      | .gt => lowerBoundFrom key right stack

def lowerBound (root : LlrbNode Key α) (key : Key) : LlrbNodeIterator Key α :=
  ⟨lowerBoundFrom key root []⟩

theorem pending_lowerBoundFrom (key : Key) (sorted : Sorted n.toList)
    (stack : List (LlrbNode Key α)) :
    pending ⟨lowerBoundFrom key n stack⟩ = SortedMap.lowerBound key n.toList ++ pending ⟨stack⟩ := by
  induction n generalizing stack with
  | leaf => rfl
  | node color size left entry right ihl ihr =>
      obtain ⟨leftSorted, rightSorted, earlier, later⟩ := sorted_around.mp sorted
      rw [lowerBoundFrom, LlrbNode.toList_node]
      cases order : compare key entry.1 with
      | eq =>
          have same := compare_eq_iff_eq.mp order
          rw [lowerBound_before (by simp [same]), lowerBound_none (by simpa [same] using earlier),
            pending_push]
          simp [LlrbNode.entry]
      | lt =>
          have less := compare_lt_iff_lt.mp order
          rw [lowerBound_before (not_lt_of_gt less)]
          simp only
          rw [ihl leftSorted, pending_push]
          simp [LlrbNode.entry]
      | gt =>
          have greater := compare_gt_iff_gt.mp order
          rw [lowerBound_after earlier greater]
          exact ihr rightSorted stack

theorem standing_lowerBoundFrom (key : Key) (standing : Standing ⟨stack⟩) :
    Standing ⟨lowerBoundFrom key n stack⟩ := by
  induction n generalizing stack with
  | leaf => exact standing
  | node color size left entry right ihl ihr =>
      have pushed : Standing ⟨.node color size left entry right :: stack⟩ := by
        intro node member
        rcases List.mem_cons.mp member with rfl | member
        · rfl
        · exact standing node member
      rw [lowerBoundFrom]
      split
      · exact pushed
      · exact ihl pushed
      · exact ihr standing

theorem lowerBound_spec (key : Key) (sorted : Sorted n.toList) :
    (lowerBound n key).Standing ∧
      (lowerBound n key).pending = SortedMap.lowerBound key n.toList := by
  refine ⟨standing_lowerBoundFrom key standing_nil, ?_⟩
  rw [lowerBound, pending_lowerBoundFrom key sorted]
  exact List.append_nil _

/-- `operator==` compares keys. -/
def same (it other : LlrbNodeIterator Key α) : Bool :=
  it.get.map Prod.fst = other.get.map Prod.fst

/-- The keys from an iterator on, up to another one. `none` is an assertion or no end. -/
def keysUntil (stop : LlrbNodeIterator Key α) : Nat → LlrbNodeIterator Key α → Option (List Key)
  | 0, it => if it.same stop then some [] else none
  | fuel + 1, it =>
      if it.same stop then some []
      else do
        let entry ← it.get
        let after ← it.next
        return entry.1 :: (← keysUntil stop fuel after)

theorem keysUntil_eq {stop : LlrbNodeIterator Key α} {fuel : Nat} {segment : List (Key × α)}
    (standing : it.Standing) (stopStanding : stop.Standing)
    (reaches : it.pending = segment ++ stop.pending) (sorted : Sorted it.pending)
    (enough : segment.length ≤ fuel) :
    keysUntil stop fuel it = some (segment.map Prod.fst) := by
  induction segment generalizing it fuel with
  | nil =>
      have here : it.same stop = true := by
        rw [same, get_eq standing, get_eq stopStanding, reaches]
        simp
      cases fuel <;> simp [keysUntil, here]
  | cons entry rest ih =>
      have first : it.get = some entry := by rw [get_eq standing, reaches]; rfl
      have other : it.same stop = false := by
        rw [same, first, get_eq stopStanding]
        cases final : stop.pending with
        | nil => simp
        | cons last more =>
            rw [reaches, final] at sorted
            have less := (List.pairwise_cons.mp sorted).1 last (by simp)
            simpa using ne_of_lt less
      obtain ⟨after, stepped, afterStanding, remaining⟩ := next_spec standing reaches
      cases fuel with
      | zero => simp at enough
      | succ fuel =>
          rw [reaches] at sorted
          have below := ih afterStanding remaining (remaining ▸ sorted.tail) (by simpa using enough)
          simp [keysUntil, other, first, stepped, below]

end

end LlrbNodeIterator

end DogFoodTracker.Immutable
