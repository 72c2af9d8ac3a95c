import Mathlib.Tactic.TypeStar
import Mathlib.Data.List.Basic

/-! # Rejection sampling

Items of a stream are mapped by `accept` or thrown away until as many are kept as wanted.
Reading the stream in batches, and going on through the rest of a batch once everything
wanted is there, keeps the same items as one pass over the stream.
-/

namespace Rejection

variable {α β : Type*}

/-- What is kept so far and how many are still wanted, after one more item. -/
def draw (accept : α → Option β) : List β × Nat → α → List β × Nat
  | (kept, 0), _ => (kept, 0)
  | (kept, wanted + 1), item =>
      match accept item with
      | some image => (kept ++ [image], wanted)
      | none => (kept, wanted + 1)

/-- The images of the first accepted items, in one pass. -/
def sample (accept : α → Option β) (wanted : Nat) (items : List α) : List β :=
  (items.filterMap accept).take wanted

/-- The items of a stream from a position on. -/
def window (stream : Nat → α) (position size : Nat) : List α :=
  (List.range' position size).map stream

/-- Draw whole batches while something is wanted, and at most `fuel` of them. -/
def batches (accept : α → Option β) (stream : Nat → α) (size : Nat) :
    Nat → Nat → List β × Nat → Option (List β)
  | _, _, (kept, 0) => some kept
  | 0, _, (_, _ + 1) => none
  | fuel + 1, position, (kept, wanted + 1) =>
      batches accept stream size fuel (position + size)
        ((window stream position size).foldl (draw accept) (kept, wanted + 1))

variable {accept : α → Option β} {stream : Nat → α}

theorem foldl_draw (items : List α) (kept : List β) (wanted : Nat) :
    items.foldl (draw accept) (kept, wanted) =
      (kept ++ sample accept wanted items, wanted - (items.filterMap accept).length) := by
  induction items generalizing kept wanted with
  | nil => simp [sample]
  | cons item items ih =>
      cases wanted with
      | zero => simpa [draw, sample] using ih kept 0
      | succ wanted =>
          cases accepted : accept item with
          | none => simpa [draw, sample, accepted] using ih kept (wanted + 1)
          | some image => simpa [draw, sample, accepted] using ih (kept ++ [image]) wanted

theorem window_add (position first second : Nat) :
    window stream position (first + second) =
      window stream position first ++ window stream (position + first) second := by
  simp only [window, ← List.map_append, List.range'_append_1]

theorem sample_append (wanted : Nat) (first second : List α) :
    sample accept wanted (first ++ second) = sample accept wanted first ++
      sample accept (wanted - (first.filterMap accept).length) second := by
  simp only [sample, List.filterMap_append, List.take_append]

/-- Nothing is taken from behind a window that has enough. -/
theorem sample_window {position wanted n m : Nat} (fits : n ≤ m)
    (enough : wanted ≤ ((window stream position n).filterMap accept).length) :
    wanted ≤ ((window stream position m).filterMap accept).length ∧
      sample accept wanted (window stream position m) =
        sample accept wanted (window stream position n) := by
  obtain ⟨rest, rfl⟩ := Nat.exists_eq_add_of_le fits
  rw [window_add]
  constructor
  · rw [List.filterMap_append, List.length_append]
    omega
  · rw [sample_append, Nat.sub_eq_zero_of_le enough]
    simp [sample]

theorem batches_eq_sample {size fuel position wanted : Nat} {kept : List β}
    (enough : wanted ≤ ((window stream position (size * fuel)).filterMap accept).length) :
    batches accept stream size fuel position (kept, wanted) =
      some (kept ++ sample accept wanted (window stream position (size * fuel))) := by
  induction fuel generalizing position wanted kept with
  | zero =>
      have nothing : wanted = 0 := by simpa [window] using enough
      subst nothing
      simp [batches, sample]
  | succ fuel ih =>
      cases wanted with
      | zero => simp [batches, sample]
      | succ wanted =>
          have split : size * (fuel + 1) = size + size * fuel := by rw [Nat.mul_succ, Nat.add_comm]
          rw [split, window_add] at enough ⊢
          rw [List.filterMap_append, List.length_append] at enough
          rw [batches, foldl_draw, ih (by omega), sample_append, List.append_assoc]

/-- The images are those of the items that a filter would have let through. -/
theorem map_some_sample (wanted : Nat) (items : List α) :
    (sample accept wanted items).map some =
      ((items.filter fun item => (accept item).isSome).take wanted).map accept := by
  induction items generalizing wanted with
  | nil => simp [sample]
  | cons item items ih =>
      cases accepted : accept item with
      | none => simpa [sample, accepted] using ih wanted
      | some image =>
          cases wanted with
          | zero => simp [sample]
          | succ wanted => simpa [sample, accepted] using ih wanted

/-- Where each image has one item, so has each list of images one list of items. -/
theorem existsUnique_items {images : List β}
    (one : ∀ image ∈ images, ∃! item, accept item = some image) :
    ∃! items : List α, items.map accept = images.map some := by
  induction images with
  | nil => exact ⟨[], rfl, fun _ none => List.map_eq_nil_iff.mp none⟩
  | cons image images ih =>
      obtain ⟨item, accepted, only⟩ := one image (by simp)
      obtain ⟨items, mapped, unique⟩ := ih fun other member => one other (by simp [member])
      refine ⟨item :: items, by simp [accepted, mapped], ?_⟩
      intro others same
      cases others with
      | nil => cases same
      | cons other others =>
          obtain ⟨head, tail⟩ := List.cons.inj same
          rw [only other head, unique others tail]

end Rejection
