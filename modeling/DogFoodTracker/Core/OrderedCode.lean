import Mathlib.Data.List.Lex
import Mathlib.Order.Lattice

/-! # Ordered strings

The keys of the local store are bytes, and the store keeps its rows in the order of these
bytes. A string goes into a key with its end marked and with the two bytes escaped that the
mark could be taken for: keys are then in the order of what they were written from, one
component after the other.
-/

namespace DogFoodTracker.Core

/-- What a `std::string` holds. -/
abbrev Bytes := List UInt8

/-- Bytes are unsigned where keys are compared. -/
instance linearOrderByte : LinearOrder UInt8 where
  le_refl := UInt8.le_refl
  le_trans _ _ _ := UInt8.le_trans
  lt_iff_le_not_ge a b := by
    rw [UInt8.lt_iff_toNat_lt, UInt8.le_iff_toNat_le, UInt8.le_iff_toNat_le]
    omega
  le_antisymm _ _ := UInt8.le_antisymm
  le_total := UInt8.le_total
  toDecidableLE := inferInstance

namespace OrderedCode

def kEscape1 : UInt8 := 0x00

/-- With `kEscape1`. -/
def kNullCharacter : UInt8 := 0xff

/-- With `kEscape1`. -/
def kSeparator : UInt8 := 0x01

def kEscape2 : UInt8 := 0xff

/-- With `kEscape2`. -/
def kFFCharacter : UInt8 := 0x00

/-- `EncodeStringFragment`, byte by byte: the source copies at once what is between two
    bytes to escape. -/
def encodeStringFragment (dest : Bytes) : Bytes → Bytes
  | [] => dest
  | c :: s =>
      if c = kEscape1 then encodeStringFragment (dest ++ [kEscape1, kNullCharacter]) s
      else if c = kEscape2 then encodeStringFragment (dest ++ [kEscape2, kFFCharacter]) s
      else encodeStringFragment (dest ++ [c]) s

def writeString (dest s : Bytes) : Bytes :=
  encodeStringFragment dest s ++ [kEscape1, kSeparator]

/-- `ReadStringInternal`: the string after `result`, and what is left to read. -/
def readStringInternal (result : Bytes) : Bytes → Option (Bytes × Bytes)
  | c :: next :: src =>
      if c = kEscape1 then
        if next = kSeparator then some (result, src)
        else if next = kNullCharacter then readStringInternal (result ++ [0x00]) src
        else none
      else if c = kEscape2 then
        -- The other pair is infinity, which is no string.
        if next = kFFCharacter then readStringInternal (result ++ [0xff]) src else none
      else readStringInternal (result ++ [c]) (next :: src)
  -- One byte is too few for the mark of the end.
  | _ => none

def readString (src : Bytes) : Option (Bytes × Bytes) :=
  readStringInternal [] src

variable {s t u v src rest result : Bytes} {c d : UInt8}

/-! ## What is written -/

def escaped (c : UInt8) : Bytes :=
  if c = kEscape1 then [kEscape1, kNullCharacter]
  else if c = kEscape2 then [kEscape2, kFFCharacter]
  else [c]

/-- A string with its end. -/
def encoded : Bytes → Bytes
  | [] => [kEscape1, kSeparator]
  | c :: s => escaped c ++ encoded s

theorem writeString_eq (dest s : Bytes) : writeString dest s = dest ++ encoded s := by
  rw [writeString]
  induction s generalizing dest with
  | nil => rfl
  | cons c s ih =>
      rw [encodeStringFragment, encoded, escaped]
      split
      · rw [ih, List.append_assoc]
      · split
        · rw [ih, List.append_assoc]
        · rw [ih, List.append_assoc]

theorem escaped_cons (c : UInt8) : ∃ more, escaped c = c :: more := by
  unfold escaped
  split
  · rename_i same
    exact ⟨_, by rw [same]⟩
  · split
    · rename_i same
      exact ⟨_, by rw [same]⟩
    · exact ⟨_, rfl⟩

theorem encoded_cons (s : Bytes) : ∃ first more, encoded s = first :: more := by
  cases s with
  | nil => exact ⟨_, _, rfl⟩
  | cons c s =>
      obtain ⟨more, starts⟩ := escaped_cons c
      exact ⟨c, more ++ encoded s, by rw [encoded, starts]; rfl⟩

/-! ## Reading -/

theorem readStringInternal_escaped (result : Bytes) (c : UInt8) (s rest : Bytes) :
    readStringInternal result (escaped c ++ (encoded s ++ rest)) =
      readStringInternal (result ++ [c]) (encoded s ++ rest) := by
  obtain ⟨first, more, starts⟩ := encoded_cons s
  unfold escaped
  split
  · rename_i same
    subst same
    rfl
  · split
    · rename_i same
      subst same
      rfl
    · rename_i plain other
      rw [starts]
      simp [readStringInternal, plain, other]

theorem readStringInternal_encoded (result s rest : Bytes) :
    readStringInternal result (encoded s ++ rest) = some (result ++ s, rest) := by
  induction s generalizing result with
  | nil =>
      rw [List.append_nil]
      rfl
  | cons c s ih =>
      rw [encoded, List.append_assoc, readStringInternal_escaped, ih, List.append_assoc]
      rfl

theorem readString_encoded (s rest : Bytes) :
    readString (encoded s ++ rest) = some (s, rest) :=
  readStringInternal_encoded [] s rest

theorem encoded_of_readStringInternal (found : readStringInternal result src = some (s, rest)) :
    ∃ t, s = result ++ t ∧ src = encoded t ++ rest := by
  fun_induction readStringInternal result src with
  | case1 result src =>
      cases found
      exact ⟨[], (List.append_nil _).symm, rfl⟩
  | case2 result src _ ih =>
      obtain ⟨t, rfl, rfl⟩ := ih found
      exact ⟨kEscape1 :: t, List.append_assoc .., rfl⟩
  | case3 => cases found
  | case4 result src _ ih =>
      obtain ⟨t, rfl, rfl⟩ := ih found
      exact ⟨kEscape2 :: t, List.append_assoc .., rfl⟩
  | case5 => cases found
  | case6 result c next src plain other ih =>
      obtain ⟨t, rfl, same⟩ := ih found
      refine ⟨c :: t, List.append_assoc .., ?_⟩
      rw [encoded, escaped, if_neg plain, if_neg other, List.append_assoc, ← same]
      rfl
  | case7 => cases found

/-- Reading undoes writing, and reads nothing else. -/
theorem readString_eq_some_iff :
    readString src = some (s, rest) ↔ src = encoded s ++ rest := by
  constructor
  · intro found
    obtain ⟨t, rfl, same⟩ := encoded_of_readStringInternal found
    exact same
  · rintro rfl
    exact readString_encoded s rest

example : readString [0x61, 0x00, 0xff, 0x00, 0x01, 0x7f] = some ([0x61, 0x00], [0x7f]) := by
  decide

/-! ## Order -/

theorem escaped_append_lt (c d : UInt8) (u v : Bytes) :
    escaped c ++ u < escaped d ++ v ↔ c < d ∨ c = d ∧ u < v := by
  by_cases same : c = d
  · subst same
    unfold escaped
    split
    · simp
    · split <;> simp
  · obtain ⟨_, starts⟩ := escaped_cons c
    obtain ⟨_, starts'⟩ := escaped_cons d
    rw [starts, starts', List.cons_append, List.cons_append, List.cons_lt_cons_iff]
    simp [same]

/-- The end of a string is below whatever else stands in its place. -/
theorem end_append_lt (d : UInt8) (u v : Bytes) :
    [kEscape1, kSeparator] ++ u < escaped d ++ v := by
  unfold escaped
  split
  · exact List.cons_lt_cons_iff.mpr (.inr ⟨rfl, List.cons_lt_cons_iff.mpr (.inl (by decide))⟩)
  · rename_i plain
    have above : kEscape1 < d := by
      rw [UInt8.lt_iff_toNat_lt]
      exact Nat.pos_of_ne_zero fun zero => plain (UInt8.toNat_inj.mp zero)
    split
    · exact List.cons_lt_cons_iff.mpr (.inl (by decide))
    · exact List.cons_lt_cons_iff.mpr (.inl above)

theorem encoded_append_lt (s t u v : Bytes) :
    encoded s ++ u < encoded t ++ v ↔ s < t ∨ s = t ∧ u < v := by
  induction s generalizing t with
  | nil =>
      cases t with
      | nil => simp [encoded]
      | cons d t =>
          rw [encoded, encoded, List.append_assoc]
          exact iff_of_true (end_append_lt d u _) (.inl (List.nil_lt_cons d t))
  | cons c s ih =>
      cases t with
      | nil =>
          rw [encoded, encoded, List.append_assoc]
          have above := end_append_lt c v (encoded s ++ u)
          simp only [reduceCtorEq, false_and, or_false, List.not_lt_nil, iff_false]
          exact List.lt_asymm above
      | cons d t =>
          rw [encoded, encoded, List.append_assoc, List.append_assoc, escaped_append_lt, ih,
            List.cons_lt_cons_iff, List.cons.injEq]
          tauto

end OrderedCode

end DogFoodTracker.Core
