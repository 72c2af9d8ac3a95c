import DogFoodTracker.Firestore.Document
import DogFoodTracker.Stream.Rejection

/-! # The nonce of a sign-in through Apple

`randomNonceString` asks for sixteen random bytes at a time and appends a character for
each byte that is an index of `charset`, until there are as many as asked for.
-/

namespace DogFoodTracker.AppleLogin

open Firestore Rejection

def charset : List Char :=
  "0123456789ABCDEFGHIJKLMNOPQRSTUVXYZabcdefghijklmnopqrstuvwxyz-._".toList

/-- The variables that the loop and the closure inside it share. -/
structure Nonce where
  result : String
  remainingLength : Int
  deriving DecidableEq, Repr

/-- What ends the function other than its result. -/
inductive Failure where
  | precondition
  | fatalError (message : String)
  | trap (trap : Trap)
  deriving DecidableEq, Repr

/-- The closure of `forEach`; its `return` skips one byte. The counter cannot overflow, since
    it only goes down from a positive length. -/
def appendRandom (nonce : Nonce) (random : UInt8) : Except Trap Nonce :=
  if nonce.remainingLength = 0 then .ok nonce
  else if random.toNat < charset.length then
    match charset[random.toNat]? with
    | some character => .ok {
        result := nonce.result.push character
        remainingLength := nonce.remainingLength - 1 }
    | none => .error .index
  else .ok nonce

/-- Sixteen calls, after so many others; `SecRandomCopyBytes` is given by what each call
    delivers, a byte or an error code. -/
def randoms (SecRandomCopyBytes : Nat → Except Int UInt8) (calls : Nat) :
    Except Failure (List UInt8) :=
  (List.range' calls 16).mapM fun call =>
    match SecRandomCopyBytes call with
    | .ok random => .ok random
    | .error errorCode => .error (.fatalError
        s!"Unable to generate nonce. SecRandomCopyBytes failed with OSStatus {errorCode}")

/-- `while remainingLength > 0`, for at most `fuel` batches. -/
def whileLoop (SecRandomCopyBytes : Nat → Except Int UInt8) :
    Nat → Nat → Nonce → Option (Except Failure String)
  | fuel, calls, nonce =>
      if nonce.remainingLength > 0 then
        match fuel with
        | 0 => none
        | fuel + 1 =>
            match randoms SecRandomCopyBytes calls with
            | .error failure => some (.error failure)
            | .ok randoms =>
                match randoms.foldlM appendRandom nonce with
                | .error trap => some (.error (.trap trap))
                | .ok nonce => whileLoop SecRandomCopyBytes fuel (calls + 16) nonce
      else some (.ok nonce.result)

/-- `none` where `fuel` batches are not enough. -/
def randomNonceString (SecRandomCopyBytes : Nat → Except Int UInt8) (fuel : Nat) (length : Int) :
    Option (Except Failure String) :=
  if length > 0 then
    whileLoop SecRandomCopyBytes fuel 0 { result := "", remainingLength := length }
  else some (.error .precondition)

/-- The loop between two bytes: how many calls were made, which bytes of the batch are left,
    and the variables. -/
inductive Passes (SecRandomCopyBytes : Nat → Except Int UInt8) (length : Int) :
    Nat → List UInt8 → Nonce → Prop where
  | start : Passes SecRandomCopyBytes length 0 [] { result := "", remainingLength := length }
  | batch : Passes SecRandomCopyBytes length calls [] nonce → nonce.remainingLength > 0 →
      randoms SecRandomCopyBytes calls = .ok batch →
      Passes SecRandomCopyBytes length (calls + 16) batch nonce
  | byte : Passes SecRandomCopyBytes length calls (random :: left) nonce →
      appendRandom nonce random = .ok next → Passes SecRandomCopyBytes length calls left next

/-- The length when none is given. -/
def defaultLength : Int := 32

/-- The character a byte stands for, if it is accepted. -/
def image (random : UInt8) : Option Char :=
  charset[random.toNat]?

theorem charset_length : charset.length = 64 := by
  decide

theorem charset_nodup : charset.Nodup := by
  decide

theorem isSome_image (random : UInt8) :
    (image random).isSome = decide (random.toNat < charset.length) := by
  rw [Bool.eq_iff_iff, image, isSome_getElem?, decide_eq_true_eq]

theorem existsUnique_image {character : Char} (member : character ∈ charset) :
    ∃! random, image random = some character := by
  obtain ⟨index, inside, rfl⟩ := List.getElem_of_mem member
  have small : index < 256 := by
    rw [charset_length] at inside
    omega
  have index_toNat : (UInt8.ofNat index).toNat = index := UInt8.toNat_ofNat_of_lt' small
  refine ⟨UInt8.ofNat index, ?_, ?_⟩
  · simp [image, index_toNat, List.getElem?_eq_getElem inside]
  · intro random same
    have here : charset[index]? = charset[random.toNat]? :=
      (List.getElem?_eq_getElem inside).trans same.symm
    have equal : index = random.toNat := (List.getElem?_inj inside charset_nodup).mp here
    rw [equal, UInt8.ofNat_toNat]

/-- The index is tested against the same `charset`, and the counter against zero. -/
theorem appendRandom_counts {nonce : Nonce} (counts : 0 ≤ nonce.remainingLength) (random : UInt8) :
    ∃ next, appendRandom nonce random = .ok next ∧ 0 ≤ next.remainingLength := by
  unfold appendRandom
  split
  · exact ⟨nonce, rfl, counts⟩
  · rename_i wanted
    split
    · rename_i inside
      simp only [List.getElem?_eq_getElem inside]
      refine ⟨_, rfl, ?_⟩
      dsimp only
      omega
    · exact ⟨nonce, rfl, counts⟩

section

variable {SecRandomCopyBytes : Nat → Except Int UInt8} {length : Int}

theorem Passes.counts (positive : 0 ≤ length) (passes : Passes SecRandomCopyBytes length calls left nonce) :
    0 ≤ nonce.remainingLength := by
  induction passes with
  | start => exact positive
  | batch _ _ _ ih => exact ih
  | @byte calls random left nonce next _ appended ih =>
      obtain ⟨next', appended', counts⟩ := appendRandom_counts ih random
      rw [appended] at appended'
      cases appended'
      exact counts

theorem Passes.foldlM (passes : Passes SecRandomCopyBytes length calls left nonce)
    (folded : left.foldlM appendRandom nonce = .ok next) :
    Passes SecRandomCopyBytes length calls [] next := by
  induction left generalizing nonce with
  | nil =>
      cases folded
      exact passes
  | cons random left ih =>
      rw [List.foldlM_cons] at folded
      cases appended : appendRandom nonce random with
      | error trap =>
          rw [appended] at folded
          cases folded
      | ok after =>
          rw [appended] at folded
          exact ih (passes.byte appended) folded

/-- What the loop returns is the `result` of a state it passes. -/
theorem whileLoop_passes {result : String} (passes : Passes SecRandomCopyBytes length calls [] nonce)
    (returned : whileLoop SecRandomCopyBytes fuel calls nonce = some (.ok result)) :
    ∃ calls last, Passes SecRandomCopyBytes length calls [] last ∧ last.remainingLength ≤ 0 ∧
      last.result = result := by
  induction fuel generalizing calls nonce with
  | zero =>
      rw [whileLoop] at returned
      split at returned
      · cases returned
      · rename_i ended
        cases returned
        exact ⟨calls, nonce, passes, Int.not_lt.mp ended, rfl⟩
  | succ fuel ih =>
      rw [whileLoop] at returned
      split at returned
      · rename_i wanted
        split at returned
        · cases returned
        · rename_i batch called
          split at returned
          · cases returned
          · rename_i next folded
            exact ih ((passes.batch wanted called).foldlM folded) returned
      · rename_i ended
        cases returned
        exact ⟨calls, nonce, passes, Int.not_lt.mp ended, rfl⟩

end

/-- The variables of the loop, from what rejection sampling has kept and still wants. -/
def ofState (state : List Char × Nat) : Nonce where
  result := String.ofList state.1
  remainingLength := state.2

theorem remainingLength_pos (kept : List Char) (wanted : Nat) :
    (ofState (kept, wanted + 1)).remainingLength > 0 :=
  Int.natCast_pos.mpr wanted.succ_pos

theorem push_ofList (kept : List Char) (character : Char) :
    (String.ofList kept).push character = String.ofList (kept ++ [character]) := by
  apply String.toList_injective
  simp [String.toList_push, String.toList_ofList]

theorem appendRandom_ofState (state : List Char × Nat) (random : UInt8) :
    appendRandom (ofState state) random = .ok (ofState (draw image state random)) := by
  obtain ⟨kept, wanted⟩ := state
  cases wanted with
  | zero => rfl
  | succ wanted =>
      unfold appendRandom
      rw [if_neg (Int.ne_of_gt (remainingLength_pos kept wanted))]
      split
      · rename_i inside
        have accepted : image random = some charset[random.toNat] := List.getElem?_eq_getElem inside
        simp only [List.getElem?_eq_getElem inside, draw, accepted, ofState, push_ofList]
        congr 2
        omega
      · rename_i outside
        have rejected : image random = none := List.getElem?_eq_none (Nat.le_of_not_lt outside)
        simp only [draw, rejected]

theorem foldlM_appendRandom (randoms : List UInt8) (state : List Char × Nat) :
    randoms.foldlM appendRandom (ofState state) = .ok (ofState (randoms.foldl (draw image) state)) := by
  induction randoms generalizing state with
  | nil => rfl
  | cons random randoms ih =>
      rw [List.foldlM_cons, appendRandom_ofState]
      exact ih (draw image state random)

section

variable (bytes : Nat → UInt8)

theorem randoms_window (calls : Nat) :
    randoms (fun call => .ok (bytes call)) calls = .ok (window bytes calls 16) :=
  List.mapM_pure

/-- The loop is batched rejection sampling, sixteen bytes at a time. -/
theorem whileLoop_ofState (fuel calls : Nat) (state : List Char × Nat) :
    whileLoop (fun call => .ok (bytes call)) fuel calls (ofState state) =
      (batches image bytes 16 fuel calls state).map fun kept => .ok (String.ofList kept) := by
  induction fuel generalizing calls state with
  | zero =>
      obtain ⟨kept, wanted⟩ := state
      cases wanted with
      | zero => rfl
      | succ wanted =>
          rw [whileLoop, if_pos (remainingLength_pos kept wanted)]
          rfl
  | succ fuel ih =>
      obtain ⟨kept, wanted⟩ := state
      cases wanted with
      | zero => rfl
      | succ wanted =>
          rw [whileLoop, if_pos (remainingLength_pos kept wanted)]
          simp only [randoms_window, foldlM_appendRandom, batches, ih]

/-- A length of at least one, and a stream with as many bytes below `charset.count`: the loop
    ends, with the characters of the first of them in the order of the stream and the counter
    at zero. On the way no index leaves the charset and the counter is never below zero, and
    each string of the charset comes from one sequence of accepted bytes. -/
theorem randomNonceString_sample (length : Int) (positive : 1 ≤ length) (n : Nat)
    (enough : length ≤
      ((window bytes 0 n).filter fun random => random.toNat < charset.length).length) :
    (∃ nonce : String, (nonce.length : Int) = length ∧
      nonce.toList.map some = (((window bytes 0 n).filter fun random =>
        random.toNat < charset.length).take length.toNat).map image ∧
      (∀ fuel, n ≤ 16 * fuel →
        randomNonceString (fun call => .ok (bytes call)) fuel length = some (.ok nonce)) ∧
      ∃ calls, Passes (fun call => .ok (bytes call)) length calls []
        { result := nonce, remainingLength := 0 }) ∧
    (∀ calls left passed, Passes (fun call => .ok (bytes call)) length calls left passed →
      0 ≤ passed.remainingLength ∧ ∀ random, ∃ next, appendRandom passed random = .ok next) ∧
    ∀ nonce : String, (nonce.length : Int) = length → (∀ character ∈ nonce.toList, character ∈ charset) →
      ∃! accepted : List UInt8, accepted.map image = nonce.toList.map some := by
  have accepts : (fun random : UInt8 => decide (random.toNat < charset.length)) =
      fun random => (image random).isSome := by
    funext random
    exact (isSome_image random).symm
  have wanted : (length.toNat : Int) = length := Int.toNat_of_nonneg (by omega)
  have counted : length.toNat ≤ ((window bytes 0 n).filterMap image).length := by
    rw [List.length_filterMap_eq_countP, List.countP_eq_length_filter, ← accepts]
    omega
  have returns : ∀ fuel, n ≤ 16 * fuel → randomNonceString (fun call => .ok (bytes call)) fuel length =
      some (.ok (String.ofList (sample image length.toNat (window bytes 0 n)))) := by
    intro fuel fits
    have start : ({ result := "", remainingLength := length } : Nonce) = ofState ([], length.toNat) := by
      simp only [ofState, wanted]
    obtain ⟨enough, same⟩ := sample_window fits counted
    rw [randomNonceString, if_pos (by omega), start, whileLoop_ofState, batches_eq_sample enough, same]
    rfl
  refine ⟨⟨String.ofList (sample image length.toNat (window bytes 0 n)), ?_, ?_, returns, ?_⟩, ?_, ?_⟩
  · rw [String.length_ofList, sample, List.length_take_of_le counted, wanted]
  · rw [String.toList_ofList, map_some_sample, accepts]
  · have returned := returns n (by omega)
    rw [randomNonceString, if_pos (by omega)] at returned
    obtain ⟨calls, ⟨result, remainingLength⟩, passes, ended, rfl⟩ := whileLoop_passes .start returned
    have counts : 0 ≤ remainingLength := passes.counts (by omega)
    obtain rfl : remainingLength = 0 := Int.le_antisymm ended counts
    exact ⟨calls, passes⟩
  · intro calls left passed passes
    have counts := passes.counts (by omega)
    refine ⟨counts, fun random => ?_⟩
    obtain ⟨next, appended, -⟩ := appendRandom_counts counts random
    exact ⟨next, appended⟩
  · intro nonce _ members
    exact existsUnique_items fun character member => existsUnique_image (members character member)

end

/-- A stream in which about one byte in four is below `charset.count`. -/
private def multiples (call : Nat) : UInt8 :=
  UInt8.ofNat (37 * call)

theorem randomNonceString_sample_multiples :
    ∃ nonce : String, (nonce.length : Int) = defaultLength ∧
      nonce.toList.map some = (((window multiples 0 144).filter fun random =>
        random.toNat < charset.length).take defaultLength.toNat).map image ∧
      (∀ fuel, 144 ≤ 16 * fuel → randomNonceString (fun call => .ok (multiples call)) fuel
        defaultLength = some (.ok nonce)) ∧
      ∃ calls, Passes (fun call => .ok (multiples call)) defaultLength calls []
        { result := nonce, remainingLength := 0 } :=
  (randomNonceString_sample multiples defaultLength (by decide) 144 (by decide)).1

end DogFoodTracker.AppleLogin
