import DogFoodTracker.Transition.Runs
import Mathlib.Data.List.Perm.Basic
import Mathlib.Logic.Function.Basic

/-! # Calls that read a store in one step and write it in a later one

A call looks at the store, computes what to write, and writes it when other calls
may have stepped in between. Nothing here makes the two steps atomic. When no call
reads while a conflicting one still has its write ahead of it, every write lands
on the store its call looked at, and the calls are serializable in the order in
which they finish.
-/

namespace Transition.TwoStep

variable {σ κ τ Call : Type*}

/-- What looking at the store comes to: `κ` is what the call will write. -/
inductive Outcome (κ τ : Type*) where
  | nothing
  | write (what : κ)
  | fail (why : τ)
  deriving DecidableEq

/-- Where a call stands between its steps. -/
inductive Phase (κ τ : Type*) where
  | idle
  | reading
  | writing (what : κ)
  | done
  | failed (why : τ)
  deriving DecidableEq

/-- The phase a call enters after looking at the store. -/
def Outcome.phase : Outcome κ τ → Phase κ τ
  | .nothing => .done
  | .write what => .writing what
  | .fail why => .failed why

theorem Outcome.phase_eq_writing {outcome : Outcome κ τ} {what : κ} :
    outcome.phase = .writing what ↔ outcome = .write what := by
  cases outcome <;> simp [Outcome.phase]

theorem Outcome.phase_eq_failed {outcome : Outcome κ τ} {why : τ} :
    outcome.phase = .failed why ↔ outcome = .fail why := by
  cases outcome <;> simp [Outcome.phase]

/-- The two halves of every call. -/
structure Halves (σ Call κ τ : Type*) where
  look : Call → σ → Outcome κ τ
  put : Call → κ → σ → σ

/-- The store together with the phase of every call. -/
structure State (σ Call κ τ : Type*) where
  store : σ
  phase : Call → Phase κ τ

inductive Action (Call : Type*) where
  | start (call : Call)
  | read (call : Call)
  | write (call : Call)
  deriving DecidableEq

/-- The call an action belongs to. -/
def Action.call : Action Call → Call
  | .start call | .read call | .write call => call

/-- Both halves of one call with nothing in between. -/
def atomic (halves : Halves σ Call κ τ) (store : σ) (call : Call) : Option σ :=
  match halves.look call store with
  | .nothing => some store
  | .write what => some (halves.put call what store)
  | .fail _ => none

/-- The calls a schedule starts, in order. -/
def started (actions : List (Action Call)) : List Call :=
  actions.filterMap fun
    | .start call => some call
    | _ => none

section Steps

variable [DecidableEq Call]

def State.become (s : State σ Call κ τ) (call : Call) (phase : Phase κ τ) : State σ Call κ τ :=
  { s with phase := Function.update s.phase call phase }

@[simp] theorem State.become_self (s : State σ Call κ τ) (call : Call) (phase : Phase κ τ) :
    (s.become call phase).phase call = phase := Function.update_self ..

theorem State.become_other (s : State σ Call κ τ) {call other : Call} (phase : Phase κ τ)
    (different : other ≠ call) : (s.become call phase).phase other = s.phase other :=
  Function.update_of_ne different ..

/-- What holds of the phase a call enters and of every other call's phase holds of all. -/
theorem State.forall_become {P : Call → Phase κ τ → Prop} {s : State σ Call κ τ} {call : Call}
    {phase : Phase κ τ} (own : P call phase)
    (others : ∀ other, other ≠ call → P other (s.phase other)) :
    ∀ other, P other ((s.become call phase).phase other) :=
  (Function.forall_update_iff s.phase P).mpr ⟨own, others⟩

theorem State.become_comm (s : State σ Call κ τ) {call other : Call} (phase phase' : Phase κ τ)
    (different : call ≠ other) :
    (s.become call phase).become other phase' = (s.become other phase').become call phase := by
  simp only [State.become, Function.update_comm different]

def step (halves : Halves σ Call κ τ) (s : State σ Call κ τ) :
    Action Call → Option (State σ Call κ τ)
  | .start call =>
      match s.phase call with
      | .idle => some (s.become call .reading)
      | _ => none
  | .read call =>
      match s.phase call with
      | .reading => some (s.become call (halves.look call s.store).phase)
      | _ => none
  | .write call =>
      match s.phase call with
      | .writing what => some { s.become call .done with store := halves.put call what s.store }
      | _ => none

/-- Everything a step can do. -/
theorem step_cases {halves : Halves σ Call κ τ} {s t : State σ Call κ τ} {a : Action Call}
    (taken : step halves s a = some t) :
    (∃ call, a = .start call ∧ s.phase call = .idle ∧ t = s.become call .reading) ∨
    (∃ call, a = .read call ∧ s.phase call = .reading ∧
      t = s.become call (halves.look call s.store).phase) ∨
    (∃ call what, a = .write call ∧ s.phase call = .writing what ∧
      t = { s.become call .done with store := halves.put call what s.store }) := by
  cases a with
  | start call =>
      simp only [step] at taken
      split at taken
      · exact .inl ⟨call, rfl, ‹_›, (Option.some.inj taken).symm⟩
      · cases taken
  | read call =>
      simp only [step] at taken
      split at taken
      · exact .inr (.inl ⟨call, rfl, ‹_›, (Option.some.inj taken).symm⟩)
      · cases taken
  | write call =>
      simp only [step] at taken
      split at taken
      · exact .inr (.inr ⟨call, _, rfl, ‹_›, (Option.some.inj taken).symm⟩)
      · cases taken

/-- The phase of a call changes only by the call's own steps. -/
theorem phase_origin {halves : Halves σ Call κ τ} {s t : State σ Call κ τ} {a : Action Call}
    (taken : step halves s a = some t) (call : Call) :
    (t.phase call = s.phase call ∧ a ≠ .start call) ∨
    (a = .start call ∧ t.phase call = .reading) ∨
    (a = .read call ∧ s.phase call = .reading ∧
      t.phase call = (halves.look call s.store).phase) ∨
    (a = .write call ∧ (∃ what, s.phase call = .writing what) ∧ t.phase call = .done) := by
  rcases step_cases taken with ⟨c, rfl, idle, rfl⟩ | ⟨c, rfl, reading, rfl⟩ | ⟨c, k, rfl, writing, rfl⟩
  · by_cases same : call = c
    · subst same
      exact .inr (.inl ⟨rfl, State.become_self ..⟩)
    · exact .inl ⟨State.become_other _ _ same, fun h => same (Action.start.inj h).symm⟩
  · by_cases same : call = c
    · subst same
      exact .inr (.inr (.inl ⟨rfl, reading, State.become_self ..⟩))
    · exact .inl ⟨State.become_other _ _ same, fun h => nomatch h⟩
  · by_cases same : call = c
    · subst same
      exact .inr (.inr (.inr ⟨rfl, ⟨k, writing⟩, State.become_self ..⟩))
    · exact .inl ⟨State.become_other _ _ same, fun h => nomatch h⟩

/-- A call is about to write what it was about to write before, or what it has just
    computed from the store. -/
theorem writing_origin {halves : Halves σ Call κ τ} {s t : State σ Call κ τ} {a : Action Call}
    (taken : step halves s a = some t) {call : Call} {what : κ}
    (writing : t.phase call = .writing what) :
    s.phase call = .writing what ∨ (a = .read call ∧ halves.look call s.store = .write what) := by
  rcases phase_origin taken call with ⟨same, -⟩ | ⟨-, same⟩ | ⟨rfl, -, same⟩ | ⟨-, -, same⟩
  · exact .inl (same.symm.trans writing)
  · exact nomatch same.symm.trans writing
  · exact .inr ⟨rfl, Outcome.phase_eq_writing.mp (same.symm.trans writing)⟩
  · exact nomatch same.symm.trans writing

/-- A call has failed before, or fails on the current store. -/
theorem failed_origin {halves : Halves σ Call κ τ} {s t : State σ Call κ τ} {a : Action Call}
    (taken : step halves s a = some t) {call : Call} {why : τ}
    (failed : t.phase call = .failed why) :
    s.phase call = .failed why ∨ (a = .read call ∧ halves.look call s.store = .fail why) := by
  rcases phase_origin taken call with ⟨same, -⟩ | ⟨-, same⟩ | ⟨rfl, -, same⟩ | ⟨-, -, same⟩
  · exact .inl (same.symm.trans failed)
  · exact nomatch same.symm.trans failed
  · exact .inr ⟨rfl, Outcome.phase_eq_failed.mp (same.symm.trans failed)⟩
  · exact nomatch same.symm.trans failed

/-- The store changes only by the write of a call that was about to make it. -/
theorem store_origin {halves : Halves σ Call κ τ} {s t : State σ Call κ τ} {a : Action Call}
    (taken : step halves s a = some t) :
    t.store = s.store ∨ ∃ call what, a = .write call ∧ s.phase call = .writing what ∧
      t.store = halves.put call what s.store := by
  rcases step_cases taken with ⟨c, rfl, _, rfl⟩ | ⟨c, rfl, _, rfl⟩ | ⟨c, k, rfl, writing, rfl⟩
  · exact .inl rfl
  · exact .inl rfl
  · exact .inr ⟨c, k, rfl, writing, rfl⟩

/-- A call leaves `idle` by being started, and never comes back to it. -/
theorem step_idle {halves : Halves σ Call κ τ} {s t : State σ Call κ τ} {a : Action Call}
    (taken : step halves s a = some t) (call : Call) :
    t.phase call = .idle ↔ s.phase call = .idle ∧ a ≠ .start call := by
  rcases phase_origin taken call with ⟨same, other⟩ | ⟨rfl, same⟩ | ⟨rfl, reading, same⟩ |
      ⟨rfl, ⟨what, writing⟩, same⟩
  · simp [same, other]
  · simp [same]
  · cases outcome : halves.look call s.store <;> simp [same, outcome, reading, Outcome.phase]
  · simp [same, writing]

theorem not_idle {halves : Halves σ Call κ τ} {s t : State σ Call κ τ}
    {actions : List (Action Call)} (run : Runs (step halves) s actions t) {call : Call}
    (busy : s.phase call ≠ .idle) : t.phase call ≠ .idle :=
  run.invariant (fun s => s.phase call ≠ .idle)
    (fun _ _ _ before taken back => before ((step_idle taken call).mp back).1) busy

/-- A schedule starts no call twice, and starts exactly the calls that leave `idle`. -/
theorem started_spec {halves : Halves σ Call κ τ} {s t : State σ Call κ τ}
    {actions : List (Action Call)} (run : Runs (step halves) s actions t) :
    (started actions).Nodup ∧
      ∀ call, call ∈ started actions ↔ s.phase call = .idle ∧ t.phase call ≠ .idle := by
  induction run with
  | done => exact ⟨List.nodup_nil, fun call => by simp [started]⟩
  | @next s a s₁ rest t taken later ih =>
      obtain ⟨distinct, members⟩ := ih
      cases a with
      | start call =>
          have head : started (.start call :: rest) = call :: started rest := rfl
          have idle : s.phase call = .idle := by
            rcases step_cases taken with ⟨c, same, idle, -⟩ | ⟨c, same, -⟩ | ⟨c, _, same, -⟩ <;>
              cases same
            exact idle
          have busy : s₁.phase call ≠ .idle := fun back => ((step_idle taken call).mp back).2 rfl
          refine ⟨head ▸ List.nodup_cons.mpr ⟨fun h => busy ((members call).mp h).1, distinct⟩, ?_⟩
          intro c
          rw [head, List.mem_cons, members, step_idle taken c]
          by_cases same : c = call
          · simp [same, idle, not_idle later busy]
          · simp [same, Ne.symm same]
      | read call | write call =>
          refine ⟨distinct, fun c => ?_⟩
          rw [show started (_ :: rest) = started rest from rfl, members, step_idle taken c]
          simp

theorem step_start {halves : Halves σ Call κ τ} {s : State σ Call κ τ} {call : Call}
    (idle : s.phase call = .idle) : step halves s (.start call) = some (s.become call .reading) := by
  simp only [step, idle]

theorem step_read {halves : Halves σ Call κ τ} {s : State σ Call κ τ} {call : Call}
    (reading : s.phase call = .reading) :
    step halves s (.read call) = some (s.become call (halves.look call s.store).phase) := by
  simp only [step, reading]

theorem step_write {halves : Halves σ Call κ τ} {s : State σ Call κ τ} {call : Call} {what : κ}
    (writing : s.phase call = .writing what) :
    step halves s (.write call) =
      some { s.become call .done with store := halves.put call what s.store } := by
  simp only [step, writing]

/-- What an action makes of its own call's phase and of the store. -/
def advance (halves : Halves σ Call κ τ) (store : σ) :
    Action Call → Phase κ τ → Option (Phase κ τ × σ)
  | .start _, .idle => some (.reading, store)
  | .read call, .reading => some ((halves.look call store).phase, store)
  | .write call, .writing what => some (.done, halves.put call what store)
  | _, _ => none

theorem step_eq_advance {halves : Halves σ Call κ τ} {s : State σ Call κ τ} {a : Action Call} :
    step halves s a = (advance halves s.store a (s.phase a.call)).map fun (phase, store) =>
      { s.become a.call phase with store } := by
  cases a with
  | start call | read call | write call =>
      cases phase : s.phase call <;> simp [step, advance, Action.call, phase, State.become]

omit [DecidableEq Call] in
theorem advance_comm {halves : Halves σ Call κ τ} {store store₁ store₂ : σ} {a b : Action Call}
    {atA atB phase phase' : Phase κ τ}
    (blind : ∀ what, atA = .writing what →
      halves.look b.call (halves.put a.call what store) = halves.look b.call store)
    (blind' : ∀ what, atB = .writing what →
      halves.look a.call (halves.put b.call what store) = halves.look a.call store)
    (commute : ∀ what what', atA = .writing what → atB = .writing what' →
      halves.put b.call what' (halves.put a.call what store) =
        halves.put a.call what (halves.put b.call what' store))
    (first : advance halves store a atA = some (phase, store₁))
    (second : advance halves store₁ b atB = some (phase', store₂)) :
    ∃ store', advance halves store b atB = some (phase', store') ∧
      advance halves store' a atA = some (phase, store₂) := by
  unfold advance at first
  split at first <;> cases first <;> unfold advance at second <;> split at second <;>
    cases second <;> simp_all [advance, Action.call]

/-- Steps of two calls that neither see nor overwrite each other's writes commute. -/
theorem step_comm {halves : Halves σ Call κ τ} {s t u : State σ Call κ τ} {a b : Action Call}
    (different : a.call ≠ b.call)
    (blind : ∀ what, s.phase a.call = .writing what →
      halves.look b.call (halves.put a.call what s.store) = halves.look b.call s.store)
    (blind' : ∀ what, s.phase b.call = .writing what →
      halves.look a.call (halves.put b.call what s.store) = halves.look a.call s.store)
    (commute : ∀ what what', s.phase a.call = .writing what → s.phase b.call = .writing what' →
      halves.put b.call what' (halves.put a.call what s.store) =
        halves.put a.call what (halves.put b.call what' s.store))
    (first : step halves s a = some t) (second : step halves t b = some u) :
    ∃ t', step halves s b = some t' ∧ step halves t' a = some u := by
  rw [step_eq_advance, Option.map_eq_some_iff] at first
  obtain ⟨⟨phase, store₁⟩, advanced, rfl⟩ := first
  rw [step_eq_advance, Option.map_eq_some_iff] at second
  obtain ⟨⟨phase', store₂⟩, advanced', rfl⟩ := second
  have untouched : (s.become a.call phase).phase b.call = s.phase b.call :=
    State.become_other s phase (Ne.symm different)
  have untouched' : (s.become b.call phase').phase a.call = s.phase a.call :=
    State.become_other s phase' different
  obtain ⟨store', early, late⟩ :=
    advance_comm blind blind' commute advanced (untouched ▸ advanced')
  refine ⟨{ s.become b.call phase' with store := store' }, ?_, ?_⟩
  · rw [step_eq_advance, early, Option.map_some]
  · rw [step_eq_advance]
    simp only [untouched', late, Option.map_some]
    exact congrArg (fun s' : State σ Call κ τ => some { s' with store := store₂ })
      (State.become_comm s phase phase' different).symm

end Steps

section Serializability

variable [DecidableEq Call] (halves : Halves σ Call κ τ) (conflict : Call → Call → Prop)

/-- A call reads only while no conflicting call still has its write ahead of it. -/
def ReadsAlone (s : State σ Call κ τ) : Action Call → Prop
  | .read call => ∀ other what, s.phase other = .writing what → ¬ conflict call other
  | _ => True

/-- Calls that do not conflict do not see what the other writes. -/
structure Independent : Prop where
  symm : ∀ c d, conflict c d → conflict d c
  look : ∀ c d what store, ¬ conflict c d → halves.look d store = .write what →
    halves.look c (halves.put d what store) = halves.look c store

/-- The invariant of a run without overlapping reads: the store is the one reached
    by the finished calls one at a time, and every call about to write would
    compute the same from the current store. -/
structure Serial (origin : σ) (finished : List Call) (s : State σ Call κ τ) : Prop where
  reached : Runs (atomic halves) origin finished s.store
  distinct : finished.Nodup
  members : ∀ c, c ∈ finished ↔ s.phase c = .done
  current : ∀ c what, s.phase c = .writing what → halves.look c s.store = .write what
  apart : ∀ c d what other, c ≠ d → s.phase c = .writing what → s.phase d = .writing other →
    ¬ conflict c d

variable {halves conflict}

/-- A call moves on without finishing. If it is about to write, it has looked at
    the current store and no conflicting call is about to write too. -/
theorem Serial.move {origin finished} {s : State σ Call κ τ} {call : Call} {phase : Phase κ τ}
    (serial : Serial halves conflict origin finished s)
    (independent : Independent halves conflict)
    (before : s.phase call ≠ .done) (after : phase ≠ .done)
    (fresh : ∀ what, phase = .writing what → halves.look call s.store = .write what ∧
      ∀ other k, s.phase other = .writing k → ¬ conflict call other) :
    Serial halves conflict origin finished (s.become call phase) where
  reached := serial.reached
  distinct := serial.distinct
  members c := by
    by_cases same : c = call
    · simp [same, serial.members, before, after]
    · rw [State.become_other _ _ same, serial.members]
  current c what writing := by
    by_cases same : c = call
    · subst same
      exact (fresh what (by simpa using writing)).1
    · exact serial.current c what (by rwa [State.become_other _ _ same] at writing)
  apart c d what other different first second := by
    by_cases sameC : c = call
    · subst sameC
      rw [State.become_other _ _ (Ne.symm different)] at second
      exact (fresh what (by simpa using first)).2 d other second
    · rw [State.become_other _ _ sameC] at first
      by_cases sameD : d = call
      · subst sameD
        exact fun clash =>
          (fresh other (by simpa using second)).2 c what first (independent.symm c d clash)
      · rw [State.become_other _ _ sameD] at second
        exact serial.apart c d what other different first second

/-- A call finishes by doing to the current store what it would do alone. -/
theorem Serial.finish {origin finished} {s : State σ Call κ τ} {call : Call}
    (store : σ) (serial : Serial halves conflict origin finished s) (before : s.phase call ≠ .done)
    (alone : atomic halves s.store call = some store)
    (unseen : ∀ c what, c ≠ call → s.phase c = .writing what →
      halves.look c store = halves.look c s.store) :
    Serial halves conflict origin (finished ++ [call])
      { s.become call .done with store := store } where
  reached := serial.reached.append (.single alone)
  distinct := by
    have absent : call ∉ finished := fun member => before ((serial.members call).mp member)
    exact List.nodup_append.mpr ⟨serial.distinct, by simp, fun c member d single => by
      rw [List.mem_singleton.mp single]
      exact fun same => absent (same ▸ member)⟩
  members c := by
    rw [List.mem_append, List.mem_singleton]
    by_cases same : c = call
    · simp [same, State.become]
    · simp [same, State.become, serial.members]
  current c what writing := by
    by_cases same : c = call
    · simp [same, State.become] at writing
    · have earlier : s.phase c = .writing what := by
        simpa [State.become, Function.update_of_ne same] using writing
      exact (unseen c what same earlier).trans (serial.current c what earlier)
  apart c d what other different first second := by
    by_cases sameC : c = call
    · simp [sameC, State.become] at first
    · by_cases sameD : d = call
      · simp [sameD, State.become] at second
      · exact serial.apart c d what other different
          (by simpa [State.become, Function.update_of_ne sameC] using first)
          (by simpa [State.become, Function.update_of_ne sameD] using second)

theorem Serial.step {origin finished} {s t : State σ Call κ τ} {a : Action Call}
    (independent : Independent halves conflict)
    (serial : Serial halves conflict origin finished s) (alone : ReadsAlone conflict s a)
    (taken : step halves s a = some t) :
    ∃ finished', Serial halves conflict origin finished' t := by
  rcases step_cases taken with ⟨call, rfl, idle, rfl⟩ | ⟨call, rfl, reading, rfl⟩ |
      ⟨call, what, rfl, writing, rfl⟩
  · exact ⟨_, serial.move independent (by simp [idle]) (by simp) (by simp)⟩
  · cases outcome : halves.look call s.store with
    | nothing =>
        refine ⟨_, serial.finish s.store (by simp [reading]) ?_ fun _ _ _ _ => rfl⟩
        simp only [atomic, outcome]
    | write what =>
        refine ⟨_, serial.move independent (by simp [reading]) (by simp [Outcome.phase]) ?_⟩
        intro k same
        obtain rfl : what = k := by simpa [Outcome.phase] using same
        exact ⟨outcome, alone⟩
    | fail why =>
        exact ⟨_, serial.move independent (by simp [reading]) (by simp [Outcome.phase])
          (by simp [Outcome.phase])⟩
  · refine ⟨_, serial.finish _ (by simp [writing]) ?_ ?_⟩
    · simp only [atomic, serial.current call what writing]
    · intro c k different pending
      exact independent.look c call what s.store
        (serial.apart c call k what different pending writing) (serial.current call what writing)

/-- Without overlapping reads, a schedule that finishes every call it starts has
    the effect of the same calls one at a time. -/
theorem serializable {s t : State σ Call κ τ} {actions : List (Action Call)}
    (independent : Independent halves conflict) (run : Runs (step halves) s actions t)
    (quiet : ∀ c, s.phase c = .idle) (finished : ∀ c ∈ started actions, t.phase c = .done)
    (alone : Throughout (step halves) (ReadsAlone conflict) s actions) :
    ∃ order, order.Perm (started actions) ∧ Runs (atomic halves) s.store order t.store := by
  have start : ∃ order, Serial halves conflict s.store order s :=
    ⟨[], .done, List.nodup_nil, fun c => by simp [quiet c], fun c what h => by simp [quiet c] at h,
      fun c d what other _ h => by simp [quiet c] at h⟩
  obtain ⟨order, serial⟩ := run.invariant_throughout
    (fun s' => ∃ order, Serial halves conflict s.store order s')
    (fun _ _ _ inv met taken => inv.elim fun _ serial => serial.step independent met taken) alone start
  obtain ⟨distinct, members⟩ := started_spec run
  refine ⟨order, (List.perm_ext_iff_of_nodup serial.distinct distinct).mpr fun c => ?_,
    serial.reached⟩
  rw [serial.members]
  constructor
  · intro done
    exact (members c).mpr ⟨quiet c, by simp [done]⟩
  · exact finished c

end Serializability

end Transition.TwoStep
