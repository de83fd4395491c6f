import RpiUdpStream.LabelledRun

/-!
# A buffer with one slot

A value is put into the empty slot and taken out of it before the next one is
put.  What was put, in order, is what was taken, followed by what the slot still
holds.
-/

namespace OneSlot

open LabelledRun

variable {α : Type*}

inductive Event (α : Type*) where
  | put (value : α)
  | take (value : α)
  deriving DecidableEq

def puts (events : List (Event α)) : List α :=
  events.filterMap fun event =>
    match event with
    | .put value => some value
    | .take _ => none

def takes (events : List (Event α)) : List α :=
  events.filterMap fun event =>
    match event with
    | .put _ => none
    | .take value => some value

theorem puts_append (before after : List (Event α)) :
    puts (before ++ after) = puts before ++ puts after :=
  List.filterMap_append ..

theorem takes_append (before after : List (Event α)) :
    takes (before ++ after) = takes before ++ takes after :=
  List.filterMap_append ..

variable [DecidableEq α]

def step : Option α → Event α → Option (Option α)
  | none, .put value => some (some value)
  | some held, .take value => if value = held then some none else none
  | _, _ => none

/-- Nothing is lost, duplicated or reordered. -/
theorem puts_eq_takes_append {slot last : Option α} {events : List (Event α)}
    (hrun : runFrom step slot events = some last) :
    slot.toList ++ puts events = takes events ++ last.toList := by
  apply runFrom_traceInvariant
    (fun trace state => slot.toList ++ puts trace = takes trace ++ state.toList)
    ?_ ?_ hrun
  · simp [puts, takes]
  · intro trace state event next _ hinv hnext
    rw [puts_append, takes_append, ← List.append_assoc, hinv]
    cases state with
    | none =>
        cases event with
        | put value =>
            cases hnext
            simp [puts, takes]
        | take value => contradiction
    | some held =>
        cases event with
        | put value => contradiction
        | take value =>
            simp only [step, Option.ite_none_right_eq_some,
              Option.some.injEq] at hnext
            rcases hnext with ⟨rfl, rfl⟩
            simp [puts, takes]

end OneSlot
