import RpiUdpStream.LabelledRun

/-!
# Mailboxes

A mailbox holds a set of messages from its opening to its closing.  A message is
put into it, once however often it is put, and a taker that requests some
messages is blocked until one of them is there, and then takes all that are.
What a mailbox holds is read off its history: the messages that were put after
the box was last opened, and not taken since.
-/

namespace Mailbox

open LabelledRun

/-! ## Since -/

section Since

variable {α : Type*} {p : List α → Prop} {q : α → Prop} {item last : α}
variable {items : List α}

/-- At some place the item comes where `p` holds of what is before it, and `q`
holds of all that comes after it. -/
def Since (p : List α → Prop) (item : α) (q : α → Prop) (items : List α) : Prop :=
  ∃ before after, items = before ++ item :: after ∧ p before ∧
    ∀ later ∈ after, q later

theorem not_since_nil : ¬ Since p item q [] := by
  rintro ⟨before, after, hsplit, _⟩
  simp at hsplit

theorem since_concat :
    Since p item q (items ++ [last]) ↔
      (last = item ∧ p items) ∨ (q last ∧ Since p item q items) := by
  constructor
  · rintro ⟨before, after, hsplit, hbefore, hafter⟩
    cases after using List.reverseRecOn with
    | nil =>
        left
        obtain ⟨hitems, hlast⟩ := List.append_inj' hsplit rfl
        rw [hitems]
        exact ⟨List.singleton_inj.mp hlast, hbefore⟩
    | append_singleton after final =>
        right
        have hsame : items ++ [last] = (before ++ item :: after) ++ [final] := by
          simpa using hsplit
        obtain ⟨hitems, hlast⟩ := List.append_inj' hsame rfl
        rw [List.singleton_inj.mp hlast, hitems]
        exact ⟨hafter final (by simp), before, after, rfl, hbefore,
          fun later hlater => hafter later (by simp [hlater])⟩
  · rintro (⟨hitem, hitems⟩ | ⟨hlast, before, after, hsplit, hbefore, hafter⟩)
    · exact ⟨items, [], by rw [hitem], hitems, by simp⟩
    · refine ⟨before, after ++ [last], by simp [hsplit], hbefore, ?_⟩
      intro later hlater
      rcases List.mem_append.mp hlater with hold | hnew
      · exact hafter later hold
      · exact List.mem_singleton.mp hnew ▸ hlast

end Since

/-! ## Histories -/

variable {ε : Type*} {message : ε} {events : List ε}

inductive Event (ε : Type*) where
  | opened
  | put (message : ε)
  | take (requested : Set ε)
  | closed

def Event.keepsBox : Event ε → Prop
  | .opened | .closed => False
  | _ => True

def Event.keeps (message : ε) : Event ε → Prop
  | .put _ => True
  | .take requested => message ∉ requested
  | .opened | .closed => False

def IsOpen (history : List (Event ε)) : Prop :=
  Since (fun _ => True) .opened Event.keepsBox history

def Holds (message : ε) (history : List (Event ε)) : Prop :=
  Since IsOpen (.put message) (Event.keeps message) history

open Classical in
/-- `none` for a taker that is blocked. -/
noncomputable def step : Option (Set ε) → Event ε → Option (Option (Set ε))
  | _, .opened => some (some ∅)
  | box, .put message => some (box.map (insert message))
  | none, .take _ => none
  | some held, .take requested =>
      if (held ∩ requested).Nonempty then some (some (held \ requested)) else none
  | _, .closed => some none

theorem step_take_eq_some_iff {box next : Option (Set ε)} {requested : Set ε} :
    step box (.take requested) = some next ↔
      ∃ held, box = some held ∧ (held ∩ requested).Nonempty ∧
        next = some (held \ requested) := by
  cases box with
  | none => simp [step]
  | some held => simp [step, eq_comm]

/-- A mailbox holds what its history says. -/
theorem run_holds
    {history : List (Event ε)} {box : Option (Set ε)}
    (hrun : runFrom step none history = some box) :
    (box.isSome = true ↔ IsOpen history) ∧
      ∀ message, (∃ held, box = some held ∧ message ∈ held) ↔
        Holds message history := by
  apply runFrom_traceInvariant
    (fun trace state => (state.isSome = true ↔ IsOpen trace) ∧
      ∀ message, (∃ held, state = some held ∧ message ∈ held) ↔
        Holds message trace) ?_ ?_ hrun
  · simp [IsOpen, Holds, not_since_nil]
  · rintro trace state event next _ ⟨hopen, hholds⟩ hstep
    simp only [IsOpen, Holds, since_concat] at hopen hholds ⊢
    cases event with
    | opened =>
        cases hstep
        simp [Event.keepsBox, Event.keeps]
    | closed =>
        cases hstep
        simp [Event.keepsBox, Event.keeps]
    | put found =>
        cases hstep
        constructor
        · simpa [Event.keepsBox] using hopen
        · intro message
          rw [← hholds message, ← hopen]
          cases state with
          | none => simp
          | some held => simp [Event.keeps, eq_comm]
    | take requested =>
        obtain ⟨held, hheld, _, hnext⟩ := step_take_eq_some_iff.mp hstep
        subst hheld hnext
        constructor
        · simpa [Event.keepsBox] using hopen
        · intro message
          rw [← hholds message]
          simp [Event.keeps, and_comm]

end Mailbox
