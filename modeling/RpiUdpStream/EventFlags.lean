import Mathlib.Tactic

/-!
# Event-flag groups

A group is a set of pending events, held as the bits of a word.  Setting an
event adds its bits.  A consuming get with the option "or" waits until one of
the requested bits is pending, reports the requested bits that are (`extra`
stands for further bits that an implementation may report along with them) and
clears the requested ones.

The lemmas say how both operations act on the part of a group that a mask
selects, so that an invariant can speak of that part only.
-/

namespace EventFlags

variable {w : ℕ} {group bits mask requested extra : BitVec w}

def set (group bits : BitVec w) : BitVec w := group ||| bits

/-- The reported bits and the group that is left, or `none` while the caller
is blocked. -/
def getConsume (group requested extra : BitVec w) :
    Option (BitVec w × BitVec w) :=
  if group &&& requested = 0 then none
  else some (group &&& requested ||| extra, group &&& ~~~requested)

theorem getConsume_eq_some_iff {result : BitVec w × BitVec w} :
    getConsume group requested extra = some result ↔
      group &&& requested ≠ 0 ∧
        result = (group &&& requested ||| extra, group &&& ~~~requested) := by
  unfold getConsume
  by_cases hpending : group &&& requested = 0
  · simp [hpending]
  · rw [if_neg hpending, Option.some.injEq]
    exact ⟨fun heq => ⟨hpending, heq.symm⟩, fun hresult => hresult.2.symm⟩

theorem getConsume_eq_none_iff :
    getConsume group requested extra = none ↔ group &&& requested = 0 := by
  simp [getConsume]

theorem set_and_of_disjoint (hdisjoint : bits &&& mask = 0) :
    set group bits &&& mask = group &&& mask := by
  unfold set
  rw [BitVec.and_comm, BitVec.and_or_distrib_left, BitVec.and_comm mask bits,
    hdisjoint, BitVec.and_comm]
  simp

theorem set_and_of_subset (hsubset : bits &&& mask = bits) :
    set group bits &&& mask = group &&& mask ||| bits := by
  unfold set
  rw [BitVec.and_comm, BitVec.and_or_distrib_left, BitVec.and_comm mask bits,
    hsubset, BitVec.and_comm]

theorem set_and_self : set group bits &&& bits = bits := by
  unfold set
  ext i hi
  simp
  exact Or.inr

theorem and_of_subset (hsubset : bits &&& mask = bits) :
    group &&& bits = group &&& mask &&& bits := by
  rw [BitVec.and_assoc, BitVec.and_comm mask bits, hsubset]

theorem consume_and_right :
    group &&& ~~~requested &&& mask = group &&& mask &&& ~~~requested := by
  rw [BitVec.and_assoc, BitVec.and_comm (~~~requested) mask, ← BitVec.and_assoc]

theorem consume_and_of_subset (hsubset : mask &&& requested = mask) :
    group &&& ~~~requested &&& mask = 0 := by
  ext i hi
  have hbit := congrArg (fun word => word.getLsbD i) hsubset
  simp only [BitVec.getLsbD_and] at hbit
  simp
  grind

theorem consume_and_of_disjoint (hdisjoint : mask &&& requested = 0) :
    group &&& ~~~requested &&& mask = group &&& mask := by
  ext i hi
  have hbit := congrArg (fun word => word.getLsbD i) hdisjoint
  simp only [BitVec.getLsbD_and] at hbit
  simp
  grind

theorem and_not_or_left {other : BitVec w} :
    bits &&& ~~~(bits ||| other) = 0 := by
  ext i hi
  simp
  grind

theorem and_or_left_self {other : BitVec w} : bits &&& (bits ||| other) = bits := by
  ext i hi
  simp
  grind

theorem and_or_right_self {other : BitVec w} :
    bits &&& (other ||| bits) = bits := by
  rw [BitVec.or_comm, and_or_left_self]

theorem or_and_of_subset {other : BitVec w} (hbits : bits &&& mask = bits)
    (hother : other &&& mask = other) : (bits ||| other) &&& mask = bits ||| other := by
  rw [BitVec.and_comm, BitVec.and_or_distrib_left, BitVec.and_comm mask bits,
    BitVec.and_comm mask other, hbits, hother]

theorem and_or_ne_zero {other : BitVec w} (hpending : group &&& bits = bits)
    (hbits : bits ≠ 0) : group &&& (bits ||| other) ≠ 0 := by
  rw [BitVec.and_or_distrib_left, hpending]
  intro hnone
  apply hbits
  ext i hi
  have hbit := congrArg (fun word => word.getLsbD i) hnone
  simp only [BitVec.getLsbD_or] at hbit
  simp
  grind

theorem report_and_of_pending (hpending : group &&& bits = bits)
    (hsubset : bits &&& requested = bits) :
    (group &&& requested ||| extra) &&& bits = bits := by
  ext i hi
  have hgroup := congrArg (fun word => word.getLsbD i) hpending
  have hrequested := congrArg (fun word => word.getLsbD i) hsubset
  simp only [BitVec.getLsbD_and] at hgroup hrequested
  simp
  grind

theorem report_and_not :
    (group &&& (requested ||| bits) ||| extra) &&& ~~~bits =
      (group &&& requested ||| extra) &&& ~~~bits := by
  ext i hi
  simp
  grind

/-- A report that contains the bits `bits` consists of them alone exactly when
nothing else is reported. -/
theorem report_eq_iff_of_subset
    {report : BitVec w} (hsubset : report &&& bits = bits) :
    report = bits ↔ report &&& ~~~bits = 0 := by
  constructor
  · intro heq
    rw [heq]
    simp
  · intro hnone
    calc
      report = report &&& (bits ||| ~~~bits) := by simp
      _ = (report &&& bits) ||| (report &&& ~~~bits) :=
        BitVec.and_or_distrib_left
      _ = bits := by rw [hsubset, hnone]; simp

/-! ## The events that a group holds -/

section Pending

variable {ε : Type*} {flag : ε → BitVec w}

/-- Every event has bits of its own. -/
structure Separate (flag : ε → BitVec w) : Prop where
  ne_zero : ∀ event, flag event ≠ 0
  disjoint : ∀ event other, event ≠ other → flag event &&& flag other = 0

def pending (flag : ε → BitVec w) (group : BitVec w) : Set ε :=
  {event | group &&& flag event ≠ 0}

theorem pending_zero : pending flag 0#w = ∅ := by
  ext event
  simp [pending]

theorem Separate.pending_set (hflag : Separate flag) (event : ε) :
    pending flag (set group (flag event)) = insert event (pending flag group) := by
  ext other
  simp only [pending, Set.mem_ofPred_eq, Set.mem_insert_iff]
  by_cases hsame : other = event
  · subst hsame
    rw [set_and_self]
    exact ⟨fun _ => Or.inl rfl, fun _ => hflag.ne_zero other⟩
  · rw [set_and_of_disjoint (hflag.disjoint event other (Ne.symm hsame))]
    simp [hsame]

theorem Separate.pending_consume (hflag : Separate flag) (event other : ε) :
    pending flag (group &&& ~~~(flag event ||| flag other)) =
      pending flag group \ {event, other} := by
  ext found
  simp only [pending, Set.mem_ofPred_eq, Set.mem_sdiff, Set.mem_insert_iff,
    Set.mem_singleton_iff, not_or]
  by_cases hevent : found = event
  · subst hevent
    rw [consume_and_of_subset and_or_left_self]
    simp
  · by_cases hother : found = other
    · subst hother
      rw [consume_and_of_subset and_or_right_self]
      simp
    · have hnone : flag found &&& (flag event ||| flag other) = 0 := by
        rw [BitVec.and_or_distrib_left, hflag.disjoint found event hevent,
          hflag.disjoint found other hother]
        simp
      rw [consume_and_of_disjoint hnone]
      simp [hevent, hother]

theorem and_or_ne_zero_iff {other : BitVec w} :
    group &&& (bits ||| other) ≠ 0 ↔ group &&& bits ≠ 0 ∨ group &&& other ≠ 0 := by
  rw [BitVec.and_or_distrib_left]
  simp [or_iff_not_imp_left]

theorem pending_inter_nonempty_iff {event other : ε} :
    (pending flag group ∩ {event, other}).Nonempty ↔
      group &&& (flag event ||| flag other) ≠ 0 := by
  rw [and_or_ne_zero_iff]
  constructor
  · rintro ⟨found, hfound, hrequested⟩
    rcases hrequested with heq | heq
    · exact Or.inl (heq ▸ hfound)
    · exact Or.inr (heq ▸ hfound)
  · rintro (hevent | hother)
    · exact ⟨event, hevent, Or.inl rfl⟩
    · exact ⟨other, hother, Or.inr rfl⟩

end Pending

end EventFlags
