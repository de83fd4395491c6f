import Mathlib.Tactic

/-!
# Runs of a machine whose labels carry every outside choice

A machine is a partial step function `step : σ → α → Option σ`: the label
says which party moves and what its environment answers, so that a step is a
function of the state and the label, and a list of labels is one interleaving.
The state of the machine after the list is `runFrom step state labels`.

The rules below carry the inductions over runs: an invariant of the state, of
the state together with the labels performed so far, and of runs whose steps all
meet a guard; a bound on how often a label may still occur; a run to a goal that
a rank leads to; and the simulation of one machine by another.
-/

namespace LabelledRun

variable {σ : Type*} {α : Type*} {step : σ → α → Option σ}

def runFrom (step : σ → α → Option σ) : σ → List α → Option σ
  | state, [] => some state
  | state, label :: rest =>
      match step state label with
      | none => none
      | some next => runFrom step next rest

/-- Every step that the machine takes along the labels meets the guard. -/
def EveryStep (step : σ → α → Option σ) (guard : σ → α → Prop) :
    σ → List α → Prop
  | _, [] => True
  | state, label :: rest =>
      guard state label ∧
        ∀ next, step state label = some next → EveryStep step guard next rest

instance decidableEveryStep (step : σ → α → Option σ) (guard : σ → α → Prop)
    [∀ state label, Decidable (guard state label)] :
    (state : σ) → (labels : List α) →
      Decidable (EveryStep step guard state labels)
  | _, [] => isTrue trivial
  | state, label :: rest =>
      match hstep : step state label with
      | none =>
          decidable_of_iff (guard state label) (by simp [EveryStep, hstep])
      | some next =>
          have := decidableEveryStep step guard next rest
          decidable_of_iff
            (guard state label ∧ EveryStep step guard next rest)
            (by simp [EveryStep, hstep])

@[simp] theorem runFrom_nil (state : σ) :
    runFrom step state [] = some state := rfl

theorem runFrom_cons (state : σ) (label : α) (rest : List α) :
    runFrom step state (label :: rest) =
      (step state label).bind fun next => runFrom step next rest := by
  rw [runFrom]
  cases step state label <;> rfl

theorem runFrom_cons_eq_some
    {state last : σ} {label : α} {rest : List α} :
    runFrom step state (label :: rest) = some last ↔
      ∃ next, step state label = some next ∧
        runFrom step next rest = some last := by
  rw [runFrom_cons, Option.bind_eq_some_iff]

@[simp] theorem runFrom_singleton (state : σ) (label : α) :
    runFrom step state [label] = step state label := by
  rw [runFrom_cons]
  cases step state label <;> rfl

theorem runFrom_append (state : σ) (before after : List α) :
    runFrom step state (before ++ after) =
      (runFrom step state before).bind fun middle =>
        runFrom step middle after := by
  induction before generalizing state with
  | nil => rfl
  | cons label rest ih =>
      rw [List.cons_append, runFrom_cons, runFrom_cons, Option.bind_assoc]
      congr 1
      funext next
      exact ih next

theorem runFrom_append_eq_some
    {state last : σ} {before after : List α} :
    runFrom step state (before ++ after) = some last ↔
      ∃ middle, runFrom step state before = some middle ∧
        runFrom step middle after = some last := by
  rw [runFrom_append, Option.bind_eq_some_iff]

theorem runFrom_concat_eq_some
    {state last : σ} {before : List α} {label : α} :
    runFrom step state (before ++ [label]) = some last ↔
      ∃ middle, runFrom step state before = some middle ∧
        step middle label = some last := by
  simp [runFrom_append_eq_some]

/-- A run takes the step at each of its labels. -/
theorem step_of_split
    {start middle last : σ} {labels before after : List α} {label : α}
    (hrun : runFrom step start labels = some last)
    (hsplit : labels = before ++ label :: after)
    (hmiddle : runFrom step start before = some middle) :
    ∃ next, step middle label = some next := by
  rw [hsplit, runFrom_append, hmiddle, Option.bind_some] at hrun
  rcases runFrom_cons_eq_some.mp hrun with ⟨next, hnext, _⟩
  exact ⟨next, hnext⟩

theorem runFrom_traceInvariant
    (inv : List α → σ → Prop) {start last : σ} {labels : List α}
    (hinit : inv [] start)
    (hstep : ∀ trace state label next,
      runFrom step start trace = some state → inv trace state →
        step state label = some next → inv (trace ++ [label]) next)
    (hrun : runFrom step start labels = some last) :
    inv labels last := by
  induction labels using List.reverseRecOn generalizing last with
  | nil =>
      cases hrun
      exact hinit
  | append_singleton before label ih =>
      rcases runFrom_concat_eq_some.mp hrun with ⟨middle, hmiddle, hlast⟩
      exact hstep before middle label last hmiddle (ih hmiddle) hlast

theorem runFrom_invariant
    (inv : σ → Prop) {start last : σ} {labels : List α}
    (hinit : inv start)
    (hstep : ∀ state label next,
      inv state → step state label = some next → inv next)
    (hrun : runFrom step start labels = some last) :
    inv last :=
  runFrom_traceInvariant (fun _ state => inv state) hinit
    (fun _ state label next _ hinv => hstep state label next hinv) hrun

theorem everyStep_iff_split
    {guard : σ → α → Prop} {state : σ} {labels : List α} :
    EveryStep step guard state labels ↔
      ∀ before label after middle, labels = before ++ label :: after →
        runFrom step state before = some middle → guard middle label := by
  induction labels generalizing state with
  | nil => simp [EveryStep]
  | cons head rest ih =>
      simp only [EveryStep, ih]
      constructor
      · rintro ⟨hguard, hrest⟩ before label after middle hsplit hmiddle
        cases before with
        | nil =>
            rcases List.cons.inj hsplit with ⟨rfl, rfl⟩
            cases hmiddle
            exact hguard
        | cons first others =>
            rcases List.cons.inj hsplit with ⟨rfl, rfl⟩
            rcases runFrom_cons_eq_some.mp hmiddle with ⟨next, hnext, hothers⟩
            exact hrest next hnext others label after middle rfl hothers
      · intro hall
        constructor
        · exact hall [] head rest state rfl rfl
        · intro next hnext before label after middle hsplit hmiddle
          exact hall (head :: before) label after middle (by rw [hsplit]; rfl)
            (runFrom_cons_eq_some.mpr ⟨next, hnext, hmiddle⟩)

/-- Along a run, two guards that agree wherever a step is taken hold of the
same steps. -/
theorem everyStep_congr
    {guard other : σ → α → Prop} {start last : σ} {labels : List α}
    (hrun : runFrom step start labels = some last)
    (hagree : ∀ trace state label next, runFrom step start trace = some state →
      step state label = some next → (guard state label ↔ other state label)) :
    EveryStep step guard start labels ↔ EveryStep step other start labels := by
  rw [everyStep_iff_split, everyStep_iff_split]
  have hsplit : ∀ before label after middle, labels = before ++ label :: after →
      runFrom step start before = some middle →
        (guard middle label ↔ other middle label) := by
    intro before label after middle hlabels hmiddle
    rcases step_of_split hrun hlabels hmiddle with ⟨next, hnext⟩
    exact hagree before middle label next hmiddle hnext
  constructor
  · intro hall before label after middle hlabels hmiddle
    exact (hsplit before label after middle hlabels hmiddle).mp
      (hall before label after middle hlabels hmiddle)
  · intro hall before label after middle hlabels hmiddle
    exact (hsplit before label after middle hlabels hmiddle).mpr
      (hall before label after middle hlabels hmiddle)

theorem runFrom_guardedInvariant
    {guard : σ → α → Prop} (inv : σ → Prop) {start last : σ} {labels : List α}
    (hinit : inv start)
    (hstep : ∀ state label next,
      inv state → guard state label → step state label = some next → inv next)
    (hguard : EveryStep step guard start labels)
    (hrun : runFrom step start labels = some last) :
    inv last := by
  induction labels generalizing start with
  | nil =>
      cases hrun
      exact hinit
  | cons label rest ih =>
      rcases runFrom_cons_eq_some.mp hrun with ⟨next, hnext, hlast⟩
      exact ih (hstep start label next hinit hguard.1 hnext)
        (hguard.2 next hnext) hlast

theorem EveryStep.of_concat
    {guard : σ → α → Prop} {start : σ} {before : List α} {label : α}
    (hguard : EveryStep step guard start (before ++ [label])) :
    EveryStep step guard start before ∧
      ∀ middle, runFrom step start before = some middle → guard middle label := by
  rw [everyStep_iff_split] at hguard
  constructor
  · rw [everyStep_iff_split]
    intro first head rest middle hsplit hmiddle
    apply hguard first head (rest ++ [label]) middle ?_ hmiddle
    rw [hsplit, List.append_assoc, List.cons_append]
  · intro middle hmiddle
    exact hguard before label [] middle rfl hmiddle

theorem everyStep_append
    {guard : σ → α → Prop} {start : σ} {before after : List α} :
    EveryStep step guard start (before ++ after) ↔
      EveryStep step guard start before ∧
        ∀ middle, runFrom step start before = some middle →
          EveryStep step guard middle after := by
  induction before generalizing start with
  | nil => simp [EveryStep]
  | cons label rest ih =>
      simp only [List.cons_append, EveryStep, ih]
      constructor
      · rintro ⟨hguard, hrest⟩
        refine ⟨⟨hguard, fun next hnext => (hrest next hnext).1⟩, ?_⟩
        intro middle hmiddle
        obtain ⟨next, hnext, hrun⟩ := runFrom_cons_eq_some.mp hmiddle
        exact (hrest next hnext).2 middle hrun
      · rintro ⟨⟨hguard, hrest⟩, hafter⟩
        refine ⟨hguard, fun next hnext => ⟨hrest next hnext, ?_⟩⟩
        intro middle hmiddle
        exact hafter middle (runFrom_cons_eq_some.mpr ⟨next, hnext, hmiddle⟩)

theorem EveryStep.and
    {guard other : σ → α → Prop} {start : σ} {labels : List α}
    (hguard : EveryStep step guard start labels)
    (hother : EveryStep step other start labels) :
    EveryStep step (fun state label => guard state label ∧ other state label)
      start labels := by
  rw [everyStep_iff_split] at hguard hother ⊢
  intro before label after middle hsplit hmiddle
  exact ⟨hguard before label after middle hsplit hmiddle,
    hother before label after middle hsplit hmiddle⟩

theorem everyStep_of_invariant
    {guard : σ → α → Prop} {allowed : α → Prop} (inv : σ → Prop) {start : σ}
    {labels : List α} (hinit : inv start)
    (hstep : ∀ state label, inv state → allowed label →
      guard state label ∧ ∀ next, step state label = some next → inv next)
    (hallowed : ∀ label ∈ labels, allowed label) :
    EveryStep step guard start labels := by
  induction labels generalizing start with
  | nil => trivial
  | cons label rest ih =>
      obtain ⟨hguard, hnext⟩ := hstep start label hinit (hallowed label (by simp))
      exact ⟨hguard, fun next hmove =>
        ih (hnext next hmove) fun other hother => hallowed other (by simp [hother])⟩

/-- Where a machine that tracks the state accepts the labels, and accepts a
label only where the guard holds, every step meets the guard. -/
theorem everyStep_of_tracked
    {τ : Type*} {track : τ → α → Option τ} {guard : σ → α → Prop}
    (related : σ → τ → Prop) {start : σ} {tracked last : τ} {labels : List α}
    (hinit : related start tracked)
    (hstep : ∀ state label tracked trackedNext, related state tracked →
      track tracked label = some trackedNext →
        guard state label ∧
          ∀ next, step state label = some next → related next trackedNext)
    (htrack : runFrom track tracked labels = some last) :
    EveryStep step guard start labels := by
  induction labels generalizing start tracked with
  | nil => trivial
  | cons label rest ih =>
      obtain ⟨trackedNext, haccept, hrest⟩ := runFrom_cons_eq_some.mp htrack
      obtain ⟨hguard, hnext⟩ := hstep start label tracked trackedNext hinit haccept
      exact ⟨hguard, fun next hmove => ih (hnext next hmove) hrest⟩

theorem runFrom_guardedTraceInvariant
    {guard : σ → α → Prop} (inv : List α → σ → Prop) {start last : σ}
    {labels : List α} (hinit : inv [] start)
    (hstep : ∀ trace state label next,
      runFrom step start trace = some state → inv trace state →
        guard state label → step state label = some next →
          inv (trace ++ [label]) next)
    (hguard : EveryStep step guard start labels)
    (hrun : runFrom step start labels = some last) :
    inv labels last := by
  apply runFrom_traceInvariant
    (fun trace state => EveryStep step guard start trace → inv trace state)
    (fun _ => hinit) ?_ hrun hguard
  intro trace state label next htrace hinv hnext hguarded
  rcases hguarded.of_concat with ⟨hbefore, hlast⟩
  exact hstep trace state label next htrace (hinv hbefore) (hlast state htrace) hnext

/-- A label that costs one unit of a budget, which no step raises, occurs at
most as often as the budget allows. -/
theorem countP_le_budget
    {counted allowed : α → Bool} (inv : σ → Prop) (budget : σ → ℕ)
    {start last : σ} {labels : List α}
    (hinit : inv start)
    (hstep : ∀ state label next, inv state → allowed label = true →
      step state label = some next →
        inv next ∧ budget next + (if counted label then 1 else 0) ≤ budget state)
    (hallowed : ∀ label ∈ labels, allowed label = true)
    (hrun : runFrom step start labels = some last) :
    labels.countP counted ≤ budget start := by
  induction labels generalizing start with
  | nil => simp
  | cons label rest ih =>
      rcases runFrom_cons_eq_some.mp hrun with ⟨next, hnext, hlast⟩
      obtain ⟨hinv, hcost⟩ :=
        hstep start label next hinit (hallowed label (by simp)) hnext
      have hrest : rest.countP counted ≤ budget next :=
        ih hinv (fun other hother => hallowed other (by simp [hother])) hlast
      rw [List.countP_cons]
      omega

/-- Where every state short of the goal has a run that lowers a rank, every
state has a run to the goal. -/
theorem exists_run_to_goal
    {inv : σ → Prop} {allowed : α → Prop} (goal : σ → Prop) (rank : σ → ℕ)
    (hstep : ∀ state, inv state → ¬ goal state →
      ∃ labels next, (∀ label ∈ labels, allowed label) ∧
        runFrom step state labels = some next ∧ inv next ∧
          rank next < rank state)
    {start : σ} (hinit : inv start) :
    ∃ labels last, (∀ label ∈ labels, allowed label) ∧
      runFrom step start labels = some last ∧ inv last ∧ goal last := by
  induction hrank : rank start using Nat.strongRecOn generalizing start with
  | ind bound ih =>
      by_cases hgoal : goal start
      · exact ⟨[], start, by simp, rfl, hinit, hgoal⟩
      · obtain ⟨first, next, hfirst, hnext, hinv, hless⟩ :=
          hstep start hinit hgoal
        obtain ⟨rest, last, hrest, hrun, hend⟩ :=
          ih (rank next) (hrank ▸ hless) hinv rfl
        refine ⟨first ++ rest, last, ?_, ?_, hend⟩
        · intro label hlabel
          exact (List.mem_append.mp hlabel).elim (hfirst label) (hrest label)
        · exact runFrom_append_eq_some.mpr ⟨next, hnext, hrun⟩

/-! ## Forward simulation -/

section Simulation

variable {τ : Type*} {ε : Type*}

def observe (step : σ → α → Option σ) (event : σ → α → σ → Option ε) :
    σ → List α → List ε
  | _, [] => []
  | state, label :: rest =>
      match step state label with
      | none => []
      | some next => (event state label next).toList ++ observe step event next rest

theorem observe_cons {event : σ → α → σ → Option ε} {state next : σ} {label : α}
    {rest : List α} (hstep : step state label = some next) :
    observe step event state (label :: rest) =
      (event state label next).toList ++ observe step event next rest := by
  rw [observe, hstep]

theorem observe_append {event : σ → α → σ → Option ε} {start middle : σ}
    {before after : List α} (hrun : runFrom step start before = some middle) :
    observe step event start (before ++ after) =
      observe step event start before ++ observe step event middle after := by
  induction before generalizing start with
  | nil =>
      cases hrun
      rfl
  | cons label rest ih =>
      obtain ⟨next, hnext, hmiddle⟩ := runFrom_cons_eq_some.mp hrun
      rw [List.cons_append, observe_cons hnext, observe_cons hnext, ih hmiddle,
        List.append_assoc]

theorem observe_concat {event : σ → α → σ → Option ε} {start middle last : σ}
    {before : List α} {label : α} (hrun : runFrom step start before = some middle)
    (hlast : step middle label = some last) :
    observe step event start (before ++ [label]) =
      observe step event start before ++ (event middle label last).toList := by
  rw [observe_append hrun, observe_cons hlast, observe, List.append_nil]

/-- Where every step is matched by the steps of an abstract machine along the
events that it shows, the events of a run are a run of the abstract machine. -/
theorem runFrom_simulation
    {event : σ → α → σ → Option ε} {abstractStep : τ → ε → Option τ}
    {allowed : α → Bool} (related : σ → τ → Prop)
    {start last : σ} {abstractStart : τ} {labels : List α}
    (hinit : related start abstractStart)
    (hstep : ∀ state label next abstractState, related state abstractState →
      allowed label = true → step state label = some next →
        ∃ abstractNext,
          runFrom abstractStep abstractState (event state label next).toList =
            some abstractNext ∧ related next abstractNext)
    (hallowed : ∀ label ∈ labels, allowed label = true)
    (hrun : runFrom step start labels = some last) :
    ∃ abstractLast,
      runFrom abstractStep abstractStart (observe step event start labels) =
        some abstractLast ∧ related last abstractLast := by
  induction labels generalizing start abstractStart with
  | nil =>
      cases hrun
      exact ⟨abstractStart, rfl, hinit⟩
  | cons label rest ih =>
      rcases runFrom_cons_eq_some.mp hrun with ⟨next, hnext, hlast⟩
      obtain ⟨abstractNext, hevents, hrelated⟩ :=
        hstep start label next abstractStart hinit (hallowed label (by simp)) hnext
      obtain ⟨abstractLast, hrest, hend⟩ := ih hrelated
        (fun other hother => hallowed other (by simp [hother])) hlast
      rw [observe_cons hnext]
      exact ⟨abstractLast,
        runFrom_append_eq_some.mpr ⟨abstractNext, hevents, hrest⟩, hend⟩

/-- Where every step is matched by a run of a finer machine, so is every run. -/
theorem runFrom_expand
    {finer : τ → ε → Option τ} {expand : α → List ε} (related : σ → τ → Prop)
    {start last : σ} {finerStart : τ} {labels : List α}
    (hinit : related start finerStart)
    (hstep : ∀ state label next t, related state t → step state label = some next →
      ∃ t', runFrom finer t (expand label) = some t' ∧ related next t')
    (hrun : runFrom step start labels = some last) :
    ∃ finerLast, runFrom finer finerStart (labels.flatMap expand) = some finerLast ∧
      related last finerLast := by
  induction labels generalizing start finerStart with
  | nil =>
      cases hrun
      exact ⟨finerStart, rfl, hinit⟩
  | cons label rest ih =>
      obtain ⟨next, hnext, hlast⟩ := runFrom_cons_eq_some.mp hrun
      obtain ⟨t', hexpanded, hrelated⟩ := hstep start label next finerStart hinit hnext
      obtain ⟨finerLast, hrest, hend⟩ := ih hrelated hlast
      rw [List.flatMap_cons]
      exact ⟨finerLast, runFrom_append_eq_some.mpr ⟨t', hexpanded, hrest⟩, hend⟩

/-- Two machines that are parted, and that no common step brings together again,
end their runs parted. -/
theorem run_parted
    {other : τ → ε → Option τ} {f : α → ε} {parted : σ → τ → Prop}
    (hparted : ∀ state label next t t', parted state t →
      step state label = some next → other t (f label) = some t' → parted next t')
    {start last : σ} {otherStart otherLast : τ} {labels : List α}
    (hinit : parted start otherStart) (hrun : runFrom step start labels = some last)
    (hother : runFrom other otherStart (labels.map f) = some otherLast) :
    parted last otherLast := by
  induction labels generalizing start otherStart with
  | nil =>
      cases hrun
      cases hother
      exact hinit
  | cons label rest ih =>
      obtain ⟨next, hnext, hlast⟩ := runFrom_cons_eq_some.mp hrun
      obtain ⟨t', ht', hend⟩ := runFrom_cons_eq_some.mp hother
      exact ih (hparted _ label next _ t' hinit hnext ht') hlast hend

/-- Where a step that meets the guard keeps two machines related, and one that
does not parts them for good, the second machine makes the run of the first, to
a state that agrees, exactly when every step meets the guard. -/
theorem everyStep_iff_follows
    {other : τ → ε → Option τ} {f : α → ε} {guard : σ → α → Prop}
    (related parted agrees : σ → τ → Prop)
    (hstep : ∀ state label next t, related state t → step state label = some next →
      (guard state label ∧ ∃ t', other t (f label) = some t' ∧ related next t') ∨
        (¬ guard state label ∧ ∀ t', other t (f label) = some t' → parted next t'))
    (hparted : ∀ state label next t t', parted state t →
      step state label = some next → other t (f label) = some t' → parted next t')
    (hagrees : ∀ state t, related state t → agrees state t)
    (hapart : ∀ state t, parted state t → ¬ agrees state t)
    {start last : σ} {otherStart : τ} {labels : List α}
    (hinit : related start otherStart)
    (hrun : runFrom step start labels = some last) :
    EveryStep step guard start labels ↔
      ∃ otherLast, runFrom other otherStart (labels.map f) = some otherLast ∧
        agrees last otherLast := by
  induction labels generalizing start otherStart with
  | nil =>
      cases hrun
      exact ⟨fun _ => ⟨_, rfl, hagrees _ _ hinit⟩, fun _ => trivial⟩
  | cons label rest ih =>
      obtain ⟨next, hnext, hlast⟩ := runFrom_cons_eq_some.mp hrun
      rcases hstep _ label next _ hinit hnext with
        ⟨hguard, t', ht', hrelated⟩ | ⟨hmissed, hparts⟩
      · have hrest := ih hrelated hlast
        rw [List.map_cons, runFrom_cons, ht', Option.bind_some, ← hrest]
        constructor
        · exact fun hevery => hevery.2 next hnext
        · intro hevery
          refine ⟨hguard, ?_⟩
          intro found hfound
          rw [hnext] at hfound
          cases hfound
          exact hevery
      · constructor
        · exact fun hevery => absurd hevery.1 hmissed
        · rintro ⟨otherLast, hother, hsame⟩
          obtain ⟨t', ht', hend⟩ := runFrom_cons_eq_some.mp hother
          have hlost := run_parted hparted (hparts t' ht') hlast hend
          exact absurd hsame (hapart last otherLast hlost)

end Simulation

end LabelledRun
