import IntScript.Machine

/-!
# Runs

A machine that halts can take all its steps.  `Machine.Halts` says that the steps of a
machine come to an end, and `Machine.run` takes them.  A run ends in the machine that has no
frame left, or in the error that some step meets.
-/

namespace IntScript.Machine

/-- A machine comes next after another if the other one takes a step to it. -/
def Next (m' m : Machine) : Prop :=
  m.step? = some (.ok () m')

/-- A machine halts if it cannot take steps for ever. -/
def Halts (m : Machine) : Prop :=
  Acc Next m

/-- Among the machines that halt, the next one is closer to the end. -/
instance : WellFoundedRelation { m : Machine // m.Halts } where
  rel m' m := Next m'.val m.val
  wf := by
    constructor
    rintro ⟨m, halts⟩
    induction halts with
    | intro m _ ih =>
      constructor
      rintro ⟨m', halts'⟩ next
      apply ih m' next

theorem step?_eq
    {m : Machine} {frame : Frame} {frames : List Frame} (top : m.frames = frame :: frames) :
  m.step? = some (advance frame { m with frames := frames })
  := by
  simp only [step?, top]

/-- A machine with a frame left takes a step when that frame advances. -/
theorem next_of_advance
    {m m' : Machine} {frame : Frame} {frames : List Frame} (top : m.frames = frame :: frames)
    (h : advance frame { m with frames := frames } = .ok () m') :
  Next m' m
  := by
  rw [Next, step?_eq top, h]

/-- Lets a machine that halts take all its steps. -/
def run (m : Machine) (halts : m.Halts) : EStateM.Result RuntimeError Machine Unit :=
  match top : m.frames with
  | [] => .ok () m
  | frame :: frames =>
    match h : advance frame { m with frames := frames } with
    | .ok () m' => run m' (halts.inv (next_of_advance top h))
    | .error error m' => .error error m'
termination_by (⟨m, halts⟩ : { m : Machine // m.Halts })
decreasing_by exact next_of_advance top h

/-- A machine without frames has nothing to do. -/
theorem run_of_done {m : Machine} (halts : m.Halts) (done : m.step? = none) :
  m.run halts = .ok () m
  := by
  rw [run]
  split
  · rfl
  · rename_i top
    rw [step?_eq top] at done
    contradiction

/-- A run goes on with the next machine. -/
theorem run_of_next {m m' : Machine} (halts : m.Halts) (next : Next m' m) :
  m.run halts = m'.run (halts.inv next)
  := by
  have step := next
  rw [run]
  split
  · rename_i top
    simp [Next, step?, top] at step
  · rename_i top
    rw [Next, step?_eq top] at step
    injection step with step
    split
    all_goals
      rename_i h
      rw [step] at h
      cases h
    rfl

/-- A run ends with the error that a step meets. -/
theorem run_of_error
    {m m' : Machine} {error : RuntimeError} (halts : m.Halts)
    (failure : m.step? = some (.error error m')) :
  m.run halts = .error error m'
  := by
  rw [run]
  split
  · rename_i top
    simp [step?, top] at failure
  · rename_i top
    rw [step?_eq top] at failure
    injection failure with failure
    split
    all_goals
      rename_i h
      rw [failure] at h
      cases h
    rfl

end IntScript.Machine
