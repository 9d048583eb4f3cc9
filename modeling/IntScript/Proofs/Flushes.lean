import IntScript.Proofs.Limits
import IntScript.Proofs.Traversal
import IntScript.Token.Scan

/-!
# Flushes

When a program flushes its sink.  Main statement: whatever is taken from the input is taken
behind a flush that covers all output; on an unlimited sink there is one flush for each node that
reads, and one behind the last statement if the program succeeds; and a program whose sink grants
too few flushes ends where the first one is due that is not granted, with the streams as they are
there.
-/

namespace IntScript

/-- A flush that is granted covers all that is accepted. -/
theorem Sink.eq_flushed_of_flush {sink sink' : Sink} (granted : sink.flush = .ok () sink') :
  sink' = sink.flushed
  := by
  unfold flush at granted
  split at granted <;> cases granted
  rfl

/-- Only flushes count if accepted bytes are not limited. -/
theorem Sink.within_iff_of_flushes {sink : Sink} {limit : Nat} :
  sink.Within none (some limit) ↔ sink.flushes.size ≤ limit
  := by
  constructor
  · intro within
    apply within.flushes limit rfl
  · intro fits
    constructor
    · exact nofun
    · rintro _ ⟨⟩
      apply fits

namespace Machine

variable {m m' last : Machine} {node : Node} {trail : List Machine}
  {result : EStateM.Result RuntimeError Machine Unit}

/-! ### Input is taken behind a flush -/

/-- In its step, which is for a node that reads, a machine takes a word behind a flush that is
granted and covers all output, and it leaves the sink as the flush does. -/
structure TakesFlushed (m : Machine) (node : Node)
    (result : EStateM.Result RuntimeError Machine Unit) : Prop where
  atRead : m.AtRead node
  granted : m.sink.flush = .ok () m.sink.flushed
  takes : ∃ name, result = take name node.line (m.popped.withSink m.sink.flushed)
  sink : (left result).sink = m.sink.flushed
  covers : (left result).sink.flushes.back? = some (left result).sink.accepted.size

theorem input_left_write (bytes : List UInt8) (line : Nat) (m : Machine) :
  (left (write bytes line m)).input = m.input
  := by
  obtain ⟨frames, values, memory, sink, input⟩ := m
  simp only [write]
  cases sink.write bytes <;> rfl

/-- A step that takes something from the input takes it behind a flush. -/
theorem takesFlushed_of_step (step : m.step? = some result)
    (taken : (left result).input ≠ m.input) :
  ∃ node, m.TakesFlushed node result
  := by
  rcases step?_cases step with blindly | ⟨node, value, atPrint⟩ |
    ⟨node, target, others, atRead, children⟩
  · exfalso
    apply taken
    apply blindly.input_left step
  · exfalso
    apply taken
    obtain rfl := Option.some_inj.mp (atPrint.step?_eq.symm.trans step)
    apply input_left_write
  · obtain rfl := Option.some_inj.mp ((atRead.step?_eq children).symm.trans step)
    cases granted : m.sink.flush with
    | error cause sink =>
      have refused : flush node.line m.popped = _ := flush_of_error granted
      rw [bind_of_error refused] at taken
      exact absurd rfl taken
    | ok _ sink =>
      obtain rfl := Sink.eq_flushed_of_flush granted
      have flushed : flush node.line m.popped = _ := flush_of_ok granted
      rw [bind_of_ok flushed]
      have same := sink_left_take target.text node.line (m.popped.withSink m.sink.flushed)
      refine ⟨node, atRead, granted, ⟨target.text, rfl⟩, same, ?_⟩
      rw [same]
      simp [Sink.flushed, withSink, withStreams]

/-! ### The flushes of a run -/

/-- The machines of a run, from the given one to the one that ends. -/
inductive Passes : Machine → List Machine → EStateM.Result RuntimeError Machine Unit → Prop where
  | last {m : Machine} {result : EStateM.Result RuntimeError Machine Unit}
      (ends : Ends m result) : Passes m [m] result
  | next {m m' : Machine} {trail : List Machine}
      {result : EStateM.Result RuntimeError Machine Unit} (next : Next m' m)
      (passes : Passes m' trail result) : Passes m (m :: trail) result

theorem Reaches.exists_passes (reaches : Reaches m last) (ends : Ends last result) :
  ∃ trail, Passes m trail result
  := by
  obtain ⟨n, steps⟩ := reaches
  induction steps with
  | zero m => exact ⟨[m], .last ends⟩
  | @succ n m m' last next _ ih =>
    obtain ⟨trail, passes⟩ := ih ends
    exact ⟨m :: trail, .next next passes⟩

/-- Whether a machine is about to read. -/
def isAtRead (m : Machine) : Bool :=
  match m.frames with
  | .evaluating node [] :: _ => node.kind == .read
  | _ => false

theorem isAtRead_iff :
  m.isAtRead ↔ ∃ node, m.AtRead node
  := by
  unfold isAtRead
  constructor
  · intro reads
    split at reads
    · rename_i node frames top
      exact ⟨node, by rw [top]; rfl, beq_iff_eq.mp reads⟩
    · cases reads
  · rintro ⟨node, top, kind⟩
    obtain ⟨frames, top⟩ := List.head?_eq_some_iff.mp top
    simp [top, kind]

/-- A step adds a flush if it reads. -/
theorem flushes_left (unlimited : m.sink.Unlimited) (step : m.step? = some result)
    (hasArity : ∀ node, m.AtRead node → node.hasArity) :
  (left result).sink.flushes.toList
    = m.sink.flushes.toList ++ ([m].filter isAtRead).map (·.sink.accepted.size)
  := by
  by_cases reads : m.isAtRead
  · obtain ⟨node, atRead⟩ := isAtRead_iff.mp reads
    obtain ⟨target, children⟩ := Node.exists_child (hasArity node atRead) (by rw [atRead.kind]; rfl)
    have stepped := atRead.step?_of_unlimited children unlimited
    obtain rfl := Option.some_inj.mp (stepped.symm.trans step)
    rw [sink_left_take]
    simp [reads, Sink.flushed, withSink, withStreams]
  · have same : (left result).sink.flushes = m.sink.flushes := by
      rcases step?_cases step with blindly | ⟨node, value, atPrint⟩ |
        ⟨node, target, others, atRead, -⟩
      · rw [blindly.sink_left step]
      · obtain rfl := Option.some_inj.mp ((atPrint.step?_of_unlimited unlimited).symm.trans step)
        rfl
      · exact absurd (isAtRead_iff.mpr ⟨node, atRead⟩) reads
    simp [same, reads]

/-- The flushes of a run are those of its reads. -/
theorem Passes.flushes_left (passes : Passes m trail result) (unlimited : m.sink.Unlimited)
    (hasArity : ∀ m', Reaches m m' → ∀ node, m'.AtRead node → node.hasArity) :
  (left result).sink.flushes.toList
    = m.sink.flushes.toList ++ (trail.filter isAtRead).map (·.sink.accepted.size)
  := by
  induction passes with
  | @last m result ends =>
    cases ends with
    | done done =>
      have notReads : m.isAtRead = false := by
        simp [isAtRead, frames_eq_nil done]
      simp [notReads, left]
    | failed failure => apply Machine.flushes_left unlimited failure (hasArity m (.refl m))
  | @next m m' trail result next passes ih =>
    have unlimited' : m'.sink.Unlimited := (continues_of_step unlimited next).unlimited unlimited
    have first := Machine.flushes_left unlimited next (hasArity m (.refl m))
    have rest := ih unlimited' fun m'' reaches => hasArity m'' (.head next reaches)
    rw [rest]
    simp only [left] at first
    rw [first, List.append_assoc, ← List.map_append, ← List.filter_append, List.singleton_append]

end Machine

/-- What the flush behind the last statement covers, if there is one. -/
def Outcome.closingFlush {ε α : Type} (outcome : Outcome ε α) : List Nat :=
  match outcome.result with
  | .ok _ => [outcome.sink.accepted.size]
  | .error _ => []

namespace Program

open Machine

variable {root node : Node} {sink : Sink} {input : Input} {limit : Nat} {m : Machine}
  {result : EStateM.Result RuntimeError Machine Unit}

/-- A node that reads has the right arity. -/
theorem hasArity_of_atRead (wellFormed : root.isWellFormed)
    (reaches : Reaches (start root sink input) m) (atRead : m.AtRead node) :
  node.hasArity
  := by
  have inTurn := reaches.inTurn _ (List.mem_of_head? atRead.top)
  apply inTurn.within.hasArity wellFormed

theorem flushes_finish (unlimited : (left result).sink.Unlimited) (line : Nat) :
  (finish line result).sink.flushes.toList
    = (left result).sink.flushes.toList ++ (finish line result).closingFlush
  := by
  cases result with
  | ok _ last =>
    have unlimited : last.sink.Unlimited := unlimited
    rw [finish_of_unlimited unlimited]
    simp [Outcome.closingFlush, Sink.flushed, left]
  | error => simp [Outcome.closingFlush, finish, Outcome.ofResult, left]

/-- The flushes of an unlimited program are those of its reads and the one behind the last
statement. -/
theorem exists_passes_of_execute (wellFormed : root.isWellFormed) (input : Input) :
  ∃ trail result, Passes (start root .unlimited input) trail result
    ∧ execute root .unlimited input = finish root.line result
    ∧ (execute root .unlimited input).sink.flushes.toList
      = (trail.filter isAtRead).map (·.sink.accepted.size)
        ++ (execute root .unlimited input).closingFlush
  := by
  obtain ⟨last, result, reaches, ends, same⟩ :=
    exists_ends_of_isWellFormed wellFormed .unlimited input
  obtain ⟨trail, passes⟩ := reaches.exists_passes ends
  refine ⟨trail, result, passes, same, ?_⟩
  rw [same, flushes_finish (unlimited_left reaches ends)]
  have reads := passes.flushes_left (unlimited_start root input)
    fun m' reaches node atRead => hasArity_of_atRead wellFormed reaches atRead
  rw [reads]
  rfl

/-! ### Flushes that are not granted -/

/-- After as many flushes as the limit grants, a program is about to flush for a read, or behind
its last statement; an error of this flush has the given line. -/
structure FlushesBeyond (root : Node) (input : Input) (limit : Nat) (m : Machine) (line : Nat) :
    Prop where
  reaches : Reaches (start root .unlimited input) m
  before : m.sink.flushes.size = limit
  due : (∃ node, m.AtRead node ∧ line = node.line) ∨ (m.step? = none ∧ line = root.line)

/-- A program that is not granted all its flushes ends where the first one is due that is not. -/
theorem exists_flushesBeyond (wellFormed : root.isWellFormed)
    (often : limit < (execute root .unlimited input).sink.flushes.size) :
  ∃ m line, FlushesBeyond root input limit m line
    ∧ execute root (.limited none (some limit)) input
      = ⟨.error (.stream .flushFailed line), m.sink.withLimits none (some limit), m.input⟩
  := by
  obtain ⟨last, result, reaches, ends, same⟩ :=
    exists_ends_of_isWellFormed wellFormed .unlimited input
  have unlimited := unlimited_left reaches ends
  rw [same] at often
  by_cases within : (left result).sink.Within none (some limit)
  · have executed := execute_of_within wellFormed reaches ends within
    cases ends with
    | failed => exact absurd (within.flushes limit rfl) (Nat.not_le_of_lt often)
    | done done =>
      have unlimited : last.sink.Unlimited := unlimited
      rw [finish_of_unlimited unlimited] at often
      have refused : (last.withLimits none (some limit)).sink.flush = _ :=
        Sink.flush_withLimits_beyond often
      rw [leaving, finish_of_refusal refused] at executed
      refine ⟨last, root.line, ⟨reaches, ?_, .inr ⟨done, rfl⟩⟩, executed⟩
      have before : last.sink.flushes.size ≤ limit := within.flushes limit rfl
      have beyond : limit < last.sink.flushes.size + 1 :=
        Nat.lt_of_lt_of_eq often Sink.size_flushed
      omega
  · obtain ⟨m, result', reaches', -, within, stops, -⟩ :=
      reaches.exists_stops ends (unlimited_start root input) (within_start root input) within
    cases stops with
    | print full => cases full
    | @read node failed atLimit atRead failure sink inputLeft =>
      have executed := execute_of_failure wellFormed reaches' within failure
      rw [sink, inputLeft] at executed
      refine ⟨m, node.line, ⟨reaches', ?_, .inl ⟨node, atRead, rfl⟩⟩, executed⟩
      apply Option.some_inj.mp atLimit.symm

/-- Everything that is printed is flushed before input is taken.  With every sink, a step takes
something from the input only behind a flush that is granted and covers all output.  On an
unlimited sink there is one flush for each machine of the run that is about to read, and it covers
what has been printed by then; one more covers the whole output if the program succeeds.  When
only so many flushes are granted and these are too few, the program ends where the next one is
due, and the streams are left as they are there; otherwise it has the same outcome. -/
theorem output_flushed_before_input
    {root : Node} (wellFormed : root.isWellFormed) (input : Input) :
  (∀ sink m result, Reaches (start root sink input) m → m.step? = some result →
      (left result).input ≠ m.input → ∃ node, m.TakesFlushed node result)
    ∧ (∃ trail result, Passes (start root .unlimited input) trail result
      ∧ execute root .unlimited input = finish root.line result
      ∧ (execute root .unlimited input).sink.flushes.toList
        = (trail.filter isAtRead).map (·.sink.accepted.size)
          ++ (execute root .unlimited input).closingFlush)
    ∧ ∀ limit,
      ((execute root .unlimited input).sink.flushes.size ≤ limit →
        execute root (.limited none (some limit)) input
          = (execute root .unlimited input).mapSink (.withLimits none (some limit)))
      ∧ (limit < (execute root .unlimited input).sink.flushes.size →
        ∃ m line, FlushesBeyond root input limit m line
          ∧ execute root (.limited none (some limit)) input
            = ⟨.error (.stream .flushFailed line), m.sink.withLimits none (some limit), m.input⟩)
  := by
  refine ⟨?_, exists_passes_of_execute wellFormed input, ?_⟩
  · intro sink m result _ step taken
    apply takesFlushed_of_step step taken
  · intro limit
    constructor
    · intro fits
      apply execute_withLimits wellFormed (Sink.within_iff_of_flushes.mpr fits)
    · apply exists_flushesBeyond wellFormed

/-- A program that prints a number, reads one and prints it flushes when it reads and when it is
done.  Without a single flush it fails on the second line, and nothing is read. -/
theorem output_flushed_before_input_echo :
  ∃ root, ofTokens (Token.scan ["print 1", "read x", "print x"]) = .ok root
    ∧ (execute root .unlimited (.ofBytes [0x37, 0x0A])).sink.flushes = #[2, 4]
    ∧ execute root (.limited none (some 0)) (.ofBytes [0x37, 0x0A])
      = ⟨.error (.stream .flushFailed 2), ⟨#[0x31, 0x0A], #[], none, some 0⟩,
        .ofBytes [0x37, 0x0A]⟩
    ∧ ∃ m, FlushesBeyond root (.ofBytes [0x37, 0x0A]) 0 m 2
  := by
  have accepted : ofTokens (Token.scan ["print 1", "read x", "print x"]) = .ok (ofStatements [
      Statement.print 1 (.leaf .number "1" 1), Statement.read 2 (.leaf .variable "x" 2),
      Statement.print 3 (.leaf .variable "x" 3)]) := rfl
  have wellFormed := (isProgram_of_ofTokens accepted).isWellFormed
  have unlimited := execute_of_resultWithin 20 .unlimited (.ofBytes [0x37, 0x0A]) wellFormed rfl
  have limited := execute_of_resultWithin 20 (.limited none (some 0)) (.ofBytes [0x37, 0x0A])
    wellFormed rfl
  have flushes : (execute _ .unlimited (.ofBytes [0x37, 0x0A])).sink.flushes = #[2, 4] :=
    congrArg (·.sink.flushes) unlimited
  obtain ⟨-, -, limits⟩ := output_flushed_before_input wellFormed (.ofBytes [0x37, 0x0A])
  obtain ⟨m, line, beyond, ended⟩ := (limits 0).2 (by rw [flushes]; decide)
  have failed := congrArg Outcome.result (ended.symm.trans limited)
  injection failed with same
  injection same with _ second
  have second : line = 2 := second
  rw [second] at beyond
  exact ⟨_, accepted, flushes, limited, m, beyond⟩

end Program

end IntScript
