import IntScript.Proofs.Sequence

/-!
# Steps and streams

Which steps of a machine have to do with its streams.  An action is blind if it neither looks at
the streams nor changes them: on a machine with other streams it does the same, and leaves those.
Main statement: a step is blind, or it prints the value on top of the stack, or it reads, and then
it flushes the sink before it takes a word.
-/

namespace IntScript

namespace Machine

variable {α β : Type} {m : Machine} {node : Node}

/-- The machine with other streams. -/
def withStreams (sink : Sink) (input : Input) (m : Machine) : Machine :=
  { m with sink := sink, input := input }

/-- The machine with another sink. -/
def withSink (sink : Sink) (m : Machine) : Machine :=
  m.withStreams sink m.input

/-- The machine that an action leaves, with or without an error. -/
def left : EStateM.Result RuntimeError Machine α → Machine
  | .ok _ m => m
  | .error _ m => m

/-- A result that leaves another machine. -/
def leaving (f : Machine → Machine) :
    EStateM.Result RuntimeError Machine α → EStateM.Result RuntimeError Machine α
  | .ok a m => .ok a (f m)
  | .error error m => .error error (f m)

theorem left_leaving (f : Machine → Machine) (result : EStateM.Result RuntimeError Machine α) :
  left (leaving f result) = f (left result)
  := by
  cases result <;> rfl

/-! ### Blind actions -/

/-- An action is blind if it does the same with all streams, and leaves them as they are. -/
def Blind (x : Action α) : Prop :=
  ∀ (m : Machine) (sink : Sink) (input : Input),
    x (m.withStreams sink input) = leaving (withStreams sink input) (x m)

/-- A blind action leaves the streams as they are. -/
theorem Blind.left_eq {x : Action α} (blind : Blind x) (m : Machine) :
  left (x m) = (left (x m)).withStreams m.sink m.input
  := by
  have same := congrArg left (blind m m.sink m.input)
  rw [left_leaving] at same
  apply same

theorem Blind.sink_left {x : Action α} (blind : Blind x) (m : Machine) :
  (left (x m)).sink = m.sink
  := by
  rw [blind.left_eq m]
  rfl

theorem Blind.input_left {x : Action α} (blind : Blind x) (m : Machine) :
  (left (x m)).input = m.input
  := by
  rw [blind.left_eq m]
  rfl

/-- A blind action does the same with another sink. -/
theorem Blind.withSink {x : Action α} (blind : Blind x) (m : Machine) (sink : Sink) :
  x (m.withSink sink) = leaving (.withSink sink) (x m)
  := by
  have kept := blind.input_left m
  rw [Machine.withSink, blind]
  cases result : x m with
  | ok a m' =>
    rw [result] at kept
    rw [← kept]
    rfl
  | error error m' =>
    rw [result] at kept
    rw [← kept]
    rfl

theorem blind_bind {x : Action α} {f : α → Action β} (hx : Blind x) (hf : ∀ a, Blind (f a)) :
  Blind (x >>= f)
  := by
  intro m sink input
  have first := hx m sink input
  cases taken : x m with
  | ok a m' =>
    rw [taken] at first
    rw [bind_of_ok taken, bind_of_ok first]
    apply hf a
  | error error m' =>
    rw [taken] at first
    rw [bind_of_error taken, bind_of_error first]
    rfl

theorem blind_pure (a : α) :
  Blind (pure a)
  :=
  fun _ _ _ => rfl

theorem blind_throw (error : RuntimeError) :
  Blind (throw error : Action α)
  :=
  fun _ _ _ => rfl

theorem blind_check (result : Except RuntimeError α) :
  Blind (check result)
  := by
  cases result with
  | ok a => apply blind_pure
  | error error => apply blind_throw

theorem blind_pushFrames (frames : List Frame) :
  Blind (pushFrames frames)
  :=
  fun _ _ _ => rfl

theorem blind_pushValue (value : Value) :
  Blind (pushValue value)
  :=
  fun _ _ _ => rfl

theorem blind_assign (name : String) (value : Value) :
  Blind (assign name value)
  :=
  fun _ _ _ => rfl

theorem blind_leave :
  Blind leave
  :=
  fun _ _ _ => rfl

theorem blind_popValue (line : Nat) :
  Blind (popValue line)
  := by
  rintro ⟨frames, values, memory, _, _⟩ sink input
  cases values <;> rfl

theorem blind_onMemory (change : Memory.Change α) :
  Blind (onMemory change)
  := by
  intro m sink input
  unfold onMemory withStreams
  cases change m.memory <;> rfl

/-- A node acts blindly if it neither prints nor reads. -/
theorem blind_act (print : node.kind ≠ .print) (read : node.kind ≠ .read) :
  Blind (act node)
  := by
  unfold act
  split
  case h_1 => apply blind_pure
  case h_2 => exact blind_bind (blind_onMemory _) blind_pushValue
  case h_3 => exact blind_bind (blind_check _) blind_pushValue
  case h_4 =>
    apply blind_bind (blind_popValue _)
    intro right
    apply blind_bind (blind_popValue _)
    intro left
    exact blind_bind (blind_check _) blind_pushValue
  case h_5 =>
    apply blind_bind (blind_popValue _)
    intro argument
    apply blind_bind (blind_onMemory _)
    intro body
    apply blind_pushFrames
  case h_6 => apply blind_onMemory
  case h_7 =>
    apply blind_bind (blind_popValue _)
    intro value
    split
    · apply blind_assign
    · apply blind_throw
  case h_8 => contradiction
  case h_9 => contradiction

/-! ### Printing and reading -/

/-- A machine is about to print a value for a node. -/
structure AtPrint (m : Machine) (node : Node) (value : Value) : Prop where
  top : m.frames.head? = some (.evaluating node [])
  kind : node.kind = .print
  held : m.values.head? = some value

/-- A machine is about to read for a node. -/
structure AtRead (m : Machine) (node : Node) : Prop where
  top : m.frames.head? = some (.evaluating node [])
  kind : node.kind = .read

/-- The machine whose topmost frame is at work. -/
def popped (m : Machine) : Machine :=
  { m with frames := m.frames.tail }

/-- The machine whose topmost frame is at work and has taken the topmost value. -/
def unloaded (m : Machine) : Machine :=
  { m with frames := m.frames.tail, values := m.values.tail }

/-- Gives a variable the value of a word, which must be there. -/
def assignWord (name : String) (line : Nat) : Option String → Action Unit
  | none => throw (.endOfInput name line)
  | some word => do assign name (← check (Number.ofWord word line))

/-- Takes the next word for a variable, once what has been printed is flushed. -/
def take (name : String) (line : Nat) : Action Unit :=
  nextWord line >>= assignWord name line

theorem blind_assignWord (name : String) (line : Nat) (word? : Option String) :
  Blind (assignWord name line word?)
  := by
  cases word? with
  | none => apply blind_throw
  | some word =>
    apply blind_bind (blind_check _)
    intro value
    apply blind_assign

/-- What is taken for a variable has nothing to do with the sink. -/
theorem take_withSink (name : String) (line : Nat) (m : Machine) (sink : Sink) :
  take name line (m.withSink sink) = leaving (withSink sink) (take name line m)
  := by
  unfold take
  cases taken : m.input.nextWord with
  | error cause input =>
    have failed (sink : Sink) : nextWord line (m.withSink sink)
        = .error (.stream cause line) (m.withStreams sink input) := by
      simp only [nextWord, withSink, withStreams, taken]
    have own : nextWord line m = _ := failed m.sink
    rw [bind_of_error (failed sink), bind_of_error own]
    rfl
  | ok word? input =>
    have words (sink : Sink) : nextWord line (m.withSink sink)
        = .ok word? (m.withStreams sink input) := by
      simp only [nextWord, withSink, withStreams, taken]
    have own : nextWord line m = _ := words m.sink
    rw [bind_of_ok (words sink), bind_of_ok own, ← (blind_assignWord name line word?).withSink]
    rfl

theorem sink_left_take (name : String) (line : Nat) (m : Machine) :
  (left (take name line m)).sink = m.sink
  := by
  have same := congrArg left (take_withSink name line m m.sink)
  rw [left_leaving] at same
  apply congrArg Machine.sink same

/-- A node that reads flushes what has been printed and takes a word. -/
theorem act_read {target : Node} {others : List Node} (kind : node.kind = .read)
    (children : node.children = target :: others) :
  act node = flush node.line >>= fun _ => take target.text node.line
  := by
  simp only [act, kind, children, readValue, bind_assoc]
  congr
  funext _
  rw [take]
  congr
  funext word?
  cases word? with
  | none => rfl
  | some word => rfl

/-- The step of a machine that is about to print writes the value. -/
theorem AtPrint.step?_eq {value : Value} (atPrint : m.AtPrint node value) :
  m.step? = some (write (Number.printed value) node.line m.unloaded)
  := by
  obtain ⟨frames, values, memory, sink, input⟩ := m
  obtain ⟨top, kind, held⟩ := atPrint
  obtain ⟨frames, rfl⟩ := List.head?_eq_some_iff.mp top
  obtain ⟨values, rfl⟩ := List.head?_eq_some_iff.mp held
  simp only [step?, advance, act, kind]
  rfl

/-- The step of a machine that is about to read flushes the sink and takes a word. -/
theorem AtRead.step?_eq {target : Node} {others : List Node} (atRead : m.AtRead node)
    (children : node.children = target :: others) :
  m.step? = some ((flush node.line >>= fun _ => take target.text node.line) m.popped)
  := by
  obtain ⟨frames, values, memory, sink, input⟩ := m
  obtain ⟨top, kind⟩ := atRead
  obtain ⟨frames, rfl⟩ := List.head?_eq_some_iff.mp top
  rw [← act_read kind children]
  rfl

/-! ### Steps -/

/-- A machine steps blindly if its next step is a blind action. -/
def StepsBlindly (m : Machine) : Prop :=
  ∃ x : Action Unit, Blind x
    ∧ ∀ sink input, (m.withStreams sink input).step? = some (x (m.popped.withStreams sink input))

namespace StepsBlindly

variable {result : EStateM.Result RuntimeError Machine Unit}

/-- With another sink a machine that steps blindly does the same. -/
theorem step?_withSink (blindly : m.StepsBlindly) (step : m.step? = some result) (sink : Sink) :
  (m.withSink sink).step? = some (leaving (withSink sink) result)
  := by
  obtain ⟨x, blind, steps⟩ := blindly
  obtain rfl := Option.some_inj.mp ((steps m.sink m.input).symm.trans step)
  rw [← blind.withSink]
  apply steps

theorem sink_left (blindly : m.StepsBlindly) (step : m.step? = some result) :
  (left result).sink = m.sink
  := by
  obtain ⟨x, blind, steps⟩ := blindly
  obtain rfl := Option.some_inj.mp ((steps m.sink m.input).symm.trans step)
  apply blind.sink_left

theorem input_left (blindly : m.StepsBlindly) (step : m.step? = some result) :
  (left result).input = m.input
  := by
  obtain ⟨x, blind, steps⟩ := blindly
  obtain rfl := Option.some_inj.mp ((steps m.sink m.input).symm.trans step)
  apply blind.input_left

end StepsBlindly

/-- A machine with a frame steps blindly, prints or reads. -/
theorem step?_cases {result : EStateM.Result RuntimeError Machine Unit}
    (step : m.step? = some result) :
  m.StepsBlindly ∨ (∃ node value, m.AtPrint node value)
    ∨ ∃ node target others, m.AtRead node ∧ node.children = target :: others
  := by
  obtain ⟨frames, values, memory, sink, input⟩ := m
  cases frames with
  | nil => cases step
  | cons frame frames =>
    match frame with
    | .evaluating node (operand :: pending) => exact .inl ⟨_, blind_pushFrames _, fun _ _ => rfl⟩
    | .calling call => exact .inl ⟨_, blind_leave, fun _ _ => rfl⟩
    | .evaluating node [] =>
      by_cases print : node.kind = .print
      · cases values with
        | nil =>
          left
          refine ⟨_, blind_throw (.malformedTree node.line), ?_⟩
          intro sink input
          simp only [step?, withStreams, advance, act, print]
          rfl
        | cons value values => exact .inr (.inl ⟨node, value, rfl, print, rfl⟩)
      · by_cases read : node.kind = .read
        · cases children : node.children with
          | nil =>
            left
            refine ⟨_, blind_throw (.malformedTree node.line), ?_⟩
            intro sink input
            simp only [step?, withStreams, advance, act, read, children]
            rfl
          | cons target others => exact .inr (.inr ⟨node, target, others, ⟨rfl, read⟩, children⟩)
        · exact .inl ⟨_, blind_act print read, fun _ _ => rfl⟩

end Machine

end IntScript
