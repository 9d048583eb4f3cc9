import IntScript.Proofs.Simulation

/-!
# Programs as sequences of statements

The statements of a program share nothing but the store.  A program therefore does what its
first statements do, and then the others.  If its sink has no limits, a statement that fails
has written nothing, and it is the only one at which the programs that consist of the first
statements begin to fail.  Main statement: a program that fails fails like the program that
ends with its failing statement, and prints what the program before that statement prints;
if a program succeeds, so do the programs of its first statements, whose output it continues.
-/

namespace IntScript

/-! ### What a statement prints -/

namespace Sink

variable {sink : Sink}

/-- A sink that accepts all bytes and grants all flushes. -/
structure Unlimited (sink : Sink) : Prop where
  writeLimit : sink.writeLimit = none
  flushLimit : sink.flushLimit = none

/-- The sink with more bytes accepted. -/
def accepting (bytes : List UInt8) (sink : Sink) : Sink :=
  { sink with accepted := sink.accepted ++ bytes }

/-- The sink with one more flush, which covers all that is accepted. -/
def flushed (sink : Sink) : Sink :=
  { sink with flushes := sink.flushes.push sink.accepted.size }

/-- An unlimited sink accepts all bytes. -/
theorem Unlimited.write_eq (unlimited : sink.Unlimited) (bytes : List UInt8) :
  sink.write bytes = .ok () (sink.accepting bytes)
  := by
  simp [write, room, unlimited.writeLimit, accepting]

/-- An unlimited sink grants all flushes. -/
theorem Unlimited.flush_eq (unlimited : sink.Unlimited) :
  sink.flush = .ok () sink.flushed
  := by
  simp [flush, grantsFlush, unlimited.flushLimit, flushed]

end Sink

namespace Machine

variable {ε σ α β : Type} {x : EStateM ε σ α} {f : α → EStateM ε σ β} {m m' : σ}

/-- What follows an action that succeeds goes on with its value. -/
theorem bind_of_ok {a : α} (h : x m = .ok a m') :
  (x >>= f) m = f a m'
  := by
  change EStateM.bind x f m = _
  rw [EStateM.bind, h]

/-- Nothing follows an action that fails. -/
theorem bind_of_error {error : ε} (h : x m = .error error m') :
  (x >>= f) m = .error error m'
  := by
  change EStateM.bind x f m = _
  rw [EStateM.bind, h]

end Machine

namespace Store

variable {store store' store'' : Store}

/-- An unlimited sink accepts whatever is written. -/
theorem exists_write (unlimited : store.sink.Unlimited) (bytes : List UInt8) (line : Nat) :
  ∃ store', write bytes line store = .ok () store' ∧ store'.sink.Unlimited
    ∧ store'.sink.accepted = store.sink.accepted ++ bytes
  := by
  rw [write, unlimited.write_eq]
  exact ⟨_, rfl, ⟨unlimited.writeLimit, unlimited.flushLimit⟩, rfl⟩

/-- An unlimited sink grants every flush. -/
theorem exists_flush (unlimited : store.sink.Unlimited) (line : Nat) :
  ∃ store', flush line store = .ok () store' ∧ store'.sink.Unlimited
    ∧ store'.sink.accepted = store.sink.accepted
  := by
  rw [flush, unlimited.flush_eq]
  exact ⟨_, rfl, ⟨unlimited.writeLimit, unlimited.flushLimit⟩, rfl⟩

/-- The store that an effect leaves, with or without an error. -/
def left {α : Type} : EStateM.Result RuntimeError Store α → Store
  | .ok _ store => store
  | .error _ store => store

/-- The sink is unlimited, and it has accepted the same bytes as another one. -/
structure Silent (store store' : Store) : Prop where
  unlimited : store'.sink.Unlimited
  accepted : store'.sink.accepted = store.sink.accepted

/-- An effect prints nothing if an unlimited sink has accepted the same bytes after it as
before, whether it fails or not. -/
def PrintsNothing {α : Type} (x : Effect α) : Prop :=
  ∀ store : Store, store.sink.Unlimited → Silent store (left (x store))

theorem printsNothing_bind {α β : Type} {x : Effect α} {f : α → Effect β}
    (hx : PrintsNothing x) (hf : ∀ a, PrintsNothing (f a)) :
  PrintsNothing (x >>= f)
  := by
  intro store unlimited
  have first := hx store unlimited
  cases taken : x store with
  | error error store' =>
    rw [taken] at first
    rw [Machine.bind_of_error taken]
    apply first
  | ok a store' =>
    rw [taken] at first
    rw [Machine.bind_of_ok taken]
    have second := hf a store' first.unlimited
    constructor
    · apply second.unlimited
    · apply second.accepted.trans first.accepted

theorem printsNothing_throw {α : Type} (error : RuntimeError) :
  PrintsNothing (throw error : Effect α)
  := by
  intro store unlimited
  exact ⟨unlimited, rfl⟩

theorem printsNothing_pure {α : Type} (a : α) :
  PrintsNothing (pure a : Effect α)
  := by
  intro store unlimited
  exact ⟨unlimited, rfl⟩

theorem printsNothing_value (node : Node) :
  PrintsNothing (value node)
  := by
  intro store unlimited
  unfold value
  cases node.eval store.scope
  all_goals exact ⟨unlimited, rfl⟩

theorem printsNothing_assign (name : String) (value : Value) :
  PrintsNothing (assign name value)
  := by
  intro store unlimited
  exact ⟨unlimited, rfl⟩

theorem printsNothing_define (definition : Node) :
  PrintsNothing (define definition)
  := by
  intro store unlimited
  unfold define
  split
  all_goals exact ⟨unlimited, rfl⟩

theorem printsNothing_flush (line : Nat) :
  PrintsNothing (flush line)
  := by
  intro store unlimited
  obtain ⟨store', flushed, room, accepted⟩ := exists_flush unlimited line
  rw [flushed]
  exact ⟨room, accepted⟩

theorem printsNothing_nextWord (line : Nat) :
  PrintsNothing (nextWord line)
  := by
  intro store unlimited
  unfold nextWord
  split
  all_goals exact ⟨unlimited, rfl⟩

theorem printsNothing_readValue (name : String) (line : Nat) :
  PrintsNothing (readValue name line)
  := by
  apply printsNothing_bind (printsNothing_flush line)
  intro _
  apply printsNothing_bind (printsNothing_nextWord line)
  intro word?
  split
  · apply printsNothing_throw
  · split
    · apply printsNothing_pure
    · apply printsNothing_throw

/-- What a statement does to an unlimited sink: it continues the output, or fails without
having printed anything. -/
inductive Prints (store : Store) : EStateM.Result RuntimeError Store Unit → Prop where
  | ok {store' : Store} (unlimited : store'.sink.Unlimited)
      (continues : store.sink.accepted.toList <+: store'.sink.accepted.toList) :
      Prints store (.ok () store')
  | error {error : RuntimeError} {store' : Store}
      (accepted : store'.sink.accepted = store.sink.accepted) : Prints store (.error error store')

/-- What prints nothing continues the output by nothing. -/
theorem PrintsNothing.prints {x : Effect Unit} (hx : PrintsNothing x)
    (unlimited : store.sink.Unlimited) :
  Prints store (x store)
  := by
  have silent := hx store unlimited
  cases taken : x store with
  | error error store' =>
    rw [taken] at silent
    apply Prints.error silent.accepted
  | ok _ store' =>
    rw [taken] at silent
    apply Prints.ok silent.unlimited
    apply (congrArg (fun accepted => _ <+: accepted.toList) silent.accepted).mpr
    apply List.prefix_refl

/-- Once there is a value, it is printed as a whole. -/
theorem prints_write {x : Effect Value} (hx : PrintsNothing x) (unlimited : store.sink.Unlimited)
    (line : Nat) :
  Prints store ((x >>= fun value => write (Number.printed value) line) store)
  := by
  have silent := hx store unlimited
  cases taken : x store with
  | error error store' =>
    rw [taken] at silent
    rw [Machine.bind_of_error taken]
    apply Prints.error silent.accepted
  | ok value store' =>
    rw [taken] at silent
    obtain ⟨store'', written, room, accepted⟩ :=
      exists_write silent.unlimited (Number.printed value) line
    rw [Machine.bind_of_ok taken]
    apply (congrArg (Prints store) written).mpr
    apply Prints.ok room
    rw [accepted, silent.accepted]
    simp

end Store

open Store in
/-- A statement that fails has printed nothing. -/
theorem Node.prints_perform (statement : Node) {store : Store}
    (unlimited : store.sink.Unlimited) :
  Prints store (statement.perform store)
  := by
  -- The cases are an assignment, a definition, `print`, `read` and whatever is no statement.
  unfold perform
  split
  · apply PrintsNothing.prints _ unlimited
    apply printsNothing_bind (printsNothing_value _)
    intro value
    apply printsNothing_assign
  · apply (printsNothing_define _).prints unlimited
  · apply prints_write (printsNothing_value _) unlimited
  · apply PrintsNothing.prints _ unlimited
    apply printsNothing_bind (printsNothing_readValue _ _)
    intro value
    apply printsNothing_assign
  · apply (printsNothing_throw _).prints unlimited

/-! ### Statements one after the other -/

namespace Store

/-- Statements that succeed are followed by others. -/
theorem forM_append_of_ok {statements : List Node}
    (performed : statements.forM Node.perform store = .ok () store') (others : List Node) :
  (statements ++ others).forM Node.perform store = others.forM Node.perform store'
  := by
  induction statements generalizing store with
  | nil =>
    cases performed
    rfl
  | cons statement statements ih =>
    obtain ⟨_, store₁, first, rest⟩ := Machine.bind_eq_ok.mp performed
    apply (Machine.bind_of_ok first).trans
    apply ih rest

/-- Statements that fail are not followed by others. -/
theorem forM_append_of_error {statements : List Node} {error : RuntimeError}
    (failed : statements.forM Node.perform store = .error error store') (others : List Node) :
  (statements ++ others).forM Node.perform store = .error error store'
  := by
  induction statements generalizing store with
  | nil => cases failed
  | cons statement statements ih =>
    cases first : statement.perform store with
    | ok _ store₁ =>
      apply (Machine.bind_of_ok first).trans
      apply ih ((Machine.bind_of_ok first).symm.trans failed)
    | error error' store₁ =>
      have same := (Machine.bind_of_error first).symm.trans failed
      cases same
      apply Machine.bind_of_error first

/-- When statements succeed, the first of them do, and the others after them. -/
theorem exists_forM_take {statements : List Node}
    (performed : statements.forM Node.perform store = .ok () store'') (count : Nat) :
  ∃ store', (statements.take count).forM Node.perform store = .ok () store'
    ∧ (statements.drop count).forM Node.perform store' = .ok () store''
  := by
  rw [← List.take_append_drop count statements] at performed
  cases taken : (statements.take count).forM Node.perform store with
  | ok _ store' =>
    rw [forM_append_of_ok taken] at performed
    exact ⟨store', rfl, performed⟩
  | error error store' =>
    rw [forM_append_of_error taken] at performed
    cases performed

/-- When statements fail, one of them does, and those before it succeed. -/
theorem exists_failing {statements : List Node} {error : RuntimeError}
    (failed : statements.forM Node.perform store = .error error store'') :
  ∃ (before after : List Node) (statement : Node) (store' : Store),
    statements = before ++ statement :: after
      ∧ before.forM Node.perform store = .ok () store'
      ∧ statement.perform store' = .error error store''
  := by
  induction statements generalizing store with
  | nil => cases failed
  | cons statement statements ih =>
    cases first : statement.perform store with
    | ok _ store₁ =>
      obtain ⟨before, after, failing, store', rfl, performed, fails⟩ :=
        ih ((Machine.bind_of_ok first).symm.trans failed)
      exact ⟨statement :: before, after, failing, store', rfl,
        (Machine.bind_of_ok first).trans performed, fails⟩
    | error error' store₁ =>
      have same := (Machine.bind_of_error first).symm.trans failed
      cases same
      exact ⟨[], statements, statement, store, rfl, rfl, first⟩

/-- Statements that succeed continue the output of an unlimited sink. -/
theorem continues_forM {statements : List Node} (unlimited : store.sink.Unlimited)
    (performed : statements.forM Node.perform store = .ok () store') :
  store'.sink.Unlimited ∧ store.sink.accepted.toList <+: store'.sink.accepted.toList
  := by
  induction statements generalizing store with
  | nil =>
    cases performed
    exact ⟨unlimited, List.prefix_refl _⟩
  | cons statement statements ih =>
    obtain ⟨_, store₁, first, rest⟩ := Machine.bind_eq_ok.mp performed
    have prints := statement.prints_perform unlimited
    rw [first] at prints
    cases prints with
    | ok unlimited₁ continues =>
      obtain ⟨unlimited', continues'⟩ := ih unlimited₁ rest
      exact ⟨unlimited', continues.trans continues'⟩

end Store

/-! ### Programs of the first statements -/

namespace Program

open Machine

/-- The program that consists of the first statements of a program. -/
def first (count : Nat) (root : Node) : Node :=
  ofStatements (root.children.take count)

variable {root : Node} {sink : Sink} {input : Input} {statements : List Node} {store : Store}

/-- A program whose statements succeed succeeds if its sink is unlimited. -/
theorem execute_of_performed (all : ∀ statement ∈ statements, statement.IsStatement)
    (unlimited : sink.Unlimited)
    (performed : statements.forM Node.perform ⟨∅, ∅, sink, input⟩ = .ok () store) :
  (∃ memory, (execute (ofStatements statements) sink input).result = .ok memory)
    ∧ (execute (ofStatements statements) sink input).sink.accepted = store.sink.accepted
  := by
  obtain ⟨store', flushed, -, accepted⟩ :=
    Store.exists_flush (Store.continues_forM unlimited performed).1 0
  have evaluated : evaluate (ofStatements statements) sink input = .ofEffect (.ok () store') :=
    congrArg Outcome.ofEffect ((bind_of_ok performed).trans flushed)
  rw [execute_of_isProgram ⟨statements, rfl, all⟩, evaluated]
  exact ⟨⟨_, rfl⟩, accepted⟩

/-- A program of which a statement fails fails. -/
theorem execute_of_failed (all : ∀ statement ∈ statements, statement.IsStatement)
    {error : RuntimeError}
    (failed : statements.forM Node.perform ⟨∅, ∅, sink, input⟩ = .error error store) :
  execute (ofStatements statements) sink input = ⟨.error error, store.sink, store.input⟩
  := by
  rw [execute_of_isProgram ⟨statements, rfl, all⟩]
  apply congrArg Outcome.ofEffect (bind_of_error failed)

/-- With an unlimited sink a program succeeds if and only if its statements do. -/
theorem execute_succeeds_iff (all : ∀ statement ∈ statements, statement.IsStatement)
    (unlimited : sink.Unlimited) :
  (∃ memory, (execute (ofStatements statements) sink input).result = .ok memory)
    ↔ ∃ store, statements.forM Node.perform ⟨∅, ∅, sink, input⟩ = .ok () store
  := by
  constructor
  · rintro ⟨memory, succeeded⟩
    cases performed : statements.forM Node.perform ⟨∅, ∅, sink, input⟩ with
    | ok _ store => exact ⟨store, rfl⟩
    | error error store =>
      rw [execute_of_failed all performed] at succeeded
      cases succeeded
  · rintro ⟨store, performed⟩
    apply (execute_of_performed all unlimited performed).1

/-- The program of so many first statements succeeds, and that of one more fails. -/
structure BreaksAfter (root : Node) (sink : Sink) (input : Input) (count : Nat) : Prop where
  succeeds : ∃ memory, (execute (first count root) sink input).result = .ok memory
  fails : ∃ error, (execute (first (count + 1) root) sink input).result = .error error

theorem isProgram_first (isProgram : root.IsProgram) (count : Nat) :
  (first count root).IsProgram
  := by
  obtain ⟨statements, rfl, all⟩ := isProgram
  exact ⟨_, rfl, fun statement mem => all statement (List.mem_of_mem_take mem)⟩

theorem first_first {count count' : Nat} (le : count ≤ count') :
  first count (first count' root) = first count root
  := by
  simp [first, ofStatements, List.take_take, Nat.min_eq_left le]

theorem first_append (statements others : List Node) :
  first statements.length (ofStatements (statements ++ others)) = ofStatements statements
  := by
  simp only [first, ofStatements, List.take_left]

/-- If a program succeeds, so do the programs of its first statements, whose output it
continues. -/
theorem first_succeeds (isProgram : root.IsProgram) (unlimited : sink.Unlimited)
    (succeeds : ∃ memory, (execute root sink input).result = .ok memory) (count : Nat) :
  (∃ memory, (execute (first count root) sink input).result = .ok memory)
    ∧ (execute (first count root) sink input).sink.accepted.toList
      <+: (execute root sink input).sink.accepted.toList
  := by
  obtain ⟨statements, rfl, all⟩ := isProgram
  have allFirst : ∀ statement ∈ statements.take count, statement.IsStatement :=
    fun statement mem => all statement (List.mem_of_mem_take mem)
  obtain ⟨store, performed⟩ := (execute_succeeds_iff all unlimited).mp succeeds
  obtain ⟨store', performedFirst, performedRest⟩ := Store.exists_forM_take performed count
  obtain ⟨succeedsFirst, acceptedFirst⟩ :=
    execute_of_performed allFirst unlimited performedFirst
  have room := (Store.continues_forM unlimited performedFirst).1
  constructor
  · apply succeedsFirst
  · rw [(execute_of_performed all unlimited performed).2]
    apply (congrArg (fun accepted => accepted.toList <+: _) acceptedFirst).mpr
    apply (Store.continues_forM room performedRest).2

/-- After a program that fails no longer one succeeds. -/
theorem BreaksAfter.le (isProgram : root.IsProgram) (unlimited : sink.Unlimited)
    {count count' : Nat} (breaks : BreaksAfter root sink input count)
    (breaks' : BreaksAfter root sink input count') :
  count' ≤ count
  := by
  apply Nat.le_of_not_lt
  intro lt
  obtain ⟨error, fails⟩ := breaks.fails
  obtain ⟨⟨memory, succeeds⟩, -⟩ := first_succeeds (isProgram_first isProgram count') unlimited
    breaks'.succeeds (count + 1)
  rw [first_first lt, fails] at succeeds
  cases succeeds

/-- A program that fails fails like the program that ends with its failing statement, and
prints what the program before that statement prints. -/
theorem exists_breaksAfter (isProgram : root.IsProgram) (unlimited : sink.Unlimited)
    {error : RuntimeError} (failed : (execute root sink input).result = .error error) :
  ∃ count < root.children.length, BreaksAfter root sink input count
    ∧ (execute (first (count + 1) root) sink input).result = .error error
    ∧ (execute root sink input).sink.accepted
      = (execute (first count root) sink input).sink.accepted
  := by
  obtain ⟨statements, rfl, all⟩ := isProgram
  cases performed : statements.forM Node.perform ⟨∅, ∅, sink, input⟩ with
  | ok _ store =>
    obtain ⟨memory, succeeded⟩ := (execute_of_performed all unlimited performed).1
    rw [succeeded] at failed
    cases failed
  | error error' store =>
    rw [execute_of_failed all performed] at failed ⊢
    cases failed
    obtain ⟨before, after, failing, store', rfl, performedBefore, fails⟩ :=
      Store.exists_failing performed
    have allBefore : ∀ statement ∈ before, statement.IsStatement :=
      fun statement mem => all statement (List.mem_append_left _ mem)
    have allTo : ∀ statement ∈ before ++ [failing], statement.IsStatement := by
      intro statement mem
      apply all statement
      rw [List.append_cons]
      apply List.mem_append_left _ mem
    have failedTo : (before ++ [failing]).forM Node.perform ⟨∅, ∅, sink, input⟩
        = .error error store :=
      (Store.forM_append_of_ok performedBefore _).trans (bind_of_error fails)
    have firstBefore : first before.length (ofStatements (before ++ failing :: after))
        = ofStatements before := first_append before _
    have firstTo : first (before.length + 1) (ofStatements (before ++ failing :: after))
        = ofStatements (before ++ [failing]) := by
      rw [List.append_cons, ← first_append (before ++ [failing]) after, List.length_append]
      rfl
    have prints := failing.prints_perform (Store.continues_forM unlimited performedBefore).1
    obtain ⟨succeedsBefore, acceptedBefore⟩ :=
      execute_of_performed allBefore unlimited performedBefore
    refine ⟨before.length, by simp [ofStatements], ⟨?_, error, ?_⟩, ?_, ?_⟩
    · rw [firstBefore]
      apply succeedsBefore
    · rw [firstTo, execute_of_failed allTo failedTo]
    · rw [firstTo, execute_of_failed allTo failedTo]
    · rw [firstBefore, acceptedBefore]
      rw [fails] at prints
      cases prints with
      | error accepted => apply accepted

/-- Let a compiled program run with an unlimited sink.  If it fails, there is exactly one
statement such that the program of the statements before it succeeds and that of the
statements up to it fails; the whole program fails with the same error, and its output is that
of the statements before.  If it succeeds, so do the programs of its first statements, and
each prints a prefix of the whole output. -/
theorem execute_keeps_earlier_output
    {tokens : List Token} (accepted : ofTokens tokens = .ok root) (unlimited : sink.Unlimited)
    (input : Input) :
  (∀ error, (execute root sink input).result = .error error →
      ∃ count < root.children.length, BreaksAfter root sink input count
        ∧ (∀ count', BreaksAfter root sink input count' → count' = count)
        ∧ (execute (first (count + 1) root) sink input).result = .error error
        ∧ (execute root sink input).sink.accepted
          = (execute (first count root) sink input).sink.accepted)
    ∧ ∀ memory, (execute root sink input).result = .ok memory → ∀ count,
      (∃ memory', (execute (first count root) sink input).result = .ok memory')
        ∧ (execute (first count root) sink input).sink.accepted.toList
          <+: (execute root sink input).sink.accepted.toList
  := by
  have isProgram := isProgram_of_ofTokens accepted
  constructor
  · intro error failed
    obtain ⟨count, lt, breaks, sameError, sameOutput⟩ :=
      exists_breaksAfter isProgram unlimited failed
    refine ⟨count, lt, breaks, ?_, sameError, sameOutput⟩
    intro count' breaks'
    apply Nat.le_antisymm
    · apply breaks.le isProgram unlimited breaks'
    · apply breaks'.le isProgram unlimited breaks
  · intro memory succeeded count
    apply first_succeeds isProgram unlimited ⟨memory, succeeded⟩

/-- The tokens of the lines `F[x] = 6 / x`, `print F[2]`, `print F[0]` and `print 7`. -/
def quotientTokens : List Token :=
  [⟨.function, "F", 1, 1⟩, ⟨.opening .square, "[", 1, 2⟩, ⟨.variable, "x", 1, 3⟩,
    ⟨.closing .square, "]", 1, 4⟩, ⟨.equals, "=", 1, 6⟩, ⟨.number, "6", 1, 8⟩,
    ⟨.operator .divide, "/", 1, 10⟩, ⟨.variable, "x", 1, 12⟩, ⟨.endOfLine, "", 1, 13⟩,
    ⟨.print, "print", 2, 1⟩, ⟨.function, "F", 2, 7⟩, ⟨.opening .square, "[", 2, 8⟩,
    ⟨.number, "2", 2, 9⟩, ⟨.closing .square, "]", 2, 10⟩, ⟨.endOfLine, "", 2, 11⟩,
    ⟨.print, "print", 3, 1⟩, ⟨.function, "F", 3, 7⟩, ⟨.opening .square, "[", 3, 8⟩,
    ⟨.number, "0", 3, 9⟩, ⟨.closing .square, "]", 3, 10⟩, ⟨.endOfLine, "", 3, 11⟩,
    ⟨.print, "print", 4, 1⟩, ⟨.number, "7", 4, 7⟩, ⟨.endOfLine, "", 4, 8⟩]

/-- The quotient by zero in the body of `F` keeps the output `3` of the statement before. -/
theorem execute_keeps_earlier_output_quotient :
  ∃ root count, ofTokens quotientTokens = .ok root
    ∧ (execute root .unlimited (.ofBytes [])).result = .error (.divisionByZero 1)
    ∧ BreaksAfter root .unlimited (.ofBytes []) count
    ∧ (execute (first count root) .unlimited (.ofBytes [])).sink.accepted.toList = [51, 10]
  := by
  have accepted : ofTokens quotientTokens = .ok (ofStatements [
    Statement.definition "F" 1 (.leaf .variable "x" 1)
      ⟨.operation .divide, "", 1, [.leaf .number "6" 1, .leaf .variable "x" 1]⟩,
    Statement.print 2 ⟨.call, "F", 2, [.leaf .number "2" 2]⟩,
    Statement.print 3 ⟨.call, "F", 3, [.leaf .number "0" 3]⟩,
    Statement.print 4 (.leaf .number "7" 4)]) := rfl
  have executed := execute_of_resultWithin 30 .unlimited (.ofBytes [])
    (isProgram_of_ofTokens accepted).isWellFormed rfl
  have unlimited : Sink.unlimited.Unlimited := ⟨rfl, rfl⟩
  obtain ⟨failing, -⟩ := execute_keeps_earlier_output accepted unlimited (.ofBytes [])
  obtain ⟨count, -, breaks, -, -, sameOutput⟩ :=
    failing (.divisionByZero 1) (congrArg Outcome.result executed)
  refine ⟨_, count, accepted, congrArg Outcome.result executed, breaks, ?_⟩
  rw [← sameOutput, executed]
  rfl

end Program

end IntScript
