import IntScript.Proofs.Limits
import IntScript.Token.Scan

/-!
# Full sinks

A program whose sink accepts only so many bytes, compared with the same program on an unlimited
sink.  Main statement: if the output fits, nothing differs; otherwise the output is cut after as
many bytes as the sink accepts, and the program fails at the node that prints the first byte
behind them.
-/

namespace IntScript

/-- Only accepted bytes count if flushes are not limited. -/
theorem Sink.within_iff_of_accepted {sink : Sink} {limit : Nat} :
  sink.Within (some limit) none ↔ sink.accepted.size ≤ limit
  := by
  constructor
  · intro within
    apply within.accepted limit rfl
  · intro fits
    constructor
    · rintro _ ⟨⟩
      apply fits
    · exact nofun

/-- What is cut off behind the end of a prefix does not matter to a shorter prefix. -/
theorem take_of_continues {α : Type} {xs ys : Array α} {limit : Nat}
    (continues : xs.toList <+: ys.toList) (long : limit ≤ xs.size) :
  xs.take limit = ys.take limit
  := by
  apply Array.toList_inj.mp
  obtain ⟨rest, split⟩ := continues
  have cut : ys.toList.take limit = xs.toList.take limit := by
    rw [← split, List.take_append_of_le_length long]
  simpa using cut.symm

namespace Program

open Machine

variable {root : Node} {input : Input} {limit : Nat}

/-- A program is about to print a value for a node, and the first byte of the whole output that does
not fit into the limit is one of this value. -/
structure PrintsBeyond (root : Node) (input : Input) (limit : Nat) (m : Machine) (node : Node)
    (value : Value) : Prop where
  reaches : Reaches (start root .unlimited input) m
  atPrint : m.AtPrint node value
  before : m.sink.accepted.size ≤ limit
  beyond : limit < m.sink.accepted.size + (Number.printed value).length
  continues : m.sink.accepted.toList ++ Number.printed value
    <+: (execute root .unlimited input).sink.accepted.toList

/-- The flush behind the last statement accepts no byte. -/
theorem accepted_finish {result : EStateM.Result RuntimeError Machine Unit}
    (unlimited : (left result).sink.Unlimited) (line : Nat) :
  (finish line result).sink.accepted = (left result).sink.accepted
  := by
  cases result with
  | ok _ last =>
    have unlimited : last.sink.Unlimited := unlimited
    rw [finish_of_unlimited unlimited]
    rfl
  | error => rfl

/-- A program whose output does not fit fails where the first byte is printed that does not. -/
theorem exists_printsBeyond (wellFormed : root.isWellFormed)
    (full : limit < (execute root .unlimited input).sink.accepted.size) :
  ∃ m node value, PrintsBeyond root input limit m node value
    ∧ execute root (.limited (some limit) none) input
      = ⟨.error (.stream .sinkFull node.line),
        ⟨(execute root .unlimited input).sink.accepted.take limit, m.sink.flushes, some limit,
          none⟩,
        m.input⟩
  := by
  obtain ⟨last, result, reaches, ends, same⟩ :=
    exists_ends_of_isWellFormed wellFormed .unlimited input
  have accepted := accepted_finish (unlimited_left reaches ends) root.line
  rw [← same] at accepted
  rw [accepted] at full ⊢
  have beyond : ¬ (left result).sink.Within (some limit) none := by
    rw [Sink.within_iff_of_accepted]
    omega
  obtain ⟨m, result', reaches', -, within, stops, continues⟩ :=
    reaches.exists_stops ends (unlimited_start root input) (within_start root input) beyond
  cases stops with
  | read often => cases often
  | @print node value _ failed atLimit atPrint before beyond' written failure sink inputLeft =>
    cases atLimit
    have executed := execute_of_failure wellFormed reaches' within failure
    rw [sink, inputLeft] at executed
    have long : limit ≤ (left result').sink.accepted.size := by
      rw [written, Sink.size_accepting]
      omega
    rw [take_of_continues continues.accepted long] at executed
    refine ⟨m, node, value, ⟨reaches', atPrint, before, beyond', ?_⟩, executed⟩
    rw [accepted]
    apply List.IsPrefix.trans _ continues.accepted
    rw [written]
    simp [Sink.accepting]

/-- A limit on the bytes that a sink accepts cuts the output there and does nothing else.  If the
whole output fits, the program has the same outcome, but for the limit that its sink keeps.
Otherwise it fails for the node whose text has the first byte that does not fit, and leaves the
flushes and the input as they were before that node printed. -/
theorem execute_cut_by_full_sink
    {root : Node} (wellFormed : root.isWellFormed) (input : Input) (limit : Nat) :
  ((execute root .unlimited input).sink.accepted.size ≤ limit →
      execute root (.limited (some limit) none) input
        = (execute root .unlimited input).mapSink (.withLimits (some limit) none))
    ∧ (limit < (execute root .unlimited input).sink.accepted.size →
      ∃ m node value, PrintsBeyond root input limit m node value
        ∧ execute root (.limited (some limit) none) input
          = ⟨.error (.stream .sinkFull node.line),
            ⟨(execute root .unlimited input).sink.accepted.take limit, m.sink.flushes, some limit,
              none⟩,
            m.input⟩)
  := by
  constructor
  · intro fits
    apply execute_withLimits wellFormed (Sink.within_iff_of_accepted.mpr fits)
  · apply exists_printsBeyond wellFormed

/-- The second number is cut in the middle if the sink accepts four bytes, and not if it accepts
six. -/
theorem execute_cut_by_full_sink_in_number :
  ∃ root, ofTokens (Token.scan ["print 12", "print 34"]) = .ok root
    ∧ (∃ m node value, PrintsBeyond root (.ofBytes []) 4 m node value ∧ node.line = 2
      ∧ execute root (.limited (some 4) none) (.ofBytes [])
        = ⟨.error (.stream .sinkFull 2), ⟨#[0x31, 0x32, 0x0A, 0x33], m.sink.flushes, some 4, none⟩,
          m.input⟩)
    ∧ execute root (.limited (some 6) none) (.ofBytes [])
      = ⟨.ok .empty, ⟨#[0x31, 0x32, 0x0A, 0x33, 0x34, 0x0A], #[6], some 6, none⟩, .ofBytes []⟩
  := by
  have accepted : ofTokens (Token.scan ["print 12", "print 34"]) = .ok (ofStatements [
      Statement.print 1 (.leaf .number "12" 1), Statement.print 2 (.leaf .number "34" 2)]) := rfl
  have wellFormed := (isProgram_of_ofTokens accepted).isWellFormed
  have unlimited := execute_of_resultWithin 20 .unlimited (.ofBytes []) wellFormed rfl
  have limited := execute_of_resultWithin 20 (.limited (some 4) none) (.ofBytes []) wellFormed rfl
  have output : (execute _ .unlimited (.ofBytes [])).sink.accepted
    = #[0x31, 0x32, 0x0A, 0x33, 0x34, 0x0A] := congrArg (·.sink.accepted) unlimited
  refine ⟨_, accepted, ?_, ?_⟩
  · obtain ⟨-, cuts⟩ := execute_cut_by_full_sink wellFormed (.ofBytes []) 4
    obtain ⟨m, node, value, printsBeyond, cut⟩ := cuts (by rw [output]; decide)
    have line : node.line = 2 := by
      have failed := congrArg Outcome.result (cut.symm.trans limited)
      injection failed with same
      injection same
    rw [output, line] at cut
    exact ⟨m, node, value, printsBeyond, line, cut⟩
  · obtain ⟨fits, -⟩ := execute_cut_by_full_sink wellFormed (.ofBytes []) 6
    rw [fits (by rw [output]; decide), unlimited]
    rfl

end Program

end IntScript
