import IntScript.Proofs.StreamSteps

/-!
# Limited sinks

What the limits of a sink do to a run.  A run with an unlimited sink is compared with the run of
the same machine whose sink is limited.  As long as the first run stays within the limits the two
go in lockstep, and the sinks differ in nothing but their limits.  The first step by which the
unlimited run goes beyond a limit is a `print` of which some bytes are not accepted, or the flush
of a `read`; there the limited run ends.
-/

namespace IntScript

namespace Sink

variable {sink sink' sink'' : Sink} {writeLimit flushLimit : Option Nat}

/-- The sink with other limits. -/
def withLimits (writeLimit flushLimit : Option Nat) (sink : Sink) : Sink :=
  ⟨sink.accepted, sink.flushes, writeLimit, flushLimit⟩

/-- A sink is within limits if it holds no more bytes and flushes than they allow. -/
structure Within (writeLimit flushLimit : Option Nat) (sink : Sink) : Prop where
  accepted : ∀ limit ∈ writeLimit, sink.accepted.size ≤ limit
  flushes : ∀ limit ∈ flushLimit, sink.flushes.size ≤ limit

/-- A sink continues another one if it has the same limits and keeps all bytes and flushes. -/
structure Continues (sink sink' : Sink) : Prop where
  accepted : sink.accepted.toList <+: sink'.accepted.toList
  flushes : sink.flushes.toList <+: sink'.flushes.toList
  writeLimit : sink'.writeLimit = sink.writeLimit
  flushLimit : sink'.flushLimit = sink.flushLimit

theorem Continues.refl (sink : Sink) :
  Continues sink sink
  :=
  ⟨List.prefix_refl _, List.prefix_refl _, rfl, rfl⟩

theorem Continues.of_eq (same : sink' = sink) :
  Continues sink sink'
  :=
  same ▸ .refl sink'

theorem Continues.trans (h : Continues sink sink') (h' : Continues sink' sink'') :
  Continues sink sink''
  where
  accepted := h.accepted.trans h'.accepted
  flushes := h.flushes.trans h'.flushes
  writeLimit := h'.writeLimit.trans h.writeLimit
  flushLimit := h'.flushLimit.trans h.flushLimit

theorem Continues.unlimited (h : Continues sink sink') (unlimited : sink.Unlimited) :
  sink'.Unlimited
  :=
  ⟨h.writeLimit.trans unlimited.writeLimit, h.flushLimit.trans unlimited.flushLimit⟩

/-- What is within limits was so before. -/
theorem Continues.within (h : Continues sink sink') (within : sink'.Within writeLimit flushLimit) :
  sink.Within writeLimit flushLimit
  where
  accepted limit mem := Nat.le_trans h.accepted.length_le (within.accepted limit mem)
  flushes limit mem := Nat.le_trans h.flushes.length_le (within.flushes limit mem)

theorem size_accepting (bytes : List UInt8) :
  (sink.accepting bytes).accepted.size = sink.accepted.size + bytes.length
  := by
  simp [accepting, ← Array.length_toList]

theorem size_flushed :
  sink.flushed.flushes.size = sink.flushes.size + 1
  := by
  simp [flushed]

theorem continues_accepting (bytes : List UInt8) :
  Continues sink (sink.accepting bytes)
  where
  accepted := by simp [accepting]
  flushes := List.prefix_refl _
  writeLimit := rfl
  flushLimit := rfl

theorem continues_flushed :
  Continues sink sink.flushed
  where
  accepted := List.prefix_refl _
  flushes := by simp [flushed]
  writeLimit := rfl
  flushLimit := rfl

/-- A limited sink accepts bytes that are within its limits. -/
theorem write_withLimits {bytes : List UInt8}
    (within : (sink.accepting bytes).Within writeLimit flushLimit) :
  (sink.withLimits writeLimit flushLimit).write bytes
    = .ok () ((sink.accepting bytes).withLimits writeLimit flushLimit)
  := by
  have fits := within.accepted
  have all : (sink.withLimits writeLimit flushLimit).room bytes.length = bytes.length := by
    unfold room withLimits
    cases writeLimit with
    | none => rfl
    | some limit =>
      have := fits limit rfl
      rw [size_accepting] at this
      simp only
      omega
  simp only [write, all, Nat.lt_irrefl, if_false, List.take_length]
  rfl

/-- Of bytes that are not within its limits a limited sink accepts those that are. -/
theorem write_withLimits_beyond {bytes : List UInt8} {limit : Nat}
    (before : sink.accepted.size ≤ limit) (beyond : limit < (sink.accepting bytes).accepted.size) :
  (sink.withLimits (some limit) flushLimit).write bytes
    = .error .sinkFull
      ⟨(sink.accepting bytes).accepted.take limit, sink.flushes, some limit, flushLimit⟩
  := by
  rw [size_accepting] at beyond
  have rest : (sink.withLimits (some limit) flushLimit).room bytes.length
      = limit - sink.accepted.size := by
    simp only [room, withLimits]
    omega
  have cut : (sink.accepting bytes).accepted.take limit
      = sink.accepted ++ bytes.take (limit - sink.accepted.size) := by
    apply Array.toList_inj.mp
    simp [accepting, List.take_append, List.take_of_length_le, before]
  rw [write, rest, if_pos (by omega), cut]
  rfl

/-- A limited sink grants a flush that is within its limits. -/
theorem flush_withLimits (within : sink.flushed.Within writeLimit flushLimit) :
  (sink.withLimits writeLimit flushLimit).flush
    = .ok () (sink.flushed.withLimits writeLimit flushLimit)
  := by
  have fits := within.flushes
  have grants : (sink.withLimits writeLimit flushLimit).grantsFlush = true := by
    unfold grantsFlush withLimits
    cases flushLimit with
    | none => rfl
    | some limit =>
      have := fits limit rfl
      rw [size_flushed] at this
      simp only [decide_eq_true_eq]
      omega
  rw [flush, if_pos grants]
  rfl

/-- A limited sink does not grant a flush that is not within its limits. -/
theorem flush_withLimits_beyond {limit : Nat} (beyond : limit < sink.flushed.flushes.size) :
  (sink.withLimits writeLimit (some limit)).flush
    = .error .flushFailed (sink.withLimits writeLimit (some limit))
  := by
  rw [size_flushed] at beyond
  have refuses : ¬ (sink.withLimits writeLimit (some limit)).grantsFlush := by
    change ¬ decide (sink.flushes.size < limit) = true
    rw [decide_eq_true_iff]
    omega
  rw [flush, if_neg refuses]

/-- A sink is not within limits if it holds too many bytes or too many flushes. -/
theorem not_within_iff :
  ¬ sink.Within writeLimit flushLimit
    ↔ (∃ limit, writeLimit = some limit ∧ limit < sink.accepted.size)
      ∨ ∃ limit, flushLimit = some limit ∧ limit < sink.flushes.size
  := by
  constructor
  · intro beyond
    by_cases full : ∃ limit, writeLimit = some limit ∧ limit < sink.accepted.size
    · exact .inl full
    · by_cases often : ∃ limit, flushLimit = some limit ∧ limit < sink.flushes.size
      · exact .inr often
      · exfalso
        apply beyond
        constructor
        · intro limit mem
          apply Nat.le_of_not_lt fun lt => full ⟨limit, mem, lt⟩
        · intro limit mem
          apply Nat.le_of_not_lt fun lt => often ⟨limit, mem, lt⟩
  · rintro (⟨limit, rfl, beyond⟩ | ⟨limit, rfl, beyond⟩) within
    · apply Nat.not_le_of_lt beyond (within.accepted limit rfl)
    · apply Nat.not_le_of_lt beyond (within.flushes limit rfl)

end Sink

namespace Machine

variable {m m' last : Machine} {result : EStateM.Result RuntimeError Machine Unit} {node : Node}
  {value : Value} {writeLimit flushLimit : Option Nat} {bytes : List UInt8} {line : Nat}

/-- The machine with other limits. -/
def withLimits (writeLimit flushLimit : Option Nat) (m : Machine) : Machine :=
  m.withSink (m.sink.withLimits writeLimit flushLimit)

/-! ### Steps with limits -/

theorem write_of_ok {sink : Sink} (written : m.sink.write bytes = .ok () sink) :
  write bytes line m = .ok () (m.withSink sink)
  := by
  simp only [write, written]
  rfl

theorem write_of_error {sink : Sink} {cause : StreamError}
    (written : m.sink.write bytes = .error cause sink) :
  write bytes line m = .error (.stream cause line) (m.withSink sink)
  := by
  simp only [write, written]
  rfl

theorem flush_of_ok {sink : Sink} (flushed : m.sink.flush = .ok () sink) :
  flush line m = .ok () (m.withSink sink)
  := by
  simp only [flush, flushed]
  rfl

theorem flush_of_error {sink : Sink} {cause : StreamError}
    (flushed : m.sink.flush = .error cause sink) :
  flush line m = .error (.stream cause line) (m.withSink sink)
  := by
  simp only [flush, flushed]
  rfl

/-- How a machine stops that is limited when the step of the unlimited one goes beyond the limits:
in the middle of what it prints, or before it reads. -/
inductive Stops (writeLimit flushLimit : Option Nat) (m : Machine)
    (result : EStateM.Result RuntimeError Machine Unit) : Prop where
  | print {node : Node} {value : Value} {limit : Nat} {failed : Machine}
      (full : writeLimit = some limit) (atPrint : m.AtPrint node value)
      (before : m.sink.accepted.size ≤ limit)
      (beyond : limit < m.sink.accepted.size + (Number.printed value).length)
      (accepted : (left result).sink = m.sink.accepting (Number.printed value))
      (failure : (m.withLimits writeLimit flushLimit).step?
        = some (.error (.stream .sinkFull node.line) failed))
      (sink : failed.sink
        = ⟨(left result).sink.accepted.take limit, m.sink.flushes, writeLimit, flushLimit⟩)
      (input : failed.input = m.input) : Stops writeLimit flushLimit m result
  | read {node : Node} {failed : Machine} (often : flushLimit = some m.sink.flushes.size)
      (atRead : m.AtRead node)
      (failure : (m.withLimits writeLimit flushLimit).step?
        = some (.error (.stream .flushFailed node.line) failed))
      (sink : failed.sink = m.sink.withLimits writeLimit flushLimit)
      (input : failed.input = m.input) : Stops writeLimit flushLimit m result

/-- How the step of a machine with an unlimited sink and that of the limited machine go together:
either they do the same, or the limited machine stops. -/
structure Comparable (writeLimit flushLimit : Option Nat) (m : Machine)
    (result : EStateM.Result RuntimeError Machine Unit) : Prop where
  continues : m.sink.Continues (left result).sink
  within : (left result).sink.Within writeLimit flushLimit →
    (m.withLimits writeLimit flushLimit).step?
      = some (leaving (withLimits writeLimit flushLimit) result)
  beyond : m.sink.Within writeLimit flushLimit →
    ¬ (left result).sink.Within writeLimit flushLimit → Stops writeLimit flushLimit m result

theorem leaving_withLimits {sink : Sink} (same : (left result).sink = sink) :
  leaving (withSink (sink.withLimits writeLimit flushLimit)) result
    = leaving (withLimits writeLimit flushLimit) result
  := by
  subst same
  cases result <;> rfl

/-- Limits do not matter to a blind step. -/
theorem StepsBlindly.comparable (blindly : m.StepsBlindly) (step : m.step? = some result) :
  Comparable writeLimit flushLimit m result
  := by
  have same := blindly.sink_left step
  constructor
  · apply Sink.Continues.of_eq same
  · intro _
    rw [← leaving_withLimits same]
    apply blindly.step?_withSink step
  · intro within beyond
    rw [same] at beyond
    contradiction

/-- On an unlimited sink everything is printed. -/
theorem AtPrint.step?_of_unlimited (atPrint : m.AtPrint node value)
    (unlimited : m.sink.Unlimited) :
  m.step? = some (.ok () (m.unloaded.withSink (m.sink.accepting (Number.printed value))))
  := by
  have written : write (Number.printed value) node.line m.unloaded = _ :=
    write_of_ok (unlimited.write_eq _)
  rw [atPrint.step?_eq, written]

/-- With an unlimited sink a word is taken behind a flush. -/
theorem AtRead.step?_of_unlimited {target : Node} {others : List Node} (atRead : m.AtRead node)
    (children : node.children = target :: others) (unlimited : m.sink.Unlimited) :
  m.step? = some (take target.text node.line (m.popped.withSink m.sink.flushed))
  := by
  have flushed : flush node.line m.popped = _ := flush_of_ok unlimited.flush_eq
  rw [atRead.step?_eq children, bind_of_ok flushed]

/-- A machine that prints stops where its sink is full. -/
theorem AtPrint.comparable (atPrint : m.AtPrint node value) (unlimited : m.sink.Unlimited)
    (step : m.step? = some result) :
  Comparable writeLimit flushLimit m result
  := by
  have limited : (m.withLimits writeLimit flushLimit).AtPrint node value :=
    ⟨atPrint.top, atPrint.kind, atPrint.held⟩
  have restLimited : (m.withLimits writeLimit flushLimit).step?
      = some (write (Number.printed value) node.line
        (m.unloaded.withLimits writeLimit flushLimit)) :=
    limited.step?_eq
  obtain rfl := Option.some_inj.mp ((atPrint.step?_of_unlimited unlimited).symm.trans step)
  constructor
  · apply Sink.continues_accepting
  · intro within
    have accepts : (m.sink.withLimits writeLimit flushLimit).write (Number.printed value) = _ :=
      Sink.write_withLimits within
    have stays : write (Number.printed value) node.line
        (m.unloaded.withLimits writeLimit flushLimit) = _ := write_of_ok accepts
    rw [restLimited, stays]
    rfl
  · intro within beyond
    rcases Sink.not_within_iff.mp beyond with ⟨limit, rfl, full⟩ | ⟨limit, rfl, often⟩
    · have before := within.accepted limit rfl
      have refuses : (m.sink.withLimits (some limit) flushLimit).write (Number.printed value) = _ :=
        Sink.write_withLimits_beyond before full
      have stops : write (Number.printed value) node.line
          (m.unloaded.withLimits (some limit) flushLimit) = _ := write_of_error refuses
      rw [stops] at restLimited
      exact .print rfl atPrint before (Sink.size_accepting _ ▸ full) rfl restLimited rfl rfl
    · exfalso
      apply Nat.not_le_of_lt often (within.flushes limit rfl)

/-- A machine that reads stops when its flush is not granted. -/
theorem AtRead.comparable {target : Node} {others : List Node} (atRead : m.AtRead node)
    (children : node.children = target :: others) (unlimited : m.sink.Unlimited)
    (step : m.step? = some result) :
  Comparable writeLimit flushLimit m result
  := by
  have limited : (m.withLimits writeLimit flushLimit).AtRead node := ⟨atRead.top, atRead.kind⟩
  have restLimited : (m.withLimits writeLimit flushLimit).step?
      = some ((flush node.line >>= fun _ => take target.text node.line)
        (m.popped.withLimits writeLimit flushLimit)) :=
    limited.step?_eq children
  obtain rfl := Option.some_inj.mp ((atRead.step?_of_unlimited children unlimited).symm.trans step)
  have same := sink_left_take target.text node.line (m.popped.withSink m.sink.flushed)
  constructor
  · rw [same]
    apply Sink.continues_flushed
  · intro within
    rw [same] at within
    have grants : (m.sink.withLimits writeLimit flushLimit).flush = _ :=
      Sink.flush_withLimits within
    have stays : flush node.line (m.popped.withLimits writeLimit flushLimit) = _ :=
      flush_of_ok grants
    rw [restLimited, bind_of_ok stays, ← leaving_withLimits same, ← take_withSink]
    rfl
  · intro within beyond
    rw [same] at beyond
    rcases Sink.not_within_iff.mp beyond with ⟨limit, rfl, full⟩ | ⟨limit, rfl, often⟩
    · exfalso
      apply Nat.not_le_of_lt full (within.accepted limit rfl)
    · have before := within.flushes limit rfl
      have refuses : (m.sink.withLimits writeLimit (some limit)).flush = _ :=
        Sink.flush_withLimits_beyond often
      have stops : flush node.line (m.popped.withLimits writeLimit (some limit)) = _ :=
        flush_of_error refuses
      rw [bind_of_error stops] at restLimited
      have last : limit = m.sink.flushes.size := by
        apply Nat.le_antisymm _ before
        apply Nat.le_of_lt_succ
        apply Nat.lt_of_lt_of_eq often Sink.size_flushed
      exact .read (congrArg some last) atRead restLimited rfl rfl

/-- A step of a machine with an unlimited sink can be compared with that of the limited one. -/
theorem comparable (writeLimit flushLimit : Option Nat) (unlimited : m.sink.Unlimited)
    (step : m.step? = some result) :
  Comparable writeLimit flushLimit m result
  := by
  rcases step?_cases step with blindly | ⟨node, value, atPrint⟩ |
    ⟨node, target, others, atRead, children⟩
  · apply blindly.comparable step
  · apply atPrint.comparable unlimited step
  · apply atRead.comparable children unlimited step

/-! ### Runs with limits -/

/-- A step continues an unlimited sink. -/
theorem continues_of_step (unlimited : m.sink.Unlimited) (step : m.step? = some result) :
  m.sink.Continues (left result).sink
  :=
  (comparable none none unlimited step).continues

theorem Reaches.continues (reaches : Reaches m m') (unlimited : m.sink.Unlimited) :
  m.sink.Continues m'.sink
  := by
  obtain ⟨n, steps⟩ := reaches
  induction steps with
  | zero => apply Sink.Continues.refl
  | succ next _ ih =>
    have first := continues_of_step unlimited next
    apply first.trans (ih (first.unlimited unlimited))

theorem Ends.continues (ends : Ends m result) (unlimited : m.sink.Unlimited) :
  m.sink.Continues (left result).sink
  := by
  cases ends with
  | done => apply Sink.Continues.refl
  | failed failure => apply continues_of_step unlimited failure

/-- A limited machine reaches what the unlimited one reaches within the limits. -/
theorem Reaches.withLimits (reaches : Reaches m m') (unlimited : m.sink.Unlimited)
    (within : m'.sink.Within writeLimit flushLimit) :
  Reaches (m.withLimits writeLimit flushLimit) (m'.withLimits writeLimit flushLimit)
  := by
  obtain ⟨n, steps⟩ := reaches
  induction steps with
  | zero => apply Reaches.refl
  | @succ n m m₁ m' next steps ih =>
    have first := comparable writeLimit flushLimit unlimited next
    have unlimited₁ := first.continues.unlimited unlimited
    have rest : Reaches m₁ m' := ⟨n, steps⟩
    have within₁ := (rest.continues unlimited₁).within within
    apply Reaches.head (first.within within₁) (ih unlimited₁ within)

/-- A limited machine ends like the unlimited one if this one ends within the limits. -/
theorem Ends.withLimits (ends : Ends m result) (unlimited : m.sink.Unlimited)
    (within : (left result).sink.Within writeLimit flushLimit) :
  Ends (m.withLimits writeLimit flushLimit) (leaving (.withLimits writeLimit flushLimit) result)
  := by
  cases ends with
  | done done =>
    apply Ends.done
    simp only [step?, Machine.withLimits, withSink, withStreams, frames_eq_nil done]
  | failed failure =>
    apply Ends.failed
    apply (comparable writeLimit flushLimit unlimited failure).within within

/-- If the run of an unlimited machine goes beyond limits, it comes to a step at which the limited
one stops. -/
theorem Reaches.exists_stops (reaches : Reaches m last) (ends : Ends last result)
    (unlimited : m.sink.Unlimited) (within : m.sink.Within writeLimit flushLimit)
    (beyond : ¬ (left result).sink.Within writeLimit flushLimit) :
  ∃ m' result', Reaches m m' ∧ m'.step? = some result' ∧ m'.sink.Within writeLimit flushLimit
    ∧ Stops writeLimit flushLimit m' result' ∧ (left result').sink.Continues (left result).sink
  := by
  obtain ⟨n, steps⟩ := reaches
  induction steps with
  | zero m =>
    cases ends with
    | done => contradiction
    | failed failure =>
      have stops := (comparable writeLimit flushLimit unlimited failure).beyond within beyond
      exact ⟨m, _, .refl m, failure, within, stops, .refl _⟩
  | @succ n m m₁ last next steps ih =>
    have first := comparable writeLimit flushLimit unlimited next
    have unlimited₁ := first.continues.unlimited unlimited
    by_cases within₁ : m₁.sink.Within writeLimit flushLimit
    · obtain ⟨m', result', reaches, step, within', stops, continues⟩ := ih ends unlimited₁ within₁
      exact ⟨m', result', .head next reaches, step, within', stops, continues⟩
    · have rest : Reaches m₁ last := ⟨n, steps⟩
      have continues := rest.continues unlimited₁
      refine ⟨m, _, .refl m, next, within, first.beyond within within₁, ?_⟩
      apply continues.trans (ends.continues (continues.unlimited unlimited₁))

end Machine

/-! ### Programs with limits -/

/-- The outcome with another sink. -/
def Outcome.mapSink {ε α : Type} (f : Sink → Sink) (outcome : Outcome ε α) : Outcome ε α :=
  ⟨outcome.result, f outcome.sink, outcome.input⟩

namespace Program

open Machine

variable {root : Node} {input : Input} {m last : Machine} {writeLimit flushLimit : Option Nat}
  {result : EStateM.Result RuntimeError Machine Unit} {error : RuntimeError} {failed : Machine}

theorem unlimited_start (root : Node) (input : Input) :
  (start root .unlimited input).sink.Unlimited
  :=
  ⟨rfl, rfl⟩

theorem within_start (root : Node) (input : Input) :
  (start root .unlimited input).sink.Within writeLimit flushLimit
  :=
  ⟨fun _ _ => Nat.zero_le _, fun _ _ => Nat.zero_le _⟩

/-- A program with an unlimited sink leaves an unlimited sink. -/
theorem unlimited_left (reaches : Reaches (start root .unlimited input) last)
    (ends : Ends last result) :
  (left result).sink.Unlimited
  := by
  have unlimited := unlimited_start root input
  have unlimitedLast := (reaches.continues unlimited).unlimited unlimited
  apply (ends.continues unlimitedLast).unlimited unlimitedLast

/-- If the run of an unlimited program stays within limits, the limited program ends alike. -/
theorem execute_of_within (wellFormed : root.isWellFormed)
    (reaches : Reaches (start root .unlimited input) last) (ends : Ends last result)
    (within : (left result).sink.Within writeLimit flushLimit) :
  execute root (.limited writeLimit flushLimit) input
    = finish root.line (leaving (.withLimits writeLimit flushLimit) result)
  := by
  have unlimited := unlimited_start root input
  have unlimitedLast := (reaches.continues unlimited).unlimited unlimited
  have withinLast := (ends.continues unlimitedLast).within within
  apply execute_of_ends wellFormed (reaches.withLimits unlimited withinLast)
    (ends.withLimits unlimitedLast within)

/-- Where a step of the limited program fails, the program ends. -/
theorem execute_of_failure (wellFormed : root.isWellFormed)
    (reaches : Reaches (start root .unlimited input) m)
    (within : m.sink.Within writeLimit flushLimit)
    (failure : (m.withLimits writeLimit flushLimit).step? = some (.error error failed)) :
  execute root (.limited writeLimit flushLimit) input = ⟨.error error, failed.sink, failed.input⟩
  :=
  execute_of_ends wellFormed (reaches.withLimits (unlimited_start root input) within)
    (.failed failure)

/-- A program that is done ends well if the flush of its sink is granted. -/
theorem finish_of_flush {sink : Sink} (granted : last.sink.flush = .ok () sink) (line : Nat) :
  finish line (.ok () last) = ⟨.ok last.memory, sink, last.input⟩
  := by
  rw [finish_done, granted]

/-- A program that is done fails if the flush of its sink is not granted. -/
theorem finish_of_refusal {sink : Sink} {cause : StreamError}
    (refused : last.sink.flush = .error cause sink) (line : Nat) :
  finish line (.ok () last) = ⟨.error (.stream cause line), sink, last.input⟩
  := by
  rw [finish_done, refused]

theorem finish_of_unlimited (unlimited : last.sink.Unlimited) (line : Nat) :
  finish line (.ok () last) = ⟨.ok last.memory, last.sink.flushed, last.input⟩
  :=
  finish_of_flush unlimited.flush_eq line

/-- What is flushed behind the last statement is kept. -/
theorem continues_finish (unlimited : (left result).sink.Unlimited) (line : Nat) :
  (left result).sink.Continues (finish line result).sink
  := by
  cases result with
  | ok _ last =>
    have unlimited : last.sink.Unlimited := unlimited
    rw [finish_of_unlimited unlimited]
    apply Sink.continues_flushed
  | error => apply Sink.Continues.refl

/-- A limited program that is done flushes its sink if this is within its limits. -/
theorem finish_withLimits (unlimited : (left result).sink.Unlimited) (line : Nat)
    (within : (finish line result).sink.Within writeLimit flushLimit) :
  finish line (leaving (.withLimits writeLimit flushLimit) result)
    = (finish line result).mapSink (.withLimits writeLimit flushLimit)
  := by
  cases result with
  | ok _ last =>
    have unlimited : last.sink.Unlimited := unlimited
    rw [finish_of_unlimited unlimited] at within ⊢
    have granted : (last.withLimits writeLimit flushLimit).sink.flush = _ :=
      Sink.flush_withLimits within
    rw [leaving, finish_of_flush granted]
    rfl
  | error => rfl

/-- A program that stays within limits does not notice them. -/
theorem execute_withLimits (wellFormed : root.isWellFormed)
    (within : (execute root .unlimited input).sink.Within writeLimit flushLimit) :
  execute root (.limited writeLimit flushLimit) input
    = (execute root .unlimited input).mapSink (.withLimits writeLimit flushLimit)
  := by
  obtain ⟨last, result, reaches, ends, same⟩ :=
    exists_ends_of_isWellFormed wellFormed .unlimited input
  have unlimited := unlimited_left reaches ends
  rw [same] at within ⊢
  have withinLeft := (continues_finish unlimited root.line).within within
  rw [execute_of_within wellFormed reaches ends withinLeft]
  apply finish_withLimits unlimited root.line within

end Program

end IntScript
