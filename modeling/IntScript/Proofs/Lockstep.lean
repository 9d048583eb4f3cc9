import IntScript.Proofs.Evaluator
import Mathlib.Data.List.Forall2

/-!
# Effects in lockstep

Two runs of statements that differ in the functions that are recorded, and in nothing else.
The tables of functions are related in a way that is left open here, as the relation
`tables`.  Main statement: if the statements of two programs perform effects in lockstep, the
outcomes of the programs look the same.
-/

namespace IntScript

namespace Store

variable {tables : Std.ExtTreeMap String Node → Std.ExtTreeMap String Node → Prop}
  {α β : Type}

/-- Two stores look alike if they differ in nothing but their functions, and these are
related. -/
structure Alike (tables : Std.ExtTreeMap String Node → Std.ExtTreeMap String Node → Prop)
    (store store' : Store) : Prop where
  globals : store'.globals = store.globals
  functions : tables store.functions store'.functions
  sink : store'.sink = store.sink
  input : store'.input = store.input

/-- Two results look alike if they are the same value or the same error, in stores that look
alike. -/
inductive ResultsAlike
    (tables : Std.ExtTreeMap String Node → Std.ExtTreeMap String Node → Prop) :
    EStateM.Result RuntimeError Store α → EStateM.Result RuntimeError Store α → Prop where
  | ok (a : α) {store store' : Store} (alike : Alike tables store store') :
      ResultsAlike tables (.ok a store) (.ok a store')
  | error (error : RuntimeError) {store store' : Store} (alike : Alike tables store store') :
      ResultsAlike tables (.error error store) (.error error store')

/-- Two effects are in lockstep if their results look alike whenever the stores do. -/
def Lockstep (tables : Std.ExtTreeMap String Node → Std.ExtTreeMap String Node → Prop)
    (x x' : Effect α) : Prop :=
  ∀ ⦃store store' : Store⦄, Alike tables store store' →
    ResultsAlike tables (x store) (x' store')

theorem lockstep_pure (a : α) :
  Lockstep tables (pure a) (pure a)
  := by
  intro store store' alike
  apply ResultsAlike.ok a alike

theorem lockstep_throw (error : RuntimeError) :
  Lockstep tables (throw error : Effect α) (throw error)
  := by
  intro store store' alike
  apply ResultsAlike.error error alike

theorem lockstep_bind {x x' : Effect α} {f f' : α → Effect β} (hx : Lockstep tables x x')
    (hf : ∀ a, Lockstep tables (f a) (f' a)) :
  Lockstep tables (x >>= f) (x' >>= f')
  := by
  intro store store' alike
  have first := hx alike
  change ResultsAlike tables (EStateM.bind x f store) (EStateM.bind x' f' store')
  unfold EStateM.bind
  generalize x store = result at first
  generalize x' store' = result' at first
  cases first with
  | ok a alike => apply hf a alike
  | error error alike => apply ResultsAlike.error error alike

/-! ### Effects that ignore the functions -/

theorem lockstep_assign (name : String) (value : Value) :
  Lockstep tables (assign name value) (assign name value)
  := by
  intro store store' alike
  apply ResultsAlike.ok ()
  constructor
  · simp only [alike.globals]
  · apply alike.functions
  · apply alike.sink
  · apply alike.input

theorem lockstep_write (bytes : List UInt8) (line : Nat) :
  Lockstep tables (write bytes line) (write bytes line)
  := by
  intro store store' alike
  unfold write
  rw [alike.sink]
  cases store.sink.write bytes with
  | ok _ sink => exact .ok () ⟨alike.globals, alike.functions, rfl, alike.input⟩
  | error cause sink =>
    exact .error (.stream cause line) ⟨alike.globals, alike.functions, rfl, alike.input⟩

theorem lockstep_flush (line : Nat) :
  Lockstep tables (flush line) (flush line)
  := by
  intro store store' alike
  unfold flush
  rw [alike.sink]
  cases store.sink.flush with
  | ok _ sink => exact .ok () ⟨alike.globals, alike.functions, rfl, alike.input⟩
  | error cause sink =>
    exact .error (.stream cause line) ⟨alike.globals, alike.functions, rfl, alike.input⟩

theorem lockstep_nextWord (line : Nat) :
  Lockstep tables (nextWord line) (nextWord line)
  := by
  intro store store' alike
  unfold nextWord
  rw [alike.input]
  cases store.input.nextWord with
  | ok word? input => exact .ok word? ⟨alike.globals, alike.functions, alike.sink, rfl⟩
  | error cause input =>
    exact .error (.stream cause line) ⟨alike.globals, alike.functions, alike.sink, rfl⟩

theorem lockstep_readValue (name : String) (line : Nat) :
  Lockstep tables (readValue name line) (readValue name line)
  := by
  apply lockstep_bind (lockstep_flush line)
  intro _
  apply lockstep_bind (lockstep_nextWord line)
  intro word?
  split
  · apply lockstep_throw
  · split
    · apply lockstep_pure
    · apply lockstep_throw

/-! ### Programs -/

/-- Statements that are in lockstep one by one are so one after the other. -/
theorem lockstep_forM {statements statements' : List Node}
    (all : List.Forall₂ (fun statement statement' =>
      Lockstep tables statement.perform statement'.perform) statements statements') :
  Lockstep tables (statements.forM Node.perform) (statements'.forM Node.perform)
  := by
  induction all with
  | nil => apply lockstep_pure
  | cons first _ ih =>
    apply lockstep_bind first
    intro _
    apply ih

end Store

/-- Two outcomes look alike if they are the same error or the same final variables, with the
same streams. -/
structure Outcome.Alike (outcome outcome' : Outcome RuntimeError Memory) : Prop where
  result : outcome'.result.map Memory.globals = outcome.result.map Memory.globals
  sink : outcome'.sink = outcome.sink
  input : outcome'.input = outcome.input

theorem Outcome.alike_ofEffect
    {tables : Std.ExtTreeMap String Node → Std.ExtTreeMap String Node → Prop}
    {result result' : EStateM.Result RuntimeError Store Unit}
    (alike : Store.ResultsAlike tables result result') :
  (Outcome.ofEffect result).Alike (.ofEffect result')
  := by
  cases alike with
  | ok _ alike =>
    constructor
    · apply congrArg Except.ok alike.globals
    · apply alike.sink
    · apply alike.input
  | error error alike =>
    constructor
    · rfl
    · apply alike.sink
    · apply alike.input

/-- Programs whose statements are in lockstep have outcomes that look alike. -/
theorem Program.evaluate_alike
    {tables : Std.ExtTreeMap String Node → Std.ExtTreeMap String Node → Prop}
    {root root' : Node} (line : root'.line = root.line) (empty : tables ∅ ∅)
    (lockstep : List.Forall₂ (fun statement statement' =>
      Store.Lockstep tables statement.perform statement'.perform) root.children root'.children)
    (sink : Sink) (input : Input) :
  (evaluate root sink input).Alike (evaluate root' sink input)
  := by
  have start : Store.Alike tables ⟨∅, ∅, sink, input⟩ ⟨∅, ∅, sink, input⟩ :=
    ⟨rfl, empty, rfl, rfl⟩
  apply Outcome.alike_ofEffect
  rw [line]
  apply Store.lockstep_bind (Store.lockstep_forM lockstep) _ start
  intro _
  apply Store.lockstep_flush

end IntScript
