import IntScript.RuntimeError

/-!
# Sinks

A sink is where the output of a program goes.  It keeps the bytes it has accepted, and for
each flush how many there were.  A sink can be limited in the bytes it accepts and in the
flushes it grants.  Of bytes that do not all fit it accepts those that do.
-/

namespace IntScript

/-- Where output goes. -/
structure Sink where
  accepted : Array UInt8
  /-- How many bytes each flush so far has covered. -/
  flushes : Array Nat
  writeLimit : Option Nat
  flushLimit : Option Nat

namespace Sink

/-- An empty sink with the given limits on bytes and flushes. -/
def limited (writeLimit flushLimit : Option Nat) : Sink :=
  ⟨#[], #[], writeLimit, flushLimit⟩

/-- An empty sink without limits. -/
def unlimited : Sink :=
  limited none none

/-- How many of `size` more bytes the sink accepts. -/
def room (sink : Sink) (size : Nat) : Nat :=
  match sink.writeLimit with
  | none => size
  | some limit => min size (limit - sink.accepted.size)

/-- Writes bytes, as many as the sink accepts. -/
def write (sink : Sink) (bytes : List UInt8) : EStateM.Result StreamError Sink Unit :=
  let room := sink.room bytes.length
  let sink := { sink with accepted := sink.accepted ++ bytes.take room }
  if room < bytes.length then .error .sinkFull sink else .ok () sink

/-- Whether the sink grants another flush. -/
def grantsFlush (sink : Sink) : Bool :=
  match sink.flushLimit with
  | none => true
  | some limit => sink.flushes.size < limit

/-- Flushes the sink. -/
def flush (sink : Sink) : EStateM.Result StreamError Sink Unit :=
  if sink.grantsFlush then
    .ok () { sink with flushes := sink.flushes.push sink.accepted.size }
  else
    .error .flushFailed sink

end Sink

end IntScript
