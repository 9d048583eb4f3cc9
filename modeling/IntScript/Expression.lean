import IntScript.Node
import IntScript.SyntaxError

/-!
# Expressions

An expression tree is built from tokens in infix order with two stacks.  Operands that are
finished are nodes on the stack `operands`.  Functions, operators and opening brackets wait
on the stack `waiting` until an operator that binds no more tightly, a closing bracket or
the end of the line makes them take their operands.  Operators of equal precedence group to
the left, and brackets leave no trace in the tree.

`Stacks.feed` takes the next token, and `Stacks.conclude` yields the tree.  The stacks can be
fed further after an error, as the error left them.
-/

namespace IntScript.Expression

/-- What waits for its operands or for its closing bracket. -/
inductive Waiting where
  | call (name : String) (line : Nat)
  | operation (op : Operator) (line : Nat)
  | opening (bracket : Bracket)
deriving DecidableEq, Repr

namespace Waiting

/-- Opening brackets wait for their partners and take no operands. -/
def isOpening : Waiting → Bool
  | .opening _ => true
  | _ => false

/-- Whether something that waits has to take its operands before an operator comes in: a
function always, and an operator unless the new one binds more tightly. -/
def yieldsTo (op : Operator) : Waiting → Bool
  | .call _ _ => true
  | .operation waiting _ => waiting.precedence ≤ op.precedence
  | .opening _ => false

/-- The stack of operands after something that waits took its operands from it and put back
the node they make, if there are enough of them. -/
def settle? : Waiting → List Node → Option (List Node)
  | .call name line, argument :: operands => some (⟨.call, name, line, [argument]⟩ :: operands)
  | .operation op line, right :: left :: operands =>
    some (⟨.operation op, "", line, [left, right]⟩ :: operands)
  | _, _ => none

end Waiting

/-- The two stacks from which an expression is built, each with its top first. -/
structure Stacks where
  waiting : List Waiting
  operands : List Node

/-- What changes the stacks and may fail. -/
abbrev Build := EStateM SyntaxError Stacks

namespace Stacks

/-- The stacks before any token. -/
def empty : Stacks :=
  ⟨[], []⟩

/-- Lets the top of the stack `waiting` take its operands as long as it satisfies `leaves`.
What misses an operand is lost, together with the operands it found. -/
def settleWhile (leaves : Waiting → Bool) (line : Nat) :
    List Waiting → List Node → EStateM.Result SyntaxError Stacks Unit
  | [], operands => .ok () ⟨[], operands⟩
  | top :: below, operands =>
    if leaves top then
      match top.settle? operands with
      | some operands => settleWhile leaves line below operands
      | none => .error (.invalidExpression line) ⟨below, []⟩
    else
      .ok () ⟨top :: below, operands⟩

/-- Lets what waits take its operands, from the top as long as `leaves` holds. -/
def settle (leaves : Waiting → Bool) (line : Nat) : Build Unit :=
  fun state => settleWhile leaves line state.waiting state.operands

/-- Puts a finished operand on its stack. -/
def addOperand (node : Node) : Build Unit :=
  modify fun state => ⟨state.waiting, node :: state.operands⟩

/-- Lets something wait. -/
def addWaiting (top : Waiting) : Build Unit :=
  modify fun state => ⟨top :: state.waiting, state.operands⟩

/-- Closes a bracket: all that waits behind its partner takes its operands, and the partner
goes. -/
def closeBracket (bracket : Bracket) (line : Nat) : Build Unit := do
  settle (fun top => !top.isOpening) line
  match (← get) with
  | ⟨.opening partner :: below, operands⟩ =>
    if partner = bracket then set (⟨below, operands⟩ : Stacks)
    else throw (.mismatchedBracket line)
  | _ => throw (.mismatchedBracket line)

/-- Takes the next token of an expression. -/
def feed (token : Token) : Build Unit :=
  match token.kind with
  | .variable => addOperand (.leaf .variable token.text token.line)
  | .number => addOperand (.leaf .number token.text token.line)
  | .function => addWaiting (.call token.text token.line)
  | .opening bracket => addWaiting (.opening bracket)
  | .operator op => do
    settle (Waiting.yieldsTo op) token.line
    addWaiting (.operation op token.line)
  | .closing bracket => closeBracket bracket token.line
  | _ => throw (.unexpected token)

/-- Ends an expression: all that waits takes its operands, which has to leave one tree.  A
bracket that is still open stays, and so do the operands below it. -/
def conclude (line : Nat) : Build Node := do
  settle (fun top => !top.isOpening) line
  match (← get) with
  | ⟨[], [node]⟩ =>
    set empty
    return node
  | ⟨[], _⟩ =>
    set empty
    throw (.invalidExpression line)
  | _ => throw (.mismatchedBracket line)

end Stacks

/-- The tree of the expression at the start of a list of tokens, which goes to the end of
its line.  A statement that starts on line `start` is unfinished without that end. -/
def parseFrom (start : Nat) (state : Stacks) : List Token → Except SyntaxError Node
  | [] => .error (.unexpectedEndOfLine start)
  | token :: rest =>
    if token.kind = .endOfLine then
      match state.conclude token.line with
      | .ok node _ => .ok node
      | .error error _ => .error error
    else
      match state.feed token with
      | .ok () state => parseFrom start state rest
      | .error error _ => .error error

/-- The tree of the expression that a list of tokens consists of up to the end of a line. -/
def parse (start : Nat) (tokens : List Token) : Except SyntaxError Node :=
  parseFrom start .empty tokens

end IntScript.Expression
