import IntScript.Operator

/-!
# Nodes

A program is a tree of nodes.  Every node has a kind, a text (the name or the digits it
stands for), the line it comes from and a list of children.  `Node.Kind.arity?` says how
many children a node of a kind should have, and `Node.isWellFormed` checks that all nodes
of a tree have as many as they should.
-/

namespace IntScript

/-- The kinds of nodes. -/
inductive Node.Kind where
  /-- A list of statements, such as a whole program. -/
  | root
  | call
  | variable
  | number
  | definition
  | read
  | print
  | assignment
  | operation (op : Operator)
deriving DecidableEq, Repr

/-- How many children a node of this kind should have; a root may have any number. -/
def Node.Kind.arity? : Node.Kind → Option Nat
  | .root => none
  | .variable | .number => some 0
  | .call | .read | .print => some 1
  | .definition | .assignment | .operation _ => some 2

/-- The kinds of nodes that combine two operands. -/
def Node.Kind.isOperation : Node.Kind → Bool
  | .operation _ => true
  | _ => false

/-- A node of a program tree. -/
structure Node where
  kind : Node.Kind
  text : String
  line : Nat
  children : List Node
deriving Repr

namespace Node

/-- A node without children. -/
def leaf (kind : Kind) (text : String) (line : Nat) : Node :=
  ⟨kind, text, line, []⟩

/-- Whether a node has as many children as its kind asks for. -/
def hasArity (node : Node) : Bool :=
  match node.kind.arity? with
  | some arity => node.children.length == arity
  | none => true

theorem sizeOf_append (nodes nodes' : List Node) :
  sizeOf (nodes ++ nodes') + 1 = sizeOf nodes + sizeOf nodes'
  := by
  induction nodes with
  | nil => simp; omega
  | cons node nodes ih => simp; omega

/-- Whether all nodes of the trees in a list have as many children as they should.  The
children of a checked node join the nodes that wait, so that the depth of a tree does not
matter. -/
def allWellFormed : List Node → Bool
  | [] => true
  | ⟨kind, text, line, children⟩ :: waiting =>
    (⟨kind, text, line, children⟩ : Node).hasArity && allWellFormed (children ++ waiting)
termination_by nodes => sizeOf nodes
decreasing_by
  have := sizeOf_append children waiting
  simp
  omega

/-- Whether all nodes of a tree have as many children as they should. -/
def isWellFormed (node : Node) : Bool :=
  allWellFormed [node]

end Node

end IntScript
