import FrameGraph.Log.Entry

namespace FrameGraph

inductive Receiver where
  | console
  | collector (name : String)
  deriving DecidableEq, Repr

/-- The current receiver and what each receiver has got so far. -/
structure Board where
  receiver : Receiver := .console
  console : List Entry := []
  collected : List (String × List Entry) := []

namespace Board

/-- The collectors with one more, empty, in place of an earlier one of its name. -/
def fresh (name : String) : List (String × List Entry) → List (String × List Entry)
  | [] => [(name, [])]
  | c :: cs => if c.1 = name then (name, []) :: cs else c :: fresh name cs

def install (b : Board) (name : String) : Board :=
  { b with receiver := .collector name, collected := fresh name b.collected }

def reset (b : Board) : Board := { b with receiver := .console }

/-- The board after some entries have been logged, in their order. -/
def deliver (b : Board) (entries : List Entry) : Board :=
  match b.receiver with
  | .console => { b with console := b.console ++ entries }
  | .collector name =>
    { b with collected := b.collected.map fun c =>
        if c.1 = name then (c.1, c.2 ++ entries) else c }

/-- The board with the same receivers and nothing received yet. -/
def drained (b : Board) : Board :=
  { b with console := [], collected := b.collected.map fun c => (c.1, []) }

end Board

end FrameGraph
