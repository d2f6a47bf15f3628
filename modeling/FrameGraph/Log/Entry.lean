import FrameGraph.Text.Named

namespace FrameGraph

inductive Severity where
  | trace
  | debug
  | info
  | warn
  | error
  deriving DecidableEq, Repr

namespace Severity

instance : Named Severity where
  all := [.trace, .debug, .info, .warn, .error]
  name
    | .trace => "Trace"
    | .debug => "Debug"
    | .info => "Info"
    | .warn => "Warn"
    | .error => "Error"

def gravity : Severity → Nat
  | trace => 0
  | debug => 1
  | info => 2
  | warn => 3
  | error => 4

instance : Ord Severity := ⟨fun a b => compare a.gravity b.gravity⟩

end Severity

structure Entry where
  severity : Severity
  source : String
  message : String
  file : Option String := none
  line : Option UInt32 := none
  deriving DecidableEq, Repr

/-- The entry says where it comes from, by file and line. -/
def Entry.isLocated (e : Entry) : Bool := e.file.isSome && e.line.isSome

/-- A part of the library that logs: the source its entries name, and the place to which its error
entries point. -/
structure Origin where
  source : String
  file : String
  line : UInt32 := 1
  deriving DecidableEq, Repr

end FrameGraph
