import FrameGraph.Log.Entry
import FrameGraph.Log.Stamp

namespace FrameGraph.Console

/-- The code that begins a style. -/
def start (style : String) : List Char := '\x1b' :: '[' :: style.toList ++ ['m']

/-- The code that ends all styles. -/
def reset : List Char := ['\x1b', '[', '0', 'm']

/-- The text with the style begun again after every code that ends it. -/
def resume (style : List Char) : List Char → List Char
  | [] => []
  | '\x1b' :: '[' :: '0' :: 'm' :: s => reset ++ style ++ resume style s
  | c :: s => c :: resume style s

/-- The text in a style, if colors are on. -/
def paint (color : Bool) (style text : String) : String :=
  if color then String.ofList (start style ++ resume (start style) text.toList ++ reset) else text

def severityStyle : Severity → String
  | .trace => "90"
  | .debug => "36"
  | .info => "32"
  | .warn => "33"
  | .error => "1;31"

def severityLabel : Severity → String
  | .trace => "TRACE"
  | .debug => "DEBUG"
  | .info => "INFO "
  | .warn => "WARN "
  | .error => "ERROR"

def sourceStyle : String := "94"

/-- The place of an entry, in parentheses, if it has both a file and a line. -/
def place (e : Entry) : String :=
  match e.file, e.line with
  | some file, some line => s!" ({file}:{line.toNat})"
  | _, _ => ""

/-- What an entry prints after its stamp. -/
def body (color : Bool) (e : Entry) : String :=
  s!"[{paint color (severityStyle e.severity) (severityLabel e.severity)}] " ++
    s!"[{paint color sourceStyle e.source}] " ++ e.message ++ place e ++ "\n"

/-- What an entry prints. -/
def print (color : Bool) (t : Instant) (e : Entry) : String :=
  "[" ++ t.stamp ++ "] " ++ body color e

end FrameGraph.Console
