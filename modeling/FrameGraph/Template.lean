namespace FrameGraph.Template

/-- The token that stands for the iteration. -/
def token : List Char := ['$', '{', 'i', '}']

/-- Every occurrence of the token replaced by the given characters. -/
def replace (digits : List Char) : List Char → List Char
  | [] => []
  | '$' :: '{' :: 'i' :: '}' :: s => digits ++ replace digits s
  | c :: s => c :: replace digits s

/-- The name of one iteration of a template. -/
def expand (template : String) (iteration : UInt32) : String :=
  String.ofList (replace (Nat.toDigits 10 iteration.toNat) template.toList)

theorem replace_token (digits s : List Char) :
    replace digits (token ++ s) = digits ++ replace digits s := rfl

end FrameGraph.Template
