namespace FrameGraph

/-- The members of an enumeration in their order, and the name under which each is shown. -/
class Named (α : Type) where
  all : List α
  name : α → String

/-- The member shown under a name. -/
def Named.ofName? {α : Type} [Named α] (s : String) : Option α :=
  (Named.all : List α).find? fun a => Named.name a == s

end FrameGraph
