import PackageTriage.Json.Value

/-!
# Named choices

The settings and the command line name families, methods, actions, activations and solvers. A choice
type lists its members with their names, so the readers and writers of names are written once.
-/

namespace PackageTriage

class Choice (α : Type) where
  all : List α
  /-- The name that is written. -/
  name : α → String
  /-- Further names that settings files may give. -/
  aliases : α → List String
  /-- The names on the command line, in lower case. -/
  spellings : α → List String
  /-- How a message shows the choice in a list of values. -/
  shown : α → String

namespace Choice

variable {α : Type} [Choice α]

/-- The choice that settings files call by this name. -/
def ofName? (s : String) : Option α := all.find? fun a => s = name a || (aliases a).contains s

/-- The choice that the command line calls by this name, in any case. -/
def ofText? (s : String) : Option α := all.find? fun a => (spellings a).contains s.toLower

def ofJson? (j : Json) : Option α := j.name?.bind ofName?

def toJson (a : α) : Json := .ofString (name a)

end Choice

end PackageTriage
