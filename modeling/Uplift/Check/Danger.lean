import Uplift.Text.Search

/-!
# Dangerous calls

Script fragments that call for a security review when a change brings in more of them.
-/

namespace Uplift.Danger

def fragments : List String :=
  ["eval(", "new Function(", "dangerouslySetInnerHTML", "document.write(", ".innerHTML ="]

/-- The fragments that occur more often in the second text. -/
def introduced (before after : String) : List String :=
  fragments.filter fun f =>
    Text.countOf f.toList before.toList < Text.countOf f.toList after.toList

end Uplift.Danger
