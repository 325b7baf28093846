import Uplift.Path
import Uplift.Text.Search

/-!
# Test files

A file belongs to the tests if its path has one of four marks. The tests of a source file
are looked for in three places.
-/

namespace Uplift.Path

def testMarks : List String := [".spec.", ".test.", "__tests__/", "__mocks__/"]

def isTest (p : Path) : Bool := testMarks.any fun mark => Text.contains mark.toList p.text.toList

/-- Where the tests of a file may be. -/
def testCandidates (p : Path) : List Path :=
  match p.fileName? with
  | none => []
  | some name =>
    let (stem, extension) := splitExtension name
    let tail := (extension.map ("." ++ ·)).getD ""
    let parent := p.parent?.getD ⟨""⟩
    [parent.join ⟨stem ++ ".test" ++ tail⟩, parent.join ⟨stem ++ ".spec" ++ tail⟩,
      (parent.join ⟨"__tests__"⟩).join ⟨name⟩]

end Uplift.Path
