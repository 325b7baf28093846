/-!
# Padding to a width

Widths count characters; a longer text is left as it is.
-/

namespace Uplift.Text

def spaces (n : Nat) : String := String.ofList (List.replicate n ' ')

def padRight (width : Nat) (s : String) : String := s ++ spaces (width - s.length)

def padLeft (width : Nat) (s : String) : String := spaces (width - s.length) ++ s

/-- Centred between `fill` characters; an odd one goes to the right. -/
def padCenter (width : Nat) (fill : Char) (s : String) : String :=
  let room := width - s.length
  let left := room / 2
  String.ofList (List.replicate left fill) ++ s ++
    String.ofList (List.replicate (room - left) fill)

def truncate (width : Nat) (s : String) : String := String.ofList (s.toList.take width)

end Uplift.Text
