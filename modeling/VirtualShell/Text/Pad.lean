/-!
# Padding to a width

A width counts characters. A text that is already as wide stays as it is.
-/

namespace VirtualShell.Text

/-- The text, extended on the right by spaces up to the width. -/
def padRight (width : Nat) (s : String) : String :=
  String.ofList (s.toList.rightpad width ' ')

/-- The text, extended on the left by spaces up to the width. -/
def padLeft (width : Nat) (s : String) : String :=
  String.ofList (s.toList.leftpad width ' ')

end VirtualShell.Text
