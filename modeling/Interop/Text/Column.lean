/-
Text in a column: it is cut to the length that may be shown, and filled up with blanks
to the width of the column.
-/

namespace Interop

namespace Column

/-- The end of a column that text stands at. -/
inductive Alignment where
  | left
  | right
  /-- In the middle; of an odd number of blanks the last stands on the right. -/
  | centre
  deriving DecidableEq, Repr, Inhabited

/-- How text is laid out in a column. -/
structure Layout where
  alignment : Alignment := .left
  width : Nat := 0
  /-- How many characters are shown at most. -/
  precision : Option Nat := none
  deriving DecidableEq, Repr, Inhabited

def blanks (count : Nat) : String := String.ofList (List.replicate count ' ')

/-- The part of a text that is shown. -/
def shown (layout : Layout) (text : String) : String :=
  match layout.precision with
  | some length => String.ofList (text.toList.take length)
  | none => text

/-- The text as it stands in a column.  What is wider than the column is left as it is. -/
def pad (layout : Layout) (text : String) : String :=
  let shown := shown layout text
  let free := layout.width - shown.length
  match layout.alignment with
  | .left => shown ++ blanks free
  | .right => blanks free ++ shown
  | .centre => blanks (free / 2) ++ shown ++ blanks (free - free / 2)

end Column

end Interop
