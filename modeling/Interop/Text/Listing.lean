/-
Program text, written line by line at a depth.

A listing is described by the steps that write it.  A step may change the depth or
write lines, and every line is indented by the depth it is written at, except an
empty one, which stays empty.  Text that was finished before is spliced in with a
block: it is cut into its lines again, and each one moves to the current depth.

A finished listing has no line breaks at its end.
-/

namespace Interop

/-! ### Lines of a text -/

namespace Lines

/-- Cuts a text at its line breaks; what follows the last one is a piece too. -/
def pieces : List Char → List (List Char)
  | [] => [[]]
  | '\n' :: rest => [] :: pieces rest
  | c :: rest =>
    match pieces rest with
    | [] => [[c]]
    | piece :: others => (c :: piece) :: others

/-- Drops one carriage return at the end. -/
def dropReturn (line : List Char) : List Char :=
  if line.getLast? = some '\r' then line.dropLast else line

/-- The lines of a cut text.  The last piece is a line only if something stands in it, and no
line break ended it, so a carriage return at its end is part of the line. -/
def ofPieces : List (List Char) → List (List Char)
  | [] => []
  | [last] => if last.isEmpty then [] else [last]
  | piece :: others => dropReturn piece :: ofPieces others

/-- The lines of a text, without the breaks that end them. -/
def ofText (text : String) : List String :=
  (ofPieces (pieces text.toList)).map String.ofList

/-- Drops the line breaks at the end of a text. -/
def dropTrailingBreaks (text : List Char) : List Char :=
  (text.reverse.dropWhile (· == '\n')).reverse

end Lines

/-! ### Listings -/

/-- One step of writing a listing. -/
inductive Listing.Step where
  | indent
  /-- At the outermost depth nothing happens. -/
  | dedent
  /-- An empty line. -/
  | blank
  | line (text : String)
  /-- Each line of a text on its own. -/
  | block (text : String)
  /-- Several blocks with an empty line between any two. -/
  | blocks (texts : List String)
  deriving DecidableEq, Repr, Inhabited

/-- A listing being written. -/
structure Listing where
  depth : Nat := 0
  /-- What was written so far, one entry for each line break. -/
  lines : List String := []
  deriving DecidableEq, Repr, Inhabited

namespace Listing

/-- A line at a depth. -/
def indented (depth : Nat) (text : String) : String :=
  if text.isEmpty then "" else String.ofList (List.replicate (4 * depth) ' ') ++ text

def writeLines (listing : Listing) (texts : List String) : Listing :=
  { listing with lines := listing.lines ++ texts.map (indented listing.depth) }

/-- The lines of several blocks. -/
def blockLines (texts : List String) : List String :=
  [""].intercalate (texts.map Lines.ofText)

def write (listing : Listing) : Step → Listing
  | .indent => { listing with depth := listing.depth + 1 }
  | .dedent => { listing with depth := listing.depth - 1 }
  | .blank => listing.writeLines [""]
  | .line text => listing.writeLines [text]
  | .block text => listing.writeLines (Lines.ofText text)
  | .blocks texts => listing.writeLines (blockLines texts)

/-- Carries out steps one after another. -/
def run (listing : Listing) (steps : List Step) : Listing :=
  steps.foldl write listing

@[simp] theorem run_nil (listing : Listing) : listing.run [] = listing := rfl

@[simp] theorem run_cons (listing : Listing) (step : Step) (steps : List Step) :
    listing.run (step :: steps) = (listing.write step).run steps := rfl

theorem run_append (listing : Listing) (first second : List Step) :
    listing.run (first ++ second) = (listing.run first).run second :=
  List.foldl_append

/-- The finished text. -/
def text (listing : Listing) : String :=
  String.ofList <| Lines.dropTrailingBreaks <|
    listing.lines.flatMap fun line => line.toList ++ ['\n']

end Listing

/-- The text that steps write from the outermost depth on. -/
def listingText (steps : List Listing.Step) : String :=
  (Listing.run {} steps).text

end Interop
