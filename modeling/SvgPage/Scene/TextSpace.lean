import SvgPage.Scene.Node

/-!
# White space in text

White space in a text is one space between words, whatever elements the words are in; there is none
at either end of the text, and no part of it is left empty.
-/

namespace SvgPage

namespace TextItem

variable {α : Type}

/-- Each run of white space as one space; `after` tells whether one has just been written. -/
def collapseFrom (after : Bool) : List Char → List Char
  | [] => []
  | c :: cs =>
    if Text.isBlank c then if after then collapseFrom true cs else ' ' :: collapseFrom true cs
    else c :: collapseFrom false cs

def collapse (cs : List Char) : List Char := collapseFrom false cs

/-- A run without a space at its head that follows another one. -/
def dropHead (after : Bool) (run : List Char) : List Char :=
  match after, run with
  | true, ' ' :: rest => rest
  | _, run => run

/-- Whether a space has just been written after a run. -/
def endsInSpace (after : Bool) (run : List Char) : Bool :=
  match run.getLast? with
  | none => after
  | some c => c == ' '

mutual

/-- Without the spaces that follow another one, in document order. -/
def dropRepeated (after : Bool) : TextItem α → TextItem α × Bool
  | .literal run =>
    let run := dropHead after run
    (.literal run, endsInSpace after run)
  | .nested style items =>
    let (items, after) := dropRepeatedAmong after items
    (.nested style items, after)

def dropRepeatedAmong (after : Bool) : List (TextItem α) → List (TextItem α) × Bool
  | [] => ([], after)
  | i :: is =>
    let (i, after) := dropRepeated after i
    let (is, after) := dropRepeatedAmong after is
    (i :: is, after)

end

mutual

/-- Without the space at the end, from the last part backwards until characters are found. The flag
tells whether some were found. -/
def trimEnd : TextItem α → TextItem α × Bool
  | .literal run =>
    let run := Text.dropTail (· == ' ') run
    (.literal run, !run.isEmpty)
  | .nested style items =>
    let (items, found) := trimEndAmong items
    (.nested style items, found)

def trimEndAmong : List (TextItem α) → List (TextItem α) × Bool
  | [] => ([], false)
  | i :: is =>
    let (is, found) := trimEndAmong is
    if found then (i :: is, true)
    else
      let (i, found) := trimEnd i
      (i :: is, found)

end

def isEmptyLiteral : TextItem α → Bool
  | .literal run => run.isEmpty
  | .nested _ _ => false

mutual

def dropEmpty : TextItem α → TextItem α
  | .literal run => .literal run
  | .nested style items => .nested style (dropEmptyAmong items)

def dropEmptyAmong : List (TextItem α) → List (TextItem α)
  | [] => []
  | i :: is => if isEmptyLiteral i then dropEmptyAmong is else dropEmpty i :: dropEmptyAmong is

end

/-- The parts of a whole text, with its white space put right. -/
def tidy (items : List (TextItem α)) : List (TextItem α) :=
  dropEmptyAmong (trimEndAmong (dropRepeatedAmong true items).1).1

end TextItem

end SvgPage
