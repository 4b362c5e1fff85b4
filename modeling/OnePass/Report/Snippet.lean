-- A snippet shows a complaint where it belongs: the lines of the text that
-- the token stands on, with a mark below the token, or beside the lines if
-- there are more of them.
import OnePass.Report.Complaint
import OnePass.Text.Lines
import OnePass.Text.Unicode

namespace OnePass.Snippet

open Text

/-! ## Cells -/

/-- A character of a line: the bytes before it, and the columns that it
takes. -/
structure Cell where
  char : Char
  byte : Nat
  width : Nat

/-- A tab goes on to the next column that this number divides. -/
def tabStop : Nat := 4

/-- The cells of a line from a byte and a column on. -/
def cellsFrom (byte column : Nat) : List Char → List Cell
  | [] => []
  | c :: cs =>
    let width := if c = '\t' then tabStop - column % tabStop else width c
    ⟨c, byte, width⟩ :: cellsFrom (byte + c.utf8Size) (column + width) cs

def cells (cs : List Char) : List Cell := cellsFrom 0 0 cs

/-- The byte after the character. -/
def Cell.stop (c : Cell) : Nat := c.byte + c.char.utf8Size

/-- The columns of all cells. -/
def filled : List Cell → Nat
  | [] => 0
  | c :: cs => c.width + filled cs

/-- The character as it is shown: a tab becomes spaces. -/
def Cell.shown (c : Cell) : List Char :=
  if c.char = '\t' then List.replicate c.width ' ' else [c.char]

/-! ## Lines -/

/-- A character that is not shown at the end of a line. -/
def isTrailing (c : Char) : Bool := c = '\n' || c = '\r' || c = '\x00'

/-- A line without what is not shown at its end. -/
def trimmed (cs : List Char) : List Char := (cs.reverse.dropWhile isTrailing).reverse

/-- The bytes of the white space at the start of a line. -/
def indentation (cs : List Char) : Nat := bytes (cs.takeWhile isWhite)

/-- A line as it is shown. -/
def shownLine (cs : List Char) : String := String.ofList ((cells cs).flatMap Cell.shown)

/-- As many of one character. -/
def many (n : Nat) (c : Char) : String := String.ofList (List.replicate n c)

/-- The message after a mark. -/
def trailing (message : String) : String := if message.isEmpty then "" else " " ++ message

/-- Carets below the part of a line from the byte `start` to the byte before
`stop`. A mark behind the line stands below the place of one more
character. -/
def carets (start stop : Nat) (cs : List Char) : String :=
  let all := cells cs ++ [⟨'\x00', bytes cs, 1⟩]
  String.join (all.map fun c =>
    if max start c.byte < min stop c.stop then many c.width '^'
    else if c.byte < stop then many c.width ' '
    else "")

/-- A rule across the characters of a line that start before a byte. -/
def rule (stop : Nat) (cs : List Char) : String :=
  many (filled ((cells cs).filter fun c => c.byte < stop)) '─'

/-! ## Margins -/

/-- The margin of a line without a number. -/
def margin (w : Nat) : String := many w ' ' ++ " "

/-- The margin of a line with its number. -/
def numbered (w n : Nat) : String := many (w - (toString n).length) ' ' ++ toString n ++ " "

/-! ## Marks -/

/-- One line with the mark below it. -/
def single (w number : Nat) (text : List Char) (start stop : Nat) (message : String) :
    List String :=
  [margin w ++ "│",
    numbered w number ++ "│ " ++ shownLine text,
    margin w ++ "│ " ++ carets start (max stop (start + 1)) text ++ trailing message,
    margin w ++ "│"]

/-- The line where a mark starts. The mark starts below the token, or beside
the line if nothing but white space comes before the token. -/
def opening (w number : Nat) (text : List Char) (start : Nat) : List String :=
  if start ≤ indentation text then [numbered w number ++ "│ ╭ " ++ shownLine text]
  else
    [numbered w number ++ "│   " ++ shownLine text,
      margin w ++ "│ ╭" ++ rule (start + 1) text ++ "^"]

/-- The line where a mark ends, with the end of the mark below it. -/
def closing (w number : Nat) (text : List Char) (stop : Nat) (message : String) : List String :=
  [numbered w number ++ "│ │ " ++ shownLine text,
    margin w ++ "│ ╰" ++ rule stop text ++ "^" ++ trailing message]

/-- A line where no mark starts or ends. One may run beside it. -/
def passing (w number : Nat) (marked : Bool) (text : List Char) : List String :=
  [numbered w number ++ (if marked then "│ │ " else "│   ") ++ shownLine text]

/-- Line `k` under a mark that starts on line `i` and ends on line `j`, all
counted from 0. -/
def marked (w : Nat) (source : List Char) (i j : Nat) (span : Span) (message : String) (k : Nat) :
    List String :=
  let line := lineAt source k
  let text := trimmed line.text
  if k = i then opening w (k + 1) text (span.start - line.start)
  else if k = j then closing w (k + 1) text (span.stop - line.start) message
  else passing w (k + 1) (i < k && k < j) text

/-- The lines that are always shown: those where the mark starts and ends,
three lines after its start and one before its end. -/
def isKept (i j k : Nat) : Bool :=
  k = i || k = j || (i < k && k < j && (k ≤ i + 3 || j ≤ k + 1))

/-- Lines in their order. One line that is left out between two of them is
shown after all; more of them are cut out. -/
def linked (w : Nat) (rows : Nat → List String) : List Nat → List String
  | [] => []
  | [k] => rows k
  | k :: l :: ks =>
    let gap :=
      if l ≤ k + 1 then []
      else if l = k + 2 then rows (k + 1)
      else [margin w ++ "· │"]
    rows k ++ gap ++ linked w rows (l :: ks)

/-- A mark from line `i` to line `j`, counted from 0. A span that was given
backwards ends on a line above the one where it starts. -/
def several (w : Nat) (source : List Char) (i j : Nat) (span : Span) (message : String) :
    List String :=
  let kept := (List.range' (min i j) (max i j + 1 - min i j)).filter (isKept i j)
  [margin w ++ "│  "] ++ linked w (marked w source i j span message) kept ++ [margin w ++ "│  "]

/-! ## Snippets -/

/-- The lines of a text, each without its end. -/
def noteLines (cs : List Char) : List (List Char) :=
  (lines cs).map fun l =>
    let cs := l.text.reverse
    match cs with
    | '\n' :: '\r' :: r => r.reverse
    | '\n' :: r => r.reverse
    | _ => l.text

/-- A note below a snippet. -/
def note (w : Nat) (text : String) : List String :=
  match noteLines text.toList with
  | [] => []
  | l :: ls =>
    (margin w ++ "= " ++ String.ofList l) :: ls.map fun l => many (w + 3) ' ' ++ String.ofList l

/-- The snippet of a text for a part of it. -/
def located (name : String) (source : List Char) (span : Span) (message : String) (noted : String) :
    List String :=
  let i := lineIndex source span.start
  let j := lineIndex source span.stop
  let w := (toString (max i j + 1)).length
  let line := lineAt source i
  [many w ' ' ++ " ┌─ " ++ name ++ ":" ++ toString (i + 1) ++ ":" ++
      toString (column source span.start)] ++
    (if i = j then
      single w (i + 1) (trimmed line.text) (span.start - line.start) (span.stop - line.start) message
    else several w source i j span message) ++
    note w noted

end OnePass.Snippet

namespace OnePass

/-- A complaint about the text of a named file, as it is shown. -/
def Complaint.render (name : String) (source : List Char) : Complaint → String
  | .unreadable m => "error: IO error: " ++ m ++ "\n\n"
  | .located stage m t =>
    let noted := "on line " ++ toString t.line ++ ", found token \"" ++ t.text ++ "\""
    let all := ("error: " ++ stage.title ++ " error") ::
      Snippet.located name source t.span m noted ++ [""]
    String.join (all.map (· ++ "\n"))

/-! ## Texts by number -/

/-- A shelf of named texts that complaints can be about. Each text has a
number, in the order in which they were put there. -/
structure Shelf where
  files : Array (String × List Char)

namespace Shelf

def empty : Shelf := ⟨#[]⟩

/-- Puts a text on the shelf, and tells its number. -/
def add (s : Shelf) (name source : String) : Nat × Shelf :=
  (s.files.size, ⟨s.files.push (name, source.toList)⟩)

/-- A complaint about the text of a number. It can be shown if there is
such a text, or if it needs none. -/
def render? (s : Shelf) (file : Nat) (c : Complaint) : Option String :=
  match s.files[file]?, c with
  | some f, c => some (c.render f.1 f.2)
  | none, .unreadable m => some (Complaint.render "" [] (.unreadable m))
  | none, .located .. => none

end Shelf

end OnePass
