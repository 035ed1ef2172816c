import Decaf.Span
import Decaf.Text.CharClass
import Decaf.Text.Lines

namespace Decaf

structure SourceFile where
  name : String
  text : String

namespace Snippet

/-- A character of a shown line: its bytes in the line and the columns it takes. -/
structure Cell where
  char : Char
  start : Nat
  stop : Nat
  width : Nat

/-- Tabs reach to the next multiple of four columns. -/
def cellWidth (column : Nat) (c : Char) : Nat :=
  if c = '\t' then 4 - column % 4 else CharClass.width c

def cellsFrom (start column : Nat) : List Char → List Cell
  | [] => []
  | c :: cs =>
    let width := cellWidth column c
    ⟨c, start, start + c.utf8Size, width⟩ :: cellsFrom (start + c.utf8Size) (column + width) cs

def cells (shown : List Char) : List Cell := cellsFrom 0 0 shown

def repeated (c : Char) (count : Nat) : String := String.ofList (List.replicate count c)

def shown (line : List Char) : List Char :=
  (line.reverse.dropWhile fun c => c = '\n' || c = '\r' || c = '\x00').reverse

def Cell.text (cell : Cell) : String :=
  if cell.char = '\t' then repeated ' ' cell.width else cell.char.toString

def lineText (line : List Char) : String :=
  String.join ((cells line).map Cell.text)

def totalWidth : List Cell → Nat
  | [] => 0
  | cell :: cells => cell.width + totalWidth cells

def fill (c : Char) (line : List Char) (within : Cell → Bool) : String :=
  repeated c (totalWidth ((cells line).takeWhile within))

/-- Carets under the bytes from `start` to `stop`, which may lie one place behind the line. -/
def carets (start stop : Nat) (line : List Char) : String :=
  let behind : Cell := ⟨' ', byteLength line, byteLength line + 1, 1⟩
  String.join ((cells line ++ [behind]).map fun cell =>
    if cell.start < stop && start < cell.stop then repeated '^' cell.width
    else if cell.start < stop then repeated ' ' cell.width
    else "")

def charsBefore (position : Nat) : List Char → Nat
  | [] => 0
  | c :: cs =>
    if c.utf8Size ≤ position then charsBefore (position - c.utf8Size) cs + 1 else 0

structure Place where
  line : Nat
  column : Nat

structure Page where
  index : LineIndex
  lines : List (List Char)

namespace Page

def ofText (text : String) : Page := ⟨.ofText text, Lines.split text.toList⟩

def place (page : Page) (offset : Nat) : Place :=
  let line := page.index.lineOf offset
  ⟨line, offset - page.index.starts.getD (line - 1) 0⟩

def line (page : Page) (number : Nat) : List Char := page.lines.getD (number - 1) []

end Page

inductive Mark where
  | top (column : Nat)
  | left
  | bottom (column : Nat)
  | outside

structure Layout where
  digits : Nat
  page : Page

namespace Layout

def gutter (l : Layout) : String := repeated ' ' (l.digits + 1)

def numbered (l : Layout) (number : Nat) : String :=
  let text := toString number
  repeated ' ' (l.digits - text.length) ++ text ++ " "

def label (message : String) : String := if message = "" then "" else " " ++ message

def singleLine (l : Layout) (start stop : Place) (message : String) : List String :=
  let line := shown (l.page.line start.line)
  [l.gutter ++ "│",
    l.numbered start.line ++ "│ " ++ lineText line,
    l.gutter ++ "│ " ++ carets start.column (max stop.column (start.column + 1)) line
      ++ label message]

def markedLine (l : Layout) (message : String) (number : Nat) (mark : Mark) : List String :=
  let line := shown (l.page.line number)
  let text := lineText line
  match mark with
  | .top column =>
    if column ≤ byteLength (line.takeWhile CharClass.isSpace) then
      [l.numbered number ++ "│ ╭ " ++ text]
    else
      [l.numbered number ++ "│   " ++ text,
        l.gutter ++ "│ ╭" ++ fill '─' line (fun cell => cell.start ≤ column) ++ "^"]
  | .left => [l.numbered number ++ "│ │ " ++ text]
  | .bottom column =>
    [l.numbered number ++ "│ │ " ++ text,
      l.gutter ++ "│ ╰" ++ fill '─' line (fun cell => cell.start < column) ++ "^"
        ++ label message]
  | .outside => [l.numbered number ++ "│   " ++ text]

/-- Lines stay visible up to three behind the first and one in front of the last. -/
def isContext (first last number : Nat) : Bool := number ≤ first + 3 || last ≤ number + 1

def visible (start stop : Place) : List (Nat × Mark) :=
  if start.line < stop.line then
    let between := (List.range (stop.line - start.line - 1)).map fun i => start.line + 1 + i
    (start.line, .top start.column)
      :: (between.filter (isContext start.line stop.line)).map (fun number => (number, .left))
      ++ [(stop.line, .bottom stop.column)]
  else
    [(stop.line, .bottom stop.column), (start.line, .top start.column)]

/-- What stands for the lines left out behind a visible one. A single line is shown after all. -/
def gap (l : Layout) (message : String) (number next : Nat) (mark : Mark) : List String :=
  if next = number + 2 then
    l.markedLine message (number + 1) (match mark with | .left => .left | _ => .outside)
  else if number + 2 < next then
    [l.gutter ++ match mark with | .left | .bottom _ => "· │" | .top _ | .outside => "·  "]
  else
    []

def markedLines (l : Layout) (message : String) : List (Nat × Mark) → List String
  | [] => []
  | [(number, mark)] => l.markedLine message number mark
  | (number, mark) :: (next, nextMark) :: rest =>
    l.markedLine message number mark ++ l.gap message number next mark
      ++ l.markedLines message ((next, nextMark) :: rest)

def multiLine (l : Layout) (start stop : Place) (message : String) : List String :=
  (l.gutter ++ "│  ") :: l.markedLines message (visible start stop)

end Layout

def excerpt (file : SourceFile) (span : Span) (message : String) : List String :=
  let page := Page.ofText file.text
  let start := page.place span.start
  let stop := page.place span.stop
  let layout : Layout := ⟨(toString (max start.line stop.line)).length, page⟩
  let column := charsBefore start.column (page.line start.line) + 1
  let locus := layout.gutter ++ "┌─ " ++ file.name ++ ":" ++ toString start.line ++ ":"
    ++ toString column
  let body :=
    if start.line = stop.line then layout.singleLine start stop message
    else layout.multiLine start stop message
  locus :: body

end Snippet

end Decaf
