import CellKeys.Decimal.Column
import CellKeys.Element
import CellKeys.Fault
import CellKeys.Tensor

namespace CellKeys

/-- An entry as text, outside its array. -/
def Element.text : Element → String
  | .float x => x.text
  | .int n => intText n
  | .bool b => boolText b

/-- Choices in the layout of an array. -/
structure Grid where
  separator : String
  lineWidth : Nat
  /-- Whether only the entries near the ends of an axis are shown. -/
  shortened : Bool

namespace Grid

/-- Number of entries shown at either end of an axis in a shortened array. -/
def edge : Nat := 3

/-- An array with more entries than this is shortened. -/
def sizeLimit : Nat := 1000

/-- The parts of an axis that are shown: those before the gap, and those behind it. -/
def visible {α : Type} (shortened : Bool) (xs : List α) : List α × List α :=
  if shortened && 2 * edge < xs.length then (xs.take edge, xs.drop (xs.length - edge)) else ([], xs)

/-- The entries that are shown. -/
def visibleEntries {α : Type} (shortened : Bool) : List Nat → List α → List α
  | [], xs => xs
  | n :: rest, xs =>
    let (before, after) := visible shortened (Tensor.pieces (volume rest) n xs)
    (before ++ after).flatMap (visibleEntries shortened rest)

/-- This many blanks. -/
def blanks (count : Nat) : String := String.ofList (List.replicate count ' ')

/-- A text without the blanks at its end. -/
def trimEnd (s : String) : String :=
  String.ofList (s.toList.reverse.dropWhile (· = ' ')).reverse

/-- Puts a word on the last line, or on a new one if the line would become too long. The first word
    of a line stays on it. -/
def putWord (width indent : Nat) (text : String × String) (word : String) : String × String :=
  let (lines, line) := text
  if width < line.length + word.length && indent < line.length then
    (lines ++ trimEnd line ++ "\n", blanks indent ++ word)
  else (lines, line ++ word)

/-- Words on lines, with separators behind all but the last. The first line is given without its
    indentation. -/
def putWords (g : Grid) (width indent : Nat) (words : List String) : String :=
  let put := fun text word => putWord width indent text word
  let separated := fun (text : String × String) (word : String) =>
    let (lines, line) := put text word
    (lines, line ++ g.separator)
  let start := words.dropLast.foldl separated ("", blanks indent)
  let (lines, line) := (words.getLast?.map (put start)).getD start
  String.ofList ((lines ++ line).toList.drop indent)

/-- The parts of an axis as texts, with a gap where parts are left out. -/
def axisTexts {α : Type} (g : Grid) (text : α → String) (xs : List α) : List String :=
  let (before, after) := visible g.shortened xs
  if before.isEmpty then after.map text else before.map text ++ "..." :: after.map text

/-- The entries of an array with this shape as text, between brackets. -/
def write (g : Grid) (word : Element → String) (width indent : Nat) :
    List Nat → List Element → String
  | [], es => String.join (es.map word)
  | [_], es => "[" ++ g.putWords (width - 1) (indent + 1) (g.axisTexts word es) ++ "]"
  | n :: rest, es =>
    let rows := g.axisTexts (g.write word (width - 1) (indent + 1) rest)
      (Tensor.pieces (volume rest) n es)
    let between := trimEnd g.separator ++ String.ofList (List.replicate rest.length '\n') ++
      blanks (indent + 1)
    "[" ++ between.intercalate rows ++ "]"

/-- How the entries of an array are written when these ones are shown. -/
def entryText (kind : ElementKind) (shape : List Nat) (shown : List Element) : Element → String :=
  match kind with
  | .float64 | .float32 =>
    let column := Column.ofValues (kind = .float32) (shown.map Element.value)
    fun e => column.write e.value
  | kind =>
    let width := if shape.isEmpty then 0
      else if kind = .bool then 5
      else (shown.map (·.text.length)).foldl max 0
    fun e => blanks (width - e.text.length) ++ e.text

/-- The entries of an array as text, behind an indentation and within a width. -/
def entriesText (separator : String) (width indent : Nat) (kind : ElementKind)
    (t : Tensor Element) : String :=
  if t.isEmpty then "[]"
  else
    let g : Grid := ⟨separator, width, sizeLimit < t.entries.length⟩
    g.write (entryText kind t.shape (visibleEntries g.shortened t.shape t.entries)) width indent
      t.shape t.entries

/-- The width of a line. -/
def pageWidth : Nat := 75

/-- An array as text without its kind. -/
def plainText (kind : ElementKind) (t : Tensor Element) : String :=
  entriesText " " pageWidth 0 kind t

/-- An array as text, with its shape where the entries do not show it, and with its kind unless it
    is one of the usual ones. -/
def text (kind : ElementKind) (t : Tensor Element) : String :=
  let opening := "array("
  let entries := opening ++ entriesText ", " (pageWidth - 1) opening.length kind t
  let shape := if t.isEmpty && t.shape ≠ [0] || sizeLimit < t.entries.length then
    ["shape=" ++ Fault.shapeText t.shape] else []
  let usual := kind = .float64 || kind = .bool || kind = .signed 64
  let kinds := if usual && !t.isEmpty then [] else ["dtype=" ++ kind.name]
  let extras := ", ".intercalate (shape ++ kinds)
  if extras.isEmpty then entries ++ ")"
  else
    let lastLine := (entries.toList.reverse.takeWhile (· ≠ '\n')).length + 1
    let between := if pageWidth < lastLine + extras.length + 2 then "\n" ++ blanks opening.length
      else " "
    entries ++ "," ++ between ++ extras ++ ")"

end Grid

end CellKeys
