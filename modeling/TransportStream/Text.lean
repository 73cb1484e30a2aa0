/-!
# Texts

Cells are filled up with blanks and numbers with zeros; neither is ever cut.
-/
namespace TransportStream.Text

namespace Columns

def blanks (count : Nat) : String := String.ofList (List.replicate count ' ')

/-- A cell whose text stands at the left edge. -/
def left (width : Nat) (text : String) : String := text ++ blanks (width - text.length)

/-- A cell whose text stands at the right edge. -/
def right (width : Nat) (text : String) : String := blanks (width - text.length) ++ text

theorem toList_left (width : Nat) (text : String) :
    (left width text).toList =
      text.toList ++ List.replicate (width - text.toList.length) ' ' := by
  simp [left, blanks, ← String.length_toList]

theorem toList_right (width : Nat) (text : String) :
    (right width text).toList =
      List.replicate (width - text.toList.length) ' ' ++ text.toList := by
  simp [right, blanks, ← String.length_toList]

end Columns

namespace Hexadecimal

inductive Letters where
  | small
  | capital
  deriving DecidableEq, Repr

def Letters.apply : Letters → Char → Char
  | .small, c => c
  | .capital, c => c.toUpper

/-- The digits of `value`, at least `width` of them. -/
def digits (letters : Letters) (width value : Nat) : List Char :=
  let significant := (Nat.toDigits 16 value).map letters.apply
  List.replicate (width - significant.length) '0' ++ significant

def marked (letters : Letters) (width value : Nat) : String :=
  "0x" ++ String.ofList (digits letters width value)

end Hexadecimal

inductive Json where
  | null
  | bool (value : Bool)
  | number (value : Nat)
  | text (value : String)
  | array (items : List Json)
  | object (fields : List (String × Json))

namespace Json

def escape (c : Char) : List Char :=
  match c with
  | '"' => ['\\', '"']
  | '\\' => ['\\', '\\']
  | '\x08' => ['\\', 'b']
  | '\x0c' => ['\\', 'f']
  | '\n' => ['\\', 'n']
  | '\r' => ['\\', 'r']
  | '\t' => ['\\', 't']
  | _ =>
    if c.toNat < 0x20 then '\\' :: 'u' :: Hexadecimal.digits .small 4 c.toNat else [c]

def quoted (text : String) : String :=
  "\"" ++ String.ofList (text.toList.flatMap escape) ++ "\""

/-- The start of a line at the given depth. -/
def margin (depth : Nat) : String := "\n" ++ String.ofList (List.replicate (2 * depth) ' ')

mutual

/-- The written form of a value that stands at the given depth. -/
def write (depth : Nat) : Json → String
  | .null => "null"
  | .bool value => if value then "true" else "false"
  | .number value => Nat.repr value
  | .text value => quoted value
  | .array [] => "[]"
  | .array (item :: items) =>
    "[" ++ margin (depth + 1) ++ write (depth + 1) item ++ writeItems (depth + 1) items ++
      margin depth ++ "]"
  | .object [] => "\x7b\x7d"
  | .object ((key, value) :: fields) =>
    "\x7b" ++ margin (depth + 1) ++ quoted key ++ ": " ++ write (depth + 1) value ++
      writeFields (depth + 1) fields ++ margin depth ++ "\x7d"

/-- The items after the first. -/
def writeItems (depth : Nat) : List Json → String
  | [] => ""
  | item :: items => "," ++ margin depth ++ write depth item ++ writeItems depth items

/-- The fields after the first. -/
def writeFields (depth : Nat) : List (String × Json) → String
  | [] => ""
  | (key, value) :: fields =>
    "," ++ margin depth ++ quoted key ++ ": " ++ write depth value ++ writeFields depth fields

end

def render (value : Json) : String := write 0 value

end Json

end TransportStream.Text
