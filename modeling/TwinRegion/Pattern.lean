/-
TwinRegion.Pattern — looking for patterns in texts.

Names are judged by patterns, which are texts that a library reads
(`PatternLibrary`). What a library does with a pattern is not this
program's own; it is documented in terms of the parts that a pattern is
written with. `Pattern.text` writes down the few of them that matter here,
`Pattern.Occurs` says where they are found, and a library that does so is
`PatternLibrary.Documented`.
-/
import TwinRegion.Error

namespace TwinRegion

/-- A library that looks for patterns in texts. -/
class PatternLibrary where
  /-- What a pattern is read as. -/
  Compiled : Type
  compile? (pattern : String) : Option Compiled
  /-- The pattern is found somewhere in the text. -/
  isMatch (compiled : Compiled) (text : String) : Bool

/-- Whether a pattern of the program's own is found in a text. The library has to read it. -/
def PatternLibrary.search [PatternLibrary] (pattern text : String) : Except Failure Bool :=
  match compile? pattern with
  | some compiled => .ok (isMatch compiled text)
  | none => .error (.fault .badPattern)

namespace Pattern

/-! ## How patterns are written -/

/-- Characters of a kind. -/
inductive Kind where
  | only (c : Char)
  /-- Those from the first to the last character of one of the ranges; and the hyphen, if one
  stands behind the ranges. -/
  | among (ranges : List (Char × Char)) (hyphen : Bool)
  deriving DecidableEq, Repr

/-- A part of a pattern. -/
inductive Part where
  /-- The text starts here. -/
  | start
  /-- The text ends here. -/
  | stop
  | one (kind : Kind)
  /-- Any number of characters of the kind, or none. -/
  | many (kind : Kind)
  deriving DecidableEq, Repr

/-- The characters that are read as themselves only behind a backslash. -/
def isMeta (c : Char) : Bool := "\\.+*?()|[]\x7b\x7d^$#&-~".toList.contains c

/-- The characters that a range can be written with. -/
def isRangeChar (c : Char) : Bool := c.isAlphanum || c == '_'

/-- A range of one character is written as that. -/
def rangeText : Char × Char → List Char
  | (first, last) => if first = last then [first] else [first, '-', last]

def Kind.text : Kind → List Char
  | only c => if isMeta c then ['\\', c] else [c]
  | among ranges hyphen =>
    '[' :: ranges.flatMap rangeText ++ (if hyphen then ['-'] else []) ++ [']']

def Part.text : Part → List Char
  | start => ['^']
  | stop => ['$']
  | one kind => kind.text
  | many kind => kind.text ++ ['*']

/-- The text of a pattern. -/
def text (parts : List Part) : String := String.ofList (parts.flatMap Part.text)

/-- Something is between the brackets, and the ranges there are ranges. -/
def Kind.isProper : Kind → Bool
  | only _ => true
  | among ranges hyphen =>
    (hyphen || !ranges.isEmpty) && ranges.all fun (first, last) =>
      isRangeChar first && isRangeChar last && decide (first ≤ last)

def Part.isProper : Part → Bool
  | start | stop => true
  | one kind | many kind => kind.isProper

/-! ## Where patterns are found -/

/-- The character is of the kind. -/
def Kind.Has : Kind → Char → Prop
  | only c, d => d = c
  | among ranges hyphen, d => (∃ range ∈ ranges, range.1 ≤ d ∧ d ≤ range.2) ∨ (hyphen ∧ d = '-')

/-- The parts are found one after the other in `rest`, behind what comes `before` it. -/
def Fits (before : List Char) : List Part → List Char → Prop
  | [], _ => True
  | .start :: parts, rest => before = [] ∧ Fits before parts rest
  | .stop :: parts, rest => rest = [] ∧ Fits before parts rest
  | .one kind :: parts, rest =>
    ∃ c tail, rest = c :: tail ∧ kind.Has c ∧ Fits (before ++ [c]) parts tail
  | .many kind :: parts, rest =>
    ∃ run tail, rest = run ++ tail ∧ (∀ c ∈ run, kind.Has c) ∧ Fits (before ++ run) parts tail

/-- The parts are found somewhere in the text. -/
def Occurs (parts : List Part) (text : List Char) : Prop :=
  ∃ before rest, text = before ++ rest ∧ Fits before parts rest

end Pattern

/-- The length of patterns that no library finds too long. -/
def Pattern.modestLength : Nat := 100

open Pattern in
/-- What is documented of a library: it reads proper patterns unless they are too long, and what
it has read it finds where the parts occur. -/
structure PatternLibrary.Documented [PatternLibrary] : Prop where
  reads : ∀ parts, parts.all Part.isProper = true → (text parts).length ≤ modestLength →
    ∃ compiled, compile? (text parts) = some compiled
  finds : ∀ parts compiled, parts.all Part.isProper = true →
    compile? (text parts) = some compiled →
    ∀ s : String, isMatch compiled s = true ↔ Occurs parts s.toList

end TwinRegion
