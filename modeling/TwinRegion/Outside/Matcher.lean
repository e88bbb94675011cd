/-
TwinRegion.Outside.Matcher — a library of patterns.

A pattern is read part by part and then tried from every place of a text.
Whatever can be written with `Pattern.text` is read; other patterns are not.
-/
import TwinRegion.Pattern

namespace TwinRegion.Matcher

open Pattern

/-! ## Reading patterns -/

/-- What stands between brackets, and the text behind them. -/
def readRanges : List Char → Option (List (Char × Char) × Bool × List Char)
  | [] => none
  | ']' :: rest => some ([], false, rest)
  | '-' :: ']' :: rest => some ([], true, rest)
  | first :: '-' :: last :: rest =>
    if last = ']' then some ([(first, first)], true, rest)
    else (readRanges rest).map fun (ranges, rest) => ((first, last) :: ranges, rest)
  | first :: rest => (readRanges rest).map fun (ranges, rest) => ((first, first) :: ranges, rest)

/-- A kind of characters, and the text behind it. -/
def readKind : List Char → Option (Kind × List Char)
  | [] => none
  | '[' :: rest => (readRanges rest).map fun (ranges, hyphen, rest) => (.among ranges hyphen, rest)
  | '\\' :: c :: rest => if isMeta c then some (.only c, rest) else none
  | c :: rest => if isMeta c then none else some (.only c, rest)

/-- A part of a pattern, and the text behind it. -/
def readPart : List Char → Option (Part × List Char)
  | '^' :: rest => some (.start, rest)
  | '$' :: rest => some (.stop, rest)
  | text =>
    match readKind text with
    | some (kind, '*' :: rest) => some (.many kind, rest)
    | some (kind, rest) => some (.one kind, rest)
    | none => none

/-- All parts of a pattern, which are at most so many. -/
def readParts : Nat → List Char → Option (List Part)
  | _, [] => some []
  | 0, _ :: _ => none
  | bound + 1, c :: rest =>
    match readPart (c :: rest) with
    | some (part, rest) => (readParts bound rest).map (part :: ·)
    | none => none

/-! ## Looking for patterns -/

def has : Kind → Char → Bool
  | .only c, d => d = c
  | .among ranges hyphen, d =>
    ranges.any (fun range => range.1 ≤ d && d ≤ range.2) || (hyphen && d == '-')

/-- Past some characters of a kind, what comes next is found. What comes next may ask whether
it is at the start of the text. -/
def skips (kind : Char → Bool) (next : Bool → List Char → Bool) : Bool → List Char → Bool
  | atStart, [] => next atStart []
  | atStart, c :: rest => next atStart (c :: rest) || (kind c && skips kind next false rest)

/-- The parts are found one after the other from here on. -/
def fits : List Part → Bool → List Char → Bool
  | [], _, _ => true
  | .start :: parts, atStart, rest => atStart && fits parts atStart rest
  | .stop :: parts, atStart, rest => rest.isEmpty && fits parts atStart rest
  | .one _ :: _, _, [] => false
  | .one kind :: parts, _, c :: rest => has kind c && fits parts false rest
  | .many kind :: parts, atStart, rest => skips (has kind) (fits parts) atStart rest

/-- This library. Only proper patterns are read. -/
@[reducible] def library : PatternLibrary where
  Compiled := List Part
  compile? pattern :=
    (readParts pattern.length pattern.toList).filter fun parts => parts.all Part.isProper
  isMatch parts text := skips (fun _ => true) (fits parts) true text.toList

end TwinRegion.Matcher
