/-
TwinRegion.Outside.Toml — a reader of TOML documents with one text key.

A document is a row of lines: blank, a comment, or the one entry
`name = "…"`. The reader takes TOML 1.0 in full as far as such an entry
goes: bare and quoted keys, the four kinds of string with their escapes,
and comments. Any other key, value or table is no document of this kind,
and `nameOf` answers `none` for it.
-/
import TwinRegion.Settings

namespace TwinRegion.Toml

/-! ## Characters -/

def isBlank (c : Char) : Bool := c == ' ' || c == '\t'

/-- The characters of a comment: a tab, what prints in ASCII, and all beyond. -/
def isCommentChar (c : Char) : Bool :=
  c == '\t' || (0x20 ≤ c.toNat && c.toNat ≤ 0x7E) || 0x80 ≤ c.toNat

/-- The characters that stand for themselves between double quotes. -/
def isBasicChar (c : Char) : Bool := isCommentChar c && c != '"' && c != '\\'

/-- The characters between single quotes. -/
def isLiteralChar (c : Char) : Bool := isCommentChar c && c != '\''

def isBareKeyChar (c : Char) : Bool :=
  ('a' ≤ c && c ≤ 'z') || ('A' ≤ c && c ≤ 'Z') || ('0' ≤ c && c ≤ '9') || c == '_' || c == '-'

/-! ## Lines without an entry -/

/-- Goes past blank lines and comments, to the first character of an entry or the
end. The flag says that the text before was a comment. -/
def skipLines : Bool → List Char → Option (List Char)
  | _, [] => some []
  | _, '\n' :: rest => skipLines false rest
  | true, c :: rest => if isCommentChar c then skipLines true rest else none
  | false, '#' :: rest => skipLines true rest
  | false, c :: rest => if isBlank c then skipLines false rest else some (c :: rest)

/-- After an entry nothing may follow on its line but a comment. -/
def endOfLine (text : List Char) : Option (List Char) :=
  match text.dropWhile isBlank with
  | [] => some []
  | '\n' :: rest => skipLines false rest
  | '#' :: rest => skipLines true rest
  | _ => none

/-! ## Escapes -/

def hexDigit? (c : Char) : Option Nat :=
  if '0' ≤ c ∧ c ≤ '9' then some (c.toNat - '0'.toNat)
  else if 'a' ≤ c ∧ c ≤ 'f' then some (c.toNat - 'a'.toNat + 10)
  else if 'A' ≤ c ∧ c ≤ 'F' then some (c.toNat - 'A'.toNat + 10)
  else none

/-- The character whose number is written in hexadecimal. -/
def charOfHex? (digits : List Char) : Option Char := do
  let number ← digits.foldlM (fun n c => return n * 16 + (← hexDigit? c)) 0
  if number.isValidChar then some (Char.ofNat number) else none

/-- The character that a backslash and the text after it stand for, and the rest. -/
def escape? : List Char → Option (Char × List Char)
  | 'b' :: rest => some ('\x08', rest)
  | 't' :: rest => some ('\t', rest)
  | 'n' :: rest => some ('\n', rest)
  | 'f' :: rest => some ('\x0c', rest)
  | 'r' :: rest => some ('\r', rest)
  | '"' :: rest => some ('"', rest)
  | '\\' :: rest => some ('\\', rest)
  | 'u' :: a :: b :: c :: d :: rest => (charOfHex? [a, b, c, d]).map (·, rest)
  | 'U' :: a :: b :: c :: d :: e :: f :: g :: h :: rest =>
    (charOfHex? [a, b, c, d, e, f, g, h]).map (·, rest)
  | _ => none

/-- A backslash at the end of a line takes the line's end and all blank space after
it away: the rest, if the text after the backslash is of that kind. -/
def continuation? (text : List Char) : Option (List Char) :=
  match text.dropWhile isBlank with
  | '\n' :: rest => some (rest.dropWhile fun c => isBlank c || c == '\n')
  | _ => none

theorem escape?_length {text rest : List Char} {c : Char} (h : escape? text = some (c, rest)) :
    rest.length < text.length := by
  unfold escape? at h
  split at h <;> first
    | (cases h; done)
    | (simp only [Option.some.injEq, Prod.mk.injEq] at h; simp [← h.2])
    | (simp only [Option.map_eq_some_iff, Prod.mk.injEq] at h
       obtain ⟨_, _, _, h⟩ := h; subst h; simp only [List.length_cons]; omega)

theorem continuation?_length {text rest : List Char} (h : continuation? text = some rest) :
    rest.length < text.length := by
  unfold continuation? at h
  have hdrop := (List.dropWhile_suffix isBlank (l := text)).length_le
  split at h
  · rename_i tail heq
    simp only [Option.some.injEq] at h
    have := (List.dropWhile_suffix (fun c => isBlank c || c == '\n') (l := tail)).length_le
    rw [heq, List.length_cons] at hdrop
    rw [← h]
    omega
  · cases h

/-! ## Strings -/

/-- The text up to the closing double quote, and the rest. -/
def basic (text : List Char) : Option (List Char × List Char) :=
  match text with
  | [] => none
  | '"' :: rest => some ([], rest)
  | '\\' :: rest =>
    match _h : escape? rest with
    | some (c, rest') => (basic rest').map fun (body, rest) => (c :: body, rest)
    | none => none
  | c :: rest =>
    if isBasicChar c then (basic rest).map fun (body, rest) => (c :: body, rest) else none
termination_by text.length
decreasing_by
  all_goals simp only [List.length_cons]
  · have := escape?_length (by assumption); omega
  · omega

/-- The text up to the closing single quote, and the rest. -/
def literal : List Char → Option (List Char × List Char)
  | [] => none
  | '\'' :: rest => some ([], rest)
  | c :: rest =>
    if isLiteralChar c then (literal rest).map fun (body, rest) => (c :: body, rest) else none

/-- The text up to three double quotes, and the rest. Up to two more quotes right
before them belong to the text. -/
def longBasic (text : List Char) : Option (List Char × List Char) :=
  match text with
  | [] => none
  | '"' :: '"' :: '"' :: '"' :: '"' :: rest => some (['"', '"'], rest)
  | '"' :: '"' :: '"' :: '"' :: rest => some (['"'], rest)
  | '"' :: '"' :: '"' :: rest => some ([], rest)
  | '"' :: rest => (longBasic rest).map fun (body, rest) => ('"' :: body, rest)
  | '\\' :: rest =>
    match _h : escape? rest with
    | some (c, rest') => (longBasic rest').map fun (body, rest) => (c :: body, rest)
    | none =>
      match _h : continuation? rest with
      | some rest' => longBasic rest'
      | none => none
  | '\n' :: rest => (longBasic rest).map fun (body, rest) => ('\n' :: body, rest)
  | c :: rest =>
    if isBasicChar c then (longBasic rest).map fun (body, rest) => (c :: body, rest) else none
termination_by text.length
decreasing_by
  all_goals simp only [List.length_cons]
  · omega
  · have := escape?_length (by assumption); omega
  · have := continuation?_length (by assumption); omega
  · omega
  · omega

/-- The text up to three single quotes, and the rest. Up to two more quotes right
before them belong to the text. -/
def longLiteral : List Char → Option (List Char × List Char)
  | [] => none
  | '\'' :: '\'' :: '\'' :: '\'' :: '\'' :: rest => some (['\'', '\''], rest)
  | '\'' :: '\'' :: '\'' :: '\'' :: rest => some (['\''], rest)
  | '\'' :: '\'' :: '\'' :: rest => some ([], rest)
  | c :: rest =>
    if isCommentChar c || c == '\n' then
      (longLiteral rest).map fun (body, rest) => (c :: body, rest)
    else none

/-- The first line break right after opening quotes is not part of the text. -/
def dropFirstBreak : List Char → List Char
  | '\n' :: rest => rest
  | text => text

/-- A string of any of the four kinds. -/
def stringValue : List Char → Option (List Char × List Char)
  | '"' :: '"' :: '"' :: rest => longBasic (dropFirstBreak rest)
  | '"' :: rest => basic rest
  | '\'' :: '\'' :: '\'' :: rest => longLiteral (dropFirstBreak rest)
  | '\'' :: rest => literal rest
  | _ => none

/-! ## Documents -/

/-- The key of an entry, bare or quoted. -/
def key : List Char → Option (List Char × List Char)
  | '"' :: rest => basic rest
  | '\'' :: rest => literal rest
  | text => some (text.takeWhile isBareKeyChar, text.dropWhile isBareKeyChar)

/-- An entry `name = string`: the string and the rest of the text. -/
def entry (text : List Char) : Option (List Char × List Char) := do
  let (name, rest) ← key text
  if name ≠ "name".toList then none
  match rest.dropWhile isBlank with
  | '=' :: rest => stringValue (rest.dropWhile isBlank)
  | _ => none

/-- A line break of two characters counts as one. -/
def joinBreaks : List Char → List Char
  | [] => []
  | '\r' :: '\n' :: rest => '\n' :: joinBreaks rest
  | c :: rest => c :: joinBreaks rest

/-- A byte order mark in front of a document does not count. -/
def dropMark : List Char → List Char
  | '\uFEFF' :: rest => rest
  | text => text

/-- The name that a document gives, if it gives one; `none` if the text is not a
document of this kind. -/
def nameOf (text : List Char) : Option (Option String) := do
  match ← skipLines false (joinBreaks (dropMark text)) with
  | [] => return none
  | first :: rest =>
    let (name, rest) ← entry (first :: rest)
    if (← endOfLine rest).isEmpty then return some (String.ofList name)
    else none

/-- This reader as a library. -/
@[reducible] def reader : TomlReader := ⟨fun document => nameOf document.toList⟩

end TwinRegion.Toml
