/-
TwinRegion.Bytes.Text — bytes shown as text.

A name that comes in as bytes need not be UTF-8, and a message about it has
to show something all the same. Every longest run of bytes that starts a
character but does not finish it, and every byte that starts none, is shown
as one replacement character; the rest is shown as it is.
-/
import TwinRegion.Bytes

namespace TwinRegion.Bytes

/-- What the first byte of a character of several bytes says about the others: how
many there are, and between which two bounds the next one lies. -/
structure Lead where
  following : Nat
  low : UInt8
  high : UInt8
  deriving DecidableEq, Repr

/-- The character that a first byte of this value starts, if it starts one of several
bytes. The narrow bounds keep out spellings that are too long, surrogates, and what
lies beyond the last character. -/
def lead? (first : UInt8) : Option Lead :=
  if 0xc2 ≤ first ∧ first ≤ 0xdf then some ⟨1, 0x80, 0xbf⟩
  else if first = 0xe0 then some ⟨2, 0xa0, 0xbf⟩
  else if first = 0xed then some ⟨2, 0x80, 0x9f⟩
  else if 0xe1 ≤ first ∧ first ≤ 0xef then some ⟨2, 0x80, 0xbf⟩
  else if first = 0xf0 then some ⟨3, 0x90, 0xbf⟩
  else if 0xf1 ≤ first ∧ first ≤ 0xf3 then some ⟨3, 0x80, 0xbf⟩
  else if first = 0xf4 then some ⟨3, 0x80, 0x8f⟩
  else none

/-- How many of the wanted bytes are there. Only the first has bounds of its own. -/
def followers (wanted : Nat) (low high : UInt8) : List UInt8 → Nat
  | [] => 0
  | byte :: rest =>
    match wanted with
    | 0 => 0
    | wanted + 1 =>
      if low ≤ byte ∧ byte ≤ high then followers wanted 0x80 0xbf rest + 1 else 0

/-- The number that a character of several bytes spells. -/
def spelled (lead : Lead) (first : UInt8) (others : List UInt8) : Nat :=
  others.foldl (fun n byte => n * 64 + byte.toNat % 64) (first.toNat % 1 <<< (6 - lead.following))

/-- The characters that the bytes show. -/
def shownChars : List UInt8 → List Char
  | [] => []
  | first :: rest =>
    if first < 0x80 then Char.ofNat first.toNat :: shownChars rest
    else
      match lead? first with
      | none => '\ufffd' :: shownChars rest
      | some lead =>
        let size := followers lead.following lead.low lead.high rest
        let shown :=
          if size = lead.following then Char.ofNat (spelled lead first (rest.take size))
          else '\ufffd'
        shown :: shownChars (rest.drop size)
termination_by bytes => bytes.length
decreasing_by all_goals simp only [List.length_cons, List.length_drop]; omega

/-- The bytes as text. -/
def shown (bytes : List UInt8) : String := String.ofList (shownChars bytes)

end TwinRegion.Bytes
