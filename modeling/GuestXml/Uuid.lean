import GuestXml.Number.Bounded

/-!
# Universally unique identifiers

An identifier is thirty-two hexadecimal digits. Its canonical text has them in lower case
in groups of 8, 4, 4, 4 and 12, joined by hyphens. Reading also takes capitals, the digits
without hyphens, and the hyphenated form in braces or behind `urn:uuid:` in either case.
-/

namespace GuestXml

/-- Thirty-two hexadecimal digits. -/
structure Uuid where
  digits : List (Fin 16)
  length_eq : digits.length = 32
  deriving DecidableEq, Repr

namespace Uuid

/-- A hexadecimal digit in lower case. -/
def digitChar (d : Fin 16) : Char :=
  Nat.digitChar d

/-- The canonical text. -/
def toText (u : Uuid) : String :=
  let cs := u.digits.map digitChar
  String.ofList <|
    cs.take 8 ++ '-' :: (cs.drop 8).take 4 ++ '-' :: (cs.drop 12).take 4 ++
      '-' :: (cs.drop 16).take 4 ++ '-' :: cs.drop 20

/-- The value of a hexadecimal digit in either case. -/
def digit? (c : Char) : Option (Fin 16) :=
  (Number.digitValue? 16 c).bind fun n => if h : n < 16 then some ⟨n, h⟩ else none

/-- Thirty-two digits without anything between them. -/
def ofPlain? (cs : List Char) : Option Uuid :=
  (cs.mapM digit?).bind fun ds => if h : ds.length = 32 then some ⟨ds, h⟩ else none

/-- Digits in groups joined by hyphens. -/
def ofHyphenated? (cs : List Char) : Option Uuid :=
  if cs.length = 36 ∧ cs[8]? = some '-' ∧ cs[13]? = some '-' ∧ cs[18]? = some '-' ∧
      cs[23]? = some '-' then
    ofPlain? (cs.take 8 ++ (cs.drop 9).take 4 ++ (cs.drop 14).take 4 ++ (cs.drop 19).take 4 ++
      cs.drop 24)
  else none

/-- Reads any of the accepted forms. -/
def ofText? (cs : List Char) : Option Uuid :=
  if cs.length = 32 then ofPlain? cs
  else if cs.length = 36 then ofHyphenated? cs
  else if cs.length = 38 ∧ cs.head? = some '\x7b' ∧ cs.getLast? = some '\x7d' then
    ofHyphenated? (cs.drop 1).dropLast
  else if cs.length = 45 ∧ (cs.take 9).map Char.toLower = "urn:uuid:".toList then
    ofHyphenated? (cs.drop 9)
  else none

end Uuid

end GuestXml
