import ViewSync.Text.Decimal

/-!
Cutting text apart: at line feeds into lines, at blanks into words, and at the last colon into a
host and a port.
-/

namespace ViewSync.Bytes

/-- The parts of a text between the bytes that separate, in order. There is one more of them than
there are such bytes. -/
def segments (separates : UInt8 → Bool) (text : Bytes) : List Bytes :=
  text.foldr
    (fun byte parts =>
      if separates byte then
        [] :: parts
      else
        match parts with
        | first :: rest => (byte :: first) :: rest
        | [] => [[byte]])
    [[]]

/-- The lines of a text. After a line feed at the end there is one more line, which is empty. -/
def lines (text : Bytes) : List Bytes :=
  segments (· = 10) text

def words (text : Bytes) : List Bytes :=
  (segments isBlank text).filter (· ≠ [])

/-- What stands before and after the last colon, if there is a colon. -/
def atLastColon? (text : Bytes) : Option (Bytes × Bytes) :=
  match text.reverse.dropWhile (· ≠ 58) with
  | [] => none
  | _ :: before => some (before.reverse, (text.reverse.takeWhile (· ≠ 58)).reverse)

end ViewSync.Bytes
