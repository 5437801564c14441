/-!
Text as the system sees it: a sequence of bytes in no particular encoding. Names, hosts, command
line words and everything that is printed are such sequences.
-/

namespace ViewSync

abbrev Bytes := List UInt8

namespace Bytes

/-- The bytes of a text of this library's own. -/
def ofString (text : String) : Bytes :=
  text.toUTF8.data.toList

def quoted (text : Bytes) : Bytes :=
  39 :: text ++ [39]

/-- The bytes before the first NUL. Text that is handed over as NUL-terminated ends there. -/
def terminated (text : Bytes) : Bytes :=
  text.takeWhile (· ≠ 0)

end Bytes

end ViewSync
