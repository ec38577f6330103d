import FileIndexing.Id
import FileIndexing.Path

/-!
# File contents

What an indexer is given: the file's path and the bytes it held when it was read.  `describe` is
the one-line description of a file that log records carry.
-/

namespace FileIndexing

/-- The content of a file at the time it was read. -/
structure FileContent where
  file : Path
  bytes : List UInt8
  deriving Repr

namespace FileContent

/-- The content as text, with U+FFFD for bytes that are not UTF-8. -/
def text (content : FileContent) : String := Text.Utf8.decodeLossy content.bytes

/-- The number of bytes. -/
def size (content : FileContent) : Nat := content.bytes.length

end FileContent

/-- The file an operation is about: the one named, or else the one its content came from. -/
def subjectFile (file : Option Path) (content : Option FileContent) : Option Path :=
  file.or (content.map (·.file))

/-- The description of a file in log records: whom it is about (an input number or any other
label), where it is and how much content there is. -/
def describeLabelled (label : String) (file : Option Path) (content : Option FileContent) :
    String :=
  let path := ((subjectFile file content).map (·.text)).getD "<unknown>"
  let size := (content.map fun c => s!"{c.size} bytes").getD "none"
  s!"[id={label}, path={path}, content={size}]"

/-- The description of an input's file in log records. -/
def describe (input : InputId) (file : Option Path) (content : Option FileContent) : String :=
  describeLabelled input.text file content

end FileIndexing
