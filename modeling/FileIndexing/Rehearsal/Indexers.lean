import FileIndexing.File
import FileIndexing.Service.Environment
import FileIndexing.Text.Blank
import FileIndexing.Text.Quoted

/-!
# Indexers for rehearsals

Some plain indexers from texts to numbers.  All of them look at the text of the content first:
certain marks in it make them refuse the content or panic.
-/

namespace FileIndexing.Rehearsal

/-- What an indexer makes of a content. -/
inductive IndexerKind where
  /-- How often each word occurs. -/
  | words
  /-- The number of bytes of each word. -/
  | lengths
  /-- How often each byte occurs, bytes being written as two hexadecimal digits. -/
  | bytes
  /-- The number of bytes of the content under the name of the file. -/
  | name
  /-- The number one under the extension of the file. -/
  | extension
  deriving DecidableEq, Repr

/-- Whether a text occurs in another one. -/
def occursIn (part : List Char) : List Char → Bool
  | [] => part.isEmpty
  | c :: rest => part.isPrefixOf (c :: rest) || occursIn part rest

/-- A byte as two hexadecimal digits. -/
def byteText (b : UInt8) : String :=
  String.ofList [Nat.digitChar (b.toNat / 16), Nat.digitChar (b.toNat % 16)]

/-- How often each text occurs in a list. -/
def tally (texts : List String) : Mapping String Nat :=
  texts.foldl (fun counts text => counts.insert text (counts[text]?.getD 0 + 1)) ∅

/-- What marks in a text make every indexer do. -/
def refusal? (text : String) : Option Refusal :=
  if occursIn "<fail>".toList text.toList then some (.error "refusing to map <fail>")
  else if occursIn "<chain>".toList text.toList then some (.error "outer context")
  else if occursIn "<panic>".toList text.toList then some (.panic (.text "indexer panic"))
  else none

namespace IndexerKind

/-- The keys and values of a content that is not refused at sight. -/
def mapping (kind : IndexerKind) (content : FileContent) :
    Except Refusal (Mapping String Nat) :=
  match kind with
  | .words => .ok (tally (Text.words content.text))
  | .lengths =>
    .ok ((Text.words content.text).foldl (fun m word => m.insert word word.utf8ByteSize) ∅)
  | .bytes => .ok (tally (content.bytes.map byteText))
  | .name => .ok (Std.ExtTreeMap.empty.insert content.file.name content.size)
  | .extension =>
    match content.file.extension? with
    | some suffix => .ok (Std.ExtTreeMap.empty.insert (Text.Utf8.decodeLossy suffix) 1)
    | none => .error (.error "file has no extension")

/-- The indexer of a kind. -/
def indexer (kind : IndexerKind) : Indexer String Nat := fun content =>
  match refusal? content.text with
  | some refusal => .error refusal
  | none => kind.mapping content

end IndexerKind

end FileIndexing.Rehearsal
