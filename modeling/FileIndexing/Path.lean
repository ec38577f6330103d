import FileIndexing.Text.Utf8

/-!
# Paths

A path is a sequence of bytes.  What it names is read off its components: the slash separates
them, empty ones and inner or trailing single dots do not count, and a single dot counts only at
the start of a relative path.  Two paths are equal when their components are.

* `Path.fileName?` is the last component when that is a name.
* `Path.extension?` is what follows the last dot of the file name, unless the dot begins it.
* `Path.text` shows a path, with U+FFFD for bytes that are not UTF-8.
-/

namespace FileIndexing

/-- A path as its bytes. -/
structure Path where
  bytes : List UInt8
  deriving Repr

namespace Path

/-- One step of a path. -/
inductive Component where
  | root
  | here
  | parent
  | name (bytes : List UInt8)
  deriving DecidableEq, Repr

/-- The byte that separates components. -/
def slash : UInt8 := 0x2F

/-- The byte of a full stop. -/
def dot : UInt8 := 0x2E

/-- The maximal runs of bytes between slashes, given the bytes (in reverse) before them. -/
def segmentsFrom : List UInt8 → List UInt8 → List (List UInt8)
  | current, [] => [current.reverse]
  | current, b :: rest =>
    if b = slash then current.reverse :: segmentsFrom [] rest
    else segmentsFrom (b :: current) rest

/-- The component that a segment after the first stands for, if any. -/
def Component.ofSegment? (segment : List UInt8) : Option Component :=
  if segment.isEmpty || segment = [dot] then none
  else if segment = [dot, dot] then some .parent
  else some (.name segment)

/-- The components of a path. -/
def components (p : Path) : List Component :=
  match p.bytes with
  | [] => []
  | b :: _ =>
    let segments := segmentsFrom [] p.bytes
    let inner := segments.filterMap Component.ofSegment?
    if b = slash then .root :: inner
    else if segments.head? = some [dot] then .here :: inner
    else inner

instance : BEq Path := ⟨fun p q => p.components == q.components⟩

theorem beq_iff (p q : Path) : (p == q) = true ↔ p.components = q.components := by
  change (p.components == q.components) = true ↔ _
  exact beq_iff_eq

instance : EquivBEq Path where
  rfl := by simp [beq_iff]
  symm := by
    intro p q h
    rw [beq_iff] at h ⊢
    exact h.symm
  trans := by
    intro p q r h h'
    rw [beq_iff] at h h' ⊢
    exact h.trans h'

/-- The last component, when it is a name. -/
def fileName? (p : Path) : Option (List UInt8) :=
  match p.components.getLast? with
  | some (.name bytes) => some bytes
  | _ => none

/-- The bytes after the last dot of a file name that has a dot after its first byte. -/
def extensionOfName? (name : List UInt8) : Option (List UInt8) :=
  let reversed := name.reverse
  let after := (reversed.takeWhile (· != dot)).reverse
  match reversed.dropWhile (· != dot) with
  | [] => none
  | _ :: before => if before.isEmpty then none else some after

/-- The extension of the file name. -/
def extension? (p : Path) : Option (List UInt8) := p.fileName?.bind extensionOfName?

/-- A path as text. -/
def text (p : Path) : String := Text.Utf8.decodeLossy p.bytes

/-- The file name as text, or the whole path when it has none. -/
def name (p : Path) : String :=
  match p.fileName? with
  | some bytes => Text.Utf8.decodeLossy bytes
  | none => p.text

/-- The path whose bytes are those of a text. -/
def ofText (text : String) : Path := ⟨Text.Utf8.encode text⟩

/-- The paths of a list without those equal to an earlier one. -/
def distinct (paths : List Path) : List Path :=
  (paths.foldl (fun kept p => if kept.any (· == p) then kept else p :: kept) []).reverse

end Path

end FileIndexing
