/-!
# UTF-8

Decoding of bytes as UTF-8, one byte at a time.  `Progress` is the state of the decoder between
two bytes of a character: how many continuation bytes are still owed, the range that the next one
must lie in, and the bits read so far.  The range rules out overlong forms, surrogates and values
above U+10FFFF at the earliest byte that shows them.

* `decode?` accepts a byte sequence only if all of it is UTF-8.
* `decodeLossy` accepts every byte sequence: each maximal part that begins a character but does
  not complete it, and each byte that begins none, becomes one U+FFFD.
-/

namespace FileIndexing.Text.Utf8

/-- The decoder inside a character. -/
structure Progress where
  owed : Nat
  low : UInt8
  high : UInt8
  bits : Nat

/-- What one more byte does. -/
inductive Reading where
  | complete (c : Char)
  | partway (progress : Progress)
  | refused

/-- The first byte of a character. -/
def begin (b : UInt8) : Reading :=
  if b < 0x80 then .complete (Char.ofNat b.toNat)
  else if b < 0xC2 then .refused
  else if b < 0xE0 then .partway ⟨1, 0x80, 0xBF, b.toNat % 0x20⟩
  else if b = 0xE0 then .partway ⟨2, 0xA0, 0xBF, 0⟩
  else if b = 0xED then .partway ⟨2, 0x80, 0x9F, 0xD⟩
  else if b < 0xF0 then .partway ⟨2, 0x80, 0xBF, b.toNat % 0x10⟩
  else if b = 0xF0 then .partway ⟨3, 0x90, 0xBF, 0⟩
  else if b < 0xF4 then .partway ⟨3, 0x80, 0xBF, b.toNat % 0x08⟩
  else if b = 0xF4 then .partway ⟨3, 0x80, 0x8F, 4⟩
  else .refused

/-- A further byte of a character. -/
def Progress.extend (p : Progress) (b : UInt8) : Reading :=
  if b < p.low || p.high < b then .refused
  else
    let bits := p.bits * 0x40 + b.toNat % 0x40
    if p.owed ≤ 1 then .complete (Char.ofNat bits)
    else .partway ⟨p.owed - 1, 0x80, 0xBF, bits⟩

/-- The character that stands for bytes which are not UTF-8. -/
def replacement : Char := '\uFFFD'

/-- The characters of a byte sequence, from between two characters (`none`) or inside one. -/
def lossyFrom : Option Progress → List UInt8 → List Char
  | none, [] => []
  | some _, [] => [replacement]
  | none, b :: rest =>
    match begin b with
    | .complete c => c :: lossyFrom none rest
    | .partway p => lossyFrom (some p) rest
    | .refused => replacement :: lossyFrom none rest
  | some p, b :: rest =>
    match p.extend b with
    | .complete c => c :: lossyFrom none rest
    | .partway q => lossyFrom (some q) rest
    | .refused =>
      replacement ::
        match begin b with
        | .complete c => c :: lossyFrom none rest
        | .partway q => lossyFrom (some q) rest
        | .refused => replacement :: lossyFrom none rest

/-- The characters of a byte sequence, or nothing at the first byte that UTF-8 cannot hold. -/
def strictFrom : Option Progress → List UInt8 → Option (List Char)
  | none, [] => some []
  | some _, [] => none
  | none, b :: rest =>
    match begin b with
    | .complete c => (strictFrom none rest).map (c :: ·)
    | .partway p => strictFrom (some p) rest
    | .refused => none
  | some p, b :: rest =>
    match p.extend b with
    | .complete c => (strictFrom none rest).map (c :: ·)
    | .partway q => strictFrom (some q) rest
    | .refused => none

/-- The text of a byte sequence, with U+FFFD for each part that is not UTF-8. -/
def decodeLossy (bytes : List UInt8) : String := String.ofList (lossyFrom none bytes)

/-- The text of a byte sequence that is UTF-8 throughout. -/
def decode? (bytes : List UInt8) : Option String := (strictFrom none bytes).map String.ofList

/-- Where nothing has to be replaced, the two ways of decoding agree. -/
theorem lossyFrom_of_strictFrom {p : Option Progress} {bytes : List UInt8} {cs : List Char}
    (h : strictFrom p bytes = some cs) : lossyFrom p bytes = cs := by
  fun_induction strictFrom p bytes generalizing cs with
  | case1 => simpa [lossyFrom] using h
  | case2 => simp at h
  | case3 b rest c hb ih =>
    obtain ⟨ds, hd, rfl⟩ := Option.map_eq_some_iff.1 h
    simp [lossyFrom, hb, ih hd]
  | case4 b rest p hb ih => simpa [lossyFrom, hb] using ih h
  | case5 => simp at h
  | case6 p b rest c hb ih =>
    obtain ⟨ds, hd, rfl⟩ := Option.map_eq_some_iff.1 h
    simp [lossyFrom, hb, ih hd]
  | case7 p b rest q hb ih => simpa [lossyFrom, hb] using ih h
  | case8 => simp at h

theorem decodeLossy_of_decode? {bytes : List UInt8} {text : String}
    (h : decode? bytes = some text) : decodeLossy bytes = text := by
  obtain ⟨cs, hc, rfl⟩ := Option.map_eq_some_iff.1 h
  rw [decodeLossy, lossyFrom_of_strictFrom hc]

/-- The UTF-8 bytes of a text. -/
def encode (text : String) : List UInt8 := text.toUTF8.toList

end FileIndexing.Text.Utf8
