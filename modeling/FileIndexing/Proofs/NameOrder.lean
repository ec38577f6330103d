import FileIndexing.Id
import Mathlib.Tactic.SplitIfs

/-!
# The order of names

Names are compared code point by code point, and that is the order of their UTF-8 bytes.  The
encoding of a greater code point is greater at the first byte at which the two encodings differ,
whatever follows them (`encodeChar_lt`), so that lists of code points are in the order of their
encodings (`flatMap_encodeChar_lt`).
-/

namespace FileIndexing

/-- The name of an index in UTF-8. -/
def IndexId.bytes (index : IndexId) : List UInt8 := index.name.toUTF8.data.toList

/-- The encoding of a greater code point is greater, whatever follows. -/
theorem encodeChar_lt {c d : Char} (h : c < d) (u v : List UInt8) :
    String.utf8EncodeChar c ++ u < String.utf8EncodeChar d ++ v := by
  have hlt : c.val.toNat < d.val.toNat := h
  have hvalid : d.val.toNat < 0x110000 := by
    rcases d.valid with hlow | ⟨-, hhigh⟩
    · exact Nat.lt_trans hlow (by decide)
    · exact hhigh
  unfold String.utf8EncodeChar
  generalize c.val.toNat = m at hlt ⊢
  generalize d.val.toNat = n at hlt hvalid ⊢
  -- A case for each pair of lengths; the first bytes differ unless the lengths are the same.
  dsimp only
  split_ifs
  all_goals
    simp only [List.cons_append, List.nil_append, List.cons_lt_cons_iff, UInt8.lt_iff_toNat_lt,
      ← UInt8.toNat_inj, UInt8.toNat_ofNat']
    simp (disch := omega) only [Nat.mod_eq_of_lt]
    omega

/-- So is the encoding of a greater list of code points. -/
theorem flatMap_encodeChar_lt {l m : List Char} (h : l < m) :
    l.flatMap String.utf8EncodeChar < m.flatMap String.utf8EncodeChar := by
  induction l generalizing m with
  | nil =>
    cases m with
    | nil => exact absurd h (List.not_lt_nil _)
    | cons d rest =>
      have hfirst : String.utf8EncodeChar d ≠ [] := String.utf8EncodeChar_ne_nil
      obtain ⟨byte, bytes, hencode⟩ := List.exists_cons_of_ne_nil hfirst
      rw [List.flatMap_cons, hencode]
      exact List.nil_lt_cons _ _
  | cons c rest ih =>
    cases m with
    | nil => exact absurd h (List.not_lt_nil _)
    | cons d rest' =>
      rw [List.flatMap_cons, List.flatMap_cons]
      obtain hlt | ⟨rfl, hrest⟩ := List.cons_lt_cons_iff.1 h
      · exact encodeChar_lt hlt _ _
      · exact List.append_left_lt (ih hrest)

namespace IndexId

theorem bytes_eq (index : IndexId) :
    index.bytes = index.name.toList.flatMap String.utf8EncodeChar := by
  rw [bytes, String.toUTF8, ← String.utf8Encode_toList, List.utf8Encode, List.data_toByteArray]

/-- A name that comes before another one does so in UTF-8 as well. -/
theorem bytes_lt_of_compare {a b : IndexId} (h : compare a b = .lt) : a.bytes < b.bytes := by
  rw [compare_eq] at h
  have hlt : a.name < b.name := compareOfLessAndEq_eq_lt.1 h
  rw [bytes_eq, bytes_eq]
  exact flatMap_encodeChar_lt hlt

end IndexId

end FileIndexing
