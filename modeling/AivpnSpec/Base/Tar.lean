import Mathlib.Data.List.Basic

/-!
# Tar archives

An archive as the list of its raw entries. A header has room for a name of 100 bytes; a longer one
goes before the entry, into an entry of its own, and the header keeps what fits.
-/

namespace AivpnSpec.Base

open List

/-- The kinds of entries that matter. -/
inductive TarKind where
  | regular
  | longName
  | other
  deriving DecidableEq

/-- A raw entry. -/
structure TarEntry where
  kind : TarKind
  path : List Char
  data : List UInt8
  deriving DecidableEq

namespace TarEntry

def encodeName (path : List Char) : List UInt8 := path.flatMap String.utf8EncodeChar

def nameRoom : Nat := 100

/-- The longest beginning of a name that fits into the room left. -/
def fitName : (room : Nat) → List Char → List Char
  | _, [] => []
  | room, c :: rest => if c.utf8Size ≤ room then c :: fitName (room - c.utf8Size) rest else []

def appendData (path : List Char) (data : List UInt8) : List TarEntry :=
  if (encodeName path).length ≤ nameRoom then [⟨.regular, path, data⟩]
  else
    [⟨.longName, "././@LongLink".toList, encodeName path ++ [0]⟩,
      ⟨.regular, fitName nameRoom path, data⟩]

def archive (files : List (List Char × List UInt8)) : List TarEntry :=
  files.flatMap fun file => appendData file.1 file.2

variable {files : List (List Char × List UInt8)}

/-- Files with short names are stored as they are. -/
theorem archive_of_short (h : ∀ file ∈ files, (encodeName file.1).length ≤ nameRoom) :
    archive files = files.map fun file => ⟨.regular, file.1, file.2⟩ := by
  induction files with
  | nil => rfl
  | cons file rest ih =>
    have hfile := h file mem_cons_self
    have hrest := ih fun other hother => h other (mem_cons_of_mem _ hother)
    unfold archive at hrest ⊢
    rw [flatMap_cons, hrest, appendData, if_pos hfile]
    rfl

/-- A file with a long name leaves an entry that is not a file. -/
theorem exists_longName {file : List Char × List UInt8} (hmem : file ∈ files)
    (hlong : ¬(encodeName file.1).length ≤ nameRoom) :
    ∃ entry ∈ archive files, entry.kind ≠ .regular := by
  refine ⟨⟨.longName, "././@LongLink".toList, encodeName file.1 ++ [0]⟩, ?_, by simp⟩
  apply mem_flatMap.mpr
  refine ⟨file, hmem, ?_⟩
  rw [appendData, if_neg hlong]
  exact mem_cons_self

/-- A name of ASCII characters has as many bytes. -/
theorem length_encodeName {path : List Char} (h : ∀ c ∈ path, c.val ≤ 127) :
    (encodeName path).length = path.length := by
  induction path with
  | nil => rfl
  | cons c rest ih =>
    have hc : c.utf8Size = 1 := Char.utf8Size_eq_one_iff.mpr (h c mem_cons_self)
    have hrest := ih fun d hd => h d (mem_cons_of_mem _ hd)
    unfold encodeName at hrest ⊢
    rw [flatMap_cons, length_append, hrest, String.length_utf8EncodeChar, hc,
      length_cons]
    exact Nat.add_comm 1 _

end TarEntry

end AivpnSpec.Base
