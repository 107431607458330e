import Mathlib.Data.List.AList

/-! # The files of one directory

The regular files of a directory by name, and the outcomes that writing one of them can have. -/

namespace Ironpulse.Storage

/-- The regular files of a directory: their names, each once, and their bytes. -/
abbrev Files := AList fun _ : String => List UInt8

/-- How opening a file for appending and writing to it can end. -/
inductive WriteOutcome where
  | ok
  /-- The file could not be opened; nothing changes. -/
  | openFailed
  /-- The write failed after `written` bytes. -/
  | writeFailed (written : Nat)
  deriving DecidableEq

/-- The bytes that reach the file. -/
def WriteOutcome.written : WriteOutcome → List UInt8 → List UInt8
  | .ok, bytes => bytes
  | .openFailed, _ => []
  | .writeFailed written, bytes => bytes.take written

/-- Of nothing nothing is written. -/
@[simp] theorem WriteOutcome.written_nil (outcome : WriteOutcome) : outcome.written [] = [] := by
  cases outcome with
  | ok => rfl
  | openFailed => rfl
  | writeFailed written => exact List.take_nil

/-- How writing to an open file and flushing it can end. -/
inductive FlushOutcome where
  | flushed
  /-- It failed after `written` bytes had reached the file. -/
  | failed (written : Nat)
  deriving DecidableEq

namespace Files

/-- The bytes of a file, none if it does not exist. -/
def content (files : Files) (name : String) : List UInt8 := (files.lookup name).getD []

/-- Opens a file with `std::ios::app`, creating it if needed, and writes `bytes`. -/
def append (files : Files) (outcome : WriteOutcome) (name : String) (bytes : List UInt8) : Files :=
  match outcome with
  | .ok => files.insert name (files.content name ++ bytes)
  | .openFailed => files
  | .writeFailed written => files.insert name (files.content name ++ bytes.take written)

/-- Renames a file over whatever has the new name; nothing happens if it does not exist. -/
def rename (files : Files) (name new_name : String) : Files :=
  match files.lookup name with
  | none => files
  | some bytes => (files.erase name).insert new_name bytes

/-- A file that does not exist reads as an empty one. -/
theorem content_of_not_mem {files : Files} {name : String} (h : name ∉ files.keys) :
    files.content name = [] := by
  rw [content, AList.lookup_eq_none.mpr fun hmem => h (AList.mem_keys.mp hmem), Option.getD_none]

/-- A file has what was put into it. -/
@[simp] theorem content_insert (files : Files) (name : String) (bytes : List UInt8) :
    content (files.insert name bytes) name = bytes := by
  rw [content, AList.lookup_insert, Option.getD_some]

/-- Putting a file changes no other one. -/
theorem content_insert_of_ne {files : Files} {name other : String} {bytes : List UInt8}
    (h : other ≠ name) : content (files.insert name bytes) other = content files other := by
  rw [content, AList.lookup_insert_ne h, content]

/-- Removing a file changes no other one. -/
theorem content_erase_of_ne {files : Files} {name other : String} (h : other ≠ name) :
    content (files.erase name) other = content files other := by
  rw [content, AList.lookup_erase_ne h, content]

/-- Appending puts the bytes behind what is there. -/
@[simp] theorem content_append_ok (files : Files) (name : String) (bytes : List UInt8) :
    content (append files .ok name bytes) name = content files name ++ bytes :=
  content_insert files name _

/-- What appending adds to a file, however it ends. -/
theorem content_append (files : Files) (outcome : WriteOutcome) (name : String)
    (bytes : List UInt8) :
    content (append files outcome name bytes) name =
      content files name ++ outcome.written bytes := by
  cases outcome with
  | ok => exact content_append_ok files name bytes
  | openFailed => exact (List.append_nil _).symm
  | writeFailed written => exact content_insert files name _

/-- Appending changes no other file. -/
theorem content_append_of_ne {files : Files} {outcome : WriteOutcome} {name other : String}
    {bytes : List UInt8} (h : other ≠ name) :
    content (append files outcome name bytes) other = content files other := by
  cases outcome with
  | ok => exact content_insert_of_ne h
  | openFailed => rfl
  | writeFailed written => exact content_insert_of_ne h

/-- Renaming leaves the files with other names alone. -/
theorem lookup_rename_of_ne {files : Files} {name new_name other : String} (h : other ≠ name)
    (hnew : other ≠ new_name) :
    (files.rename name new_name).lookup other = files.lookup other := by
  unfold Files.rename
  split
  · rfl
  · rw [AList.lookup_insert_ne hnew, AList.lookup_erase_ne h]

end Files

/-- `path::extension()` of a file name: from the last dot on, unless the name starts with it. -/
def extension (name : String) : String :=
  let chars := name.toList
  let suffix := (chars.reverse.takeWhile (· ≠ '.')).reverse
  if name = ".." ∨ chars.length ≤ suffix.length + 1 then "" else String.ofList ('.' :: suffix)

example : extension "sensor_x.wal" = ".wal" ∧ extension ".wal" = "" ∧
    extension "a.wal.tmp" = ".tmp" := by decide

/-- The extension is what a name ends with after its last dot, the dot included. -/
theorem extension_append {stem suffix : List Char} (hstem : stem ≠ []) (hsuffix : suffix ≠ [])
    (hdot : '.' ∉ suffix) :
    extension (String.ofList (stem ++ '.' :: suffix)) = String.ofList ('.' :: suffix) := by
  have hlast : ((stem ++ '.' :: suffix).reverse.takeWhile (· ≠ '.')).reverse = suffix := by
    have hnot : ∀ c ∈ suffix.reverse, decide (c ≠ '.') = true := by
      intro c hc
      refine decide_eq_true fun heq => hdot ?_
      rwa [heq, List.mem_reverse] at hc
    rw [List.reverse_append, List.reverse_cons, List.append_assoc, List.takeWhile_append_of_pos hnot,
      List.singleton_append, List.takeWhile_cons_of_neg (by decide), List.append_nil,
      List.reverse_reverse]
  have hlong : ¬ (String.ofList (stem ++ '.' :: suffix) = ".." ∨
      (stem ++ '.' :: suffix).length ≤ suffix.length + 1) := by
    have hpos := List.length_pos_of_ne_nil hstem
    rintro (heq | hle)
    · -- a character before the dot and one after it
      have hlength := congrArg (fun name : String => name.toList.length) heq
      have hpos' := List.length_pos_of_ne_nil hsuffix
      simp only [String.toList_ofList, List.length_append, List.length_cons] at hlength
      have htwo : "..".toList.length = 2 := rfl
      omega
    · rw [List.length_append, List.length_cons] at hle
      omega
  unfold extension
  simp only [String.toList_ofList, hlast]
  rw [if_neg hlong]

end Ironpulse.Storage
