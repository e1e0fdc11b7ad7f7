/-
# Files that cannot be read

The operating system numbers the reasons why a file cannot be read, and has
words for each (`FileFault.message`).

Key definitions: `FileFault`, `FileFault.ofCode`, `FileFault.message`.
-/
namespace CapturePace

/-- Why a file cannot be read. -/
inductive FileFault where
  /-- The name holds the character that ends names. -/
  | nulInside
  | notFound
  | notPermitted
  /-- A file stands where the name has a folder. -/
  | notFolder
  /-- The name is one of a folder. -/
  | isFolder
  | nameTooLong
  /-- A reason with another number, in given words. -/
  | other (code : Nat) (words : String)
  deriving DecidableEq, Repr

namespace FileFault

/-- The reason with a given number; `words` describe it if it has no name here. -/
def ofCode (code : Nat) (words : String) : FileFault :=
  if code = 2 then .notFound
  else if code = 13 then .notPermitted
  else if code = 20 then .notFolder
  else if code = 21 then .isFolder
  else if code = 36 then .nameTooLong
  else .other code words

/-- Words on a numbered reason. -/
def numbered (words : String) (code : Nat) : String :=
  words ++ " (os error " ++ toString code ++ ")"

/-- The wording of a file fault. -/
def message : FileFault → String
  | .nulInside => "file name contained an unexpected NUL byte"
  | .notFound => numbered "No such file or directory" 2
  | .notPermitted => numbered "Permission denied" 13
  | .notFolder => numbered "Not a directory" 20
  | .isFolder => numbered "Is a directory" 21
  | .nameTooLong => numbered "File name too long" 36
  | .other code words => numbered words code

end FileFault
end CapturePace
