/-!
# Paths

A volume is one directory of files, so a path leads to a file only if it steps in place before it
names the file. Names and paths have a largest size, and no name holds the zero character.
-/
namespace RowStore.Path

/-- The parts of a path between its slashes. -/
def parts : List Char → List (List Char)
  | [] => [[]]
  | c :: rest =>
    if c = '/' then [] :: parts rest
    else match parts rest with
      | [] => [[c]]
      | part :: others => (c :: part) :: others

/-- The part leaves the path where it is. -/
def staysInPlace (part : List Char) : Bool := part = [] || part = ['.']

/-- The most bytes of a file's name. -/
def maxNameSize : Nat := 255

/-- The most bytes of a path. -/
def maxPathSize : Nat := 4095

/-- A file may have the name: it is no step in place or upwards, has no zero character and is not
too long. -/
def isFileName (name : List Char) : Bool :=
  !staysInPlace name && name != ['.', '.'] && !name.contains '\x00' &&
    (String.ofList name).utf8ByteSize ≤ maxNameSize

/-- The one name of the file that a path leads to. The volume has no directories below it, so the
path may only step in place before it names the file, and it starts here. -/
def resolve? (path : String) : Option String :=
  match (parts path.toList).reverse with
  | [] => none
  | name :: steps =>
    if steps.getLast? = some [] then none
    else if steps.all staysInPlace && isFileName name && path.utf8ByteSize ≤ maxPathSize then
      some (String.ofList name)
    else none

end RowStore.Path
