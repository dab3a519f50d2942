import FsImage.Find.Fnmatch

/-! The walk of `find -P start ( -path q1 -o … -o -path qk ) -prune -o -printf '%y %p\0'`.

A file tree is a list of entries with byte-string names. `find` visits an
entry before its children and tests the patterns against the path it built
for it: the starting point as given, then a `/` and a name per level. A
matching entry is pruned, so nothing is printed for it and it is not entered;
any other entry has its record printed. With `-P` a symlink is never
followed, so it is a leaf here. Children come in the order of the list, the
order in which the directory lists them.

The starting point itself is found by the kernel, which follows the symlinks
on the way to it but, with `-P`, not the last name. What lies outside the
tree, where an absolute link or a `..` above the top leads, is not modelled.
-/

set_option autoImplicit false

namespace FsImage.Find

open FsImage.Python

/-- The kinds of non-directory that `%y` tells apart; a symlink holds the
bytes of its target. -/
inductive LeafType where
  | blockDevice
  | charDevice
  | fifo
  | regular
  | symlink (target : Bytes)
  | socket
  deriving DecidableEq, Repr

/-- The letter `%y` prints. -/
def LeafType.letter : LeafType → Char
  | .blockDevice => 'b'
  | .charDevice => 'c'
  | .fifo => 'p'
  | .regular => 'f'
  | .symlink _ => 'l'
  | .socket => 's'

/-- An entry of a file tree: a directory with its entries, or another file. -/
inductive Entry where
  | dir (name : Bytes) (children : List Entry)
  | leaf (name : Bytes) (type : LeafType)
  deriving Repr

def Entry.name : Entry → Bytes
  | .dir name _ => name
  | .leaf name _ => name

/-- The entries of a directory; none for another file. -/
def Entry.children : Entry → List Entry
  | .dir _ children => children
  | .leaf _ _ => []

/-! ## The starting point -/

/-- Where the kernel's walk of a path ends: at an entry; at nothing, where a
name is missing, a non-directory would be entered, a link is empty or too
many links are followed (`find` then fails); or outside the tree. -/
inductive Walk (ε : Type) where
  | found (entry : ε)
  | missing
  | outside
  deriving DecidableEq, Repr

def Walk.map {ε ε' : Type} (f : ε → ε') : Walk ε → Walk ε'
  | .found entry => .found (f entry)
  | .missing => .missing
  | .outside => .outside

/-- The entry a walk ends at, if any. -/
def Walk.entry? {ε : Type} : Walk ε → Option ε
  | .found entry => some entry
  | _ => none

/-- What the kernel's walk does at an entry it found with names still to
read: it enters a directory, reads a link's target, and fails at another
file. An empty target is missing; an absolute one leads outside the tree. -/
def enterEntry (descend : Entry → Walk Entry) (follow : List Bytes → Walk Entry) : Entry → Walk Entry
  | .dir dirName children => descend (.dir dirName children)
  | .leaf _ type =>
    match type with
    | .symlink target =>
      if target = [] then .missing else if target.head? = some 47 then .outside else follow (split 47 target)
    | _ => .missing

/-- The kernel's walk of the names of a path, through the entries `root` of
the top directory, from the directories `up` entered so far, innermost first.
An empty name and `.` stay, `..` climbs, a name descends into a directory,
and a link met before the last name is read by `follow`, its target's names
put before the rest; a relative target is read from the link's directory.
The last name is not followed: `find -P` reads its starting point itself. -/
def walkNames (root : List Entry) (follow : List Entry → List Bytes → Walk Entry) :
    List Entry → List Bytes → Walk Entry
  | up, [] => .found (up.head?.getD (.dir [] root))
  | up, name :: rest =>
    if name = [] ∨ name = [46] then walkNames root follow up rest
    else if name = [46, 46] then (if up.isEmpty then .outside else walkNames root follow up.tail rest)
    else
      match ((up.head?.map Entry.children).getD root).find? (·.name == name) with
      | none => .missing
      | some entry =>
        if rest = [] then .found entry
        else enterEntry (fun dir => walkNames root follow (dir :: up) rest) (fun target => follow up (target ++ rest)) entry

/-- The walk that follows at most `links` links; one more fails with `ELOOP`. -/
def walkLinks (root : List Entry) : Nat → List Entry → List Bytes → Walk Entry
  | 0 => walkNames root fun _ _ => .missing
  | links + 1 => walkNames root (walkLinks root links)

/-- How many links the kernel follows in one walk, `MAXSYMLINKS`. -/
def maxSymlinks : Nat := 40

/-- Where the walk of a path of names from the top directory ends. -/
def startAt (root : List Entry) (path : List Bytes) : Walk Entry := walkLinks root maxSymlinks [] path

/-- One record of `-printf '%y %p\0'`. -/
def printfRecord (letter : Char) (path : Bytes) : Bytes := ascii letter :: ascii ' ' :: path ++ [0]

/-- `( -path q1 -o … -o -path qk )` of a path. -/
def pathMatches (patterns : List Bytes) (path : Bytes) : Bool := patterns.any (fnmatch · path)

mutual

/-- The output below an entry that `find` reached as `path`. -/
def findEntry (patterns : List Bytes) (path : Bytes) : Entry → Bytes
  | .leaf _ type => if pathMatches patterns path then [] else printfRecord type.letter path
  | .dir _ children =>
    if pathMatches patterns path then [] else printfRecord 'd' path ++ findChildren patterns path children

/-- The output below the entries of the directory reached as `path`. -/
def findChildren (patterns : List Bytes) (path : Bytes) : List Entry → Bytes
  | [] => []
  | entry :: rest => findEntry patterns (path ++ ascii '/' :: entry.name) entry ++ findChildren patterns path rest

end

/-! ## The records of the walk -/

mutual

/-- The records `find` prints below an entry reached as `path`: the type
letter and the path of each entry it visits, in the order it prints them. -/
def visitEntry (patterns : List Bytes) (path : Bytes) : Entry → List (Char × Bytes)
  | .leaf _ type => if pathMatches patterns path then [] else [(type.letter, path)]
  | .dir _ children =>
    if pathMatches patterns path then [] else ('d', path) :: visitChildren patterns path children

def visitChildren (patterns : List Bytes) (path : Bytes) : List Entry → List (Char × Bytes)
  | [] => []
  | entry :: rest => visitEntry patterns (path ++ ascii '/' :: entry.name) entry ++ visitChildren patterns path rest

end

mutual

/-- The output of `find` is its records, each printed by `%y %p\0`. -/
theorem findEntry_eq_records (patterns : List Bytes) (path : Bytes) : (entry : Entry) →
    findEntry patterns path entry = ((visitEntry patterns path entry).map fun r => printfRecord r.1 r.2).flatten
  | .leaf _ type => by
    rw [findEntry, visitEntry]
    split <;> simp
  | .dir _ children => by
    rw [findEntry, visitEntry]
    split
    · rfl
    · simp [findChildren_eq_records patterns path children]

theorem findChildren_eq_records (patterns : List Bytes) (path : Bytes) : (entries : List Entry) →
    findChildren patterns path entries =
      ((visitChildren patterns path entries).map fun r => printfRecord r.1 r.2).flatten
  | [] => rfl
  | entry :: rest => by
    rw [findChildren, visitChildren, findEntry_eq_records, findChildren_eq_records patterns path rest]
    simp

end

end FsImage.Find
