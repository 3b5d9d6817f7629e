/-!
The order of versions. A version is a release, numbers parted by points, and perhaps a
pre-release after a hyphen. Releases compare number by number, and a release comes after all of
its pre-releases.
-/

namespace SnippetLens.Toolchain

/-- The parts of a text between the characters of a class. -/
def splitAt (separates : Char → Bool) (cs : List Char) : List (List Char) :=
  match cs with
  | [] => [[]]
  | c :: r =>
    if separates c then [] :: splitAt separates r
    else
      match splitAt separates r with
      | [] => [[c]]
      | part :: parts => (c :: part) :: parts

/-- The number that the digits `0` to `9` of a part spell, one after another. A part without
digits, and a number of 64 bits or more, count as zero. -/
def partNumber (part : List Char) : Nat :=
  let digits := part.filter fun c => '0' ≤ c && c ≤ '9'
  let n := digits.foldl (fun n c => 10 * n + (c.toNat - '0'.toNat)) 0
  if n < UInt64.size then n else 0

structure VersionKey where
  release : List Nat
  /-- Whether this is the release itself and no pre-release. -/
  isRelease : Bool
  preRelease : List Nat
  deriving DecidableEq, Repr

namespace VersionKey

def ofName (name : String) : VersionKey :=
  let cs := name.toList
  let release := (splitAt (· = '.') (cs.takeWhile (· ≠ '-'))).map partNumber
  match cs.dropWhile (· ≠ '-') with
  | [] => ⟨release, true, []⟩
  | _ :: rest => ⟨release, false, (splitAt (fun c => c = '.' || c = '-') rest).map partNumber⟩

/-- The order of lists of numbers: by the first place where they differ, and a beginning of a
list before the list. -/
def compareNumbers : List Nat → List Nat → Ordering
  | [], [] => .eq
  | [], _ :: _ => .lt
  | _ :: _, [] => .gt
  | a :: as, b :: bs => (compare a b).then (compareNumbers as bs)

def compareTo (a b : VersionKey) : Ordering :=
  (compareNumbers a.release b.release).then
    ((compare a.isRelease.toNat b.isRelease.toNat).then
      (compareNumbers a.preRelease b.preRelease))

end VersionKey

/-- The last entry that no other entry exceeds. -/
def greatest? (key : α → VersionKey) (entries : List α) : Option α :=
  entries.foldl (fun best entry =>
    match best with
    | none => some entry
    | some b => if (key entry).compareTo (key b) = .lt then some b else some entry) none

end SnippetLens.Toolchain
