/-!
Runs of code points with what is said of them, and tables of runs. A table is written as lines of
entries with blanks between them; the numbers of an entry are hexadecimal, with commas between them.
Its runs stand in ascending order and are found by halving.
-/

set_option autoImplicit false
set_option relaxedAutoImplicit false

namespace RuleMarshal.Text

/-- Code points from the first to the last one, with numbers that say something of them. -/
structure Run where
  first : Nat
  last : Nat
  content : List Nat := []

/-- The number that hexadecimal digits write. -/
def hexadecimal (digits : String) : Nat :=
  digits.toList.foldl
    (fun n c ↦ 16 * n + if c.isDigit then c.toNat - '0'.toNat else c.toNat - 'a'.toNat + 10) 0

namespace Run

/-- The run of an entry that gives both ends. -/
def ofEnds? : List Nat → Option Run
  | first :: last :: content => some { first, last, content }
  | _ => none

/-- The run of an entry that gives a single code point. -/
def ofPoint? : List Nat → Option Run
  | point :: content => some { first := point, last := point, content }
  | [] => none

/-- The runs of a table that is written in lines, each entry read as it is said. -/
def table (read : List Nat → Option Run) (lines : List String) : Array Run :=
  (lines.flatMap fun line ↦ (line.splitOn " ").filterMap fun entry ↦
    read ((entry.splitOn ",").map hexadecimal)).toArray

/-- The run that holds a code point among those with an index in `[low, high)`, by halving at most
the given number of times. -/
def findBetween (runs : Array Run) (point : Nat) : Nat → Nat → Nat → Option Run
  | 0, _, _ => none
  | steps + 1, low, high =>
    if low < high then
      let middle := (low + high) / 2
      match runs[middle]? with
      | none => none
      | some r =>
        if point < r.first then findBetween runs point steps low middle
        else if r.last < point then findBetween runs point steps (middle + 1) high
        else some r
    else none

/-- The run of a table that holds a code point. -/
def find? (runs : Array Run) (point : Nat) : Option Run :=
  findBetween runs point runs.size 0 runs.size

end Run

end RuleMarshal.Text
