import PatternAlgebra.Text.Digits

/-!
# Test cases

A case is an input with the answer expected of it. Cases that are kept in a table have each input
once: at the place where it came first, with the answer that came last. A table of properties also
lists inputs that are indices before all others, by their value. A list of pairs keeps every case
where it was put.
-/

namespace PatternAlgebra

/-- Inputs with the answers expected of them. -/
abbrev Cases := List (Text × Bool)

/-- The greatest number of entries that an index can point into. -/
def indexLimit : Nat := 0xFFFFFFFF

/-- The index that a text is: a number below the limit without leading zeros. -/
def index? (t : Text) : Option Nat :=
  match number? t with
  | some (n, []) => if n < indexLimit ∧ (t.head? = some 0x30 → t.length = 1) then some n else none
  | _ => none

namespace Cases

/-- Sets the answer expected of an input, at its place or else at the end. -/
def set (input : Text) (expected : Bool) : Cases → Cases
  | [] => [(input, expected)]
  | (i, e) :: rest =>
    if i = input then (input, expected) :: rest else (i, e) :: set input expected rest

/-- Cases in a table: every input once. -/
def ofTable (pairs : Cases) : Cases :=
  pairs.foldl (fun cases pair => cases.set pair.1 pair.2) []

/-- Whether the index of one case is at most that of another. -/
def indexAtMost (a b : Text × Bool) : Bool := (index? a.1).getD 0 ≤ (index? b.1).getD 0

/-- Cases in a table of properties: indices first, in ascending order. -/
def ofProperties (pairs : Cases) : Cases :=
  let cases := ofTable pairs
  let indexed := cases.filter (fun c => (index? c.1).isSome)
  let others := cases.filter (fun c => (index? c.1).isNone)
  indexed.mergeSort indexAtMost ++ others

end Cases

/-- What cases are handed over in, with the pairs that were put into it one after another. -/
inductive Container where
  | pairs (given : Cases)
  | table (given : Cases)
  | properties (given : Cases)
  deriving DecidableEq

namespace Container

/-- The pairs that were put into a container. -/
def given : Container → Cases
  | pairs given | table given | properties given => given

/-- The cases of a container in the order in which they are run. Pairs and tables can be gone through
as they are; of properties the entries are listed. -/
def entries : Container → Cases
  | pairs given => given
  | table given => .ofTable given
  | properties given => .ofProperties given

end Container

end PatternAlgebra
