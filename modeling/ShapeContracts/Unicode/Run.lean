/-!
Values of consecutive code points, written as runs: a short code and the length of the run in
hexadecimal. The code points of all runs follow each other from zero.
-/
namespace ShapeContracts.Unicode

def hexValue (cs : List Char) : Nat :=
  cs.foldl (fun n c => n * 16 + (if c.isDigit then c.toNat - 48 else c.toNat - 87)) 0

def words (row : List Char) : List (List Char) :=
  row.foldr (fun c acc =>
    if c = ' ' then [] :: acc else
    match acc with
    | [] => [[c]]
    | w :: ws => (c :: w) :: ws) [[]]

/-- A table from rows of runs whose codes have `width` letters: where each run starts, and its code. -/
def table (width : Nat) (rows : List String) : Array (Nat × String) :=
  let runs := rows.flatMap (fun row => words row.toList)
  (runs.foldl (fun (acc : Nat × Array (Nat × String)) run =>
    (acc.1 + hexValue (run.drop width), acc.2.push (acc.1, String.ofList (run.take width))))
    (0, #[])).2

def floorIndex (t : Array (Nat × String)) (n lo hi : Nat) : Nat :=
  if lo + 1 < hi then
    let mid := (lo + hi) / 2
    if (t.getD mid (0, "")).1 ≤ n then floorIndex t n mid hi else floorIndex t n lo mid
  else lo
termination_by hi - lo
decreasing_by all_goals omega

def codeAt (t : Array (Nat × String)) (n : Nat) : String :=
  (t.getD (floorIndex t n 0 t.size) (0, "")).2

def inRanges (ranges : List (Nat × Nat)) (n : Nat) : Bool :=
  ranges.any (fun r => r.1 ≤ n && n ≤ r.2)

end ShapeContracts.Unicode
