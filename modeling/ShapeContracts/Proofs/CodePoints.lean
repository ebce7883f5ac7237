import ShapeContracts.Unicode.Property

/-! Tables of runs of code points. Looking up a code point finds the run that it falls into: a run starts
behind all runs before it, so the starts rise, and the search ends at the last start that is not above the
code point. -/
namespace ShapeContracts.Unicode

def runsOf (rows : List String) : List (List Char) := rows.flatMap (fun row => words row.toList)

theorem runsAppend (rows more : List String) : runsOf (rows ++ more) = runsOf rows ++ runsOf more :=
  List.flatMap_append

theorem runsCons (row : String) (rows : List String) : runsOf (row :: rows) = words row.toList ++ runsOf rows :=
  List.flatMap_cons

def runLength (width : Nat) (run : List Char) : Nat := hexValue (run.drop width)

def extent (width : Nat) : List (List Char) → Nat
  | [] => 0
  | run :: runs => runLength width run + extent width runs

theorem extentAppend (width : Nat) (runs more : List (List Char)) :
    extent width (runs ++ more) = extent width runs + extent width more := by
  induction runs with
  | nil => rw [List.nil_append, extent, Nat.zero_add]
  | cons run runs ih => rw [List.cons_append, extent, extent, ih, Nat.add_assoc]

def entries (width : Nat) : Nat → List (List Char) → List (Nat × String)
  | _, [] => []
  | first, run :: runs => (first, String.ofList (run.take width)) :: entries width (first + runLength width run) runs

theorem tableEntries (width : Nat) (rows : List String) :
    (table width rows).toList = entries width 0 (runsOf rows) := by
  have step : ∀ (runs : List (List Char)) (first : Nat) (made : Array (Nat × String)),
      (runs.foldl (fun (acc : Nat × Array (Nat × String)) run =>
        (acc.1 + hexValue (run.drop width), acc.2.push (acc.1, String.ofList (run.take width))))
        (first, made)).2.toList = made.toList ++ entries width first runs := by
    intro runs
    induction runs with
    | nil => simp [entries]
    | cons run runs ih => intro first made; simp [ih, entries, runLength]
  exact step (runsOf rows) 0 #[]

theorem entryAt (width first : Nat) (before : List (List Char)) (run : List Char) (after : List (List Char)) :
    (entries width first (before ++ run :: after))[before.length]? =
      some (first + extent width before, String.ofList (run.take width)) := by
  induction before generalizing first with
  | nil => rfl
  | cons earlier before ih =>
    rw [List.cons_append, entries, List.length_cons, List.getElem?_cons_succ, ih, extent, Nat.add_assoc]

theorem entriesLength (width first : Nat) (runs : List (List Char)) :
    (entries width first runs).length = runs.length := by
  induction runs generalizing first with
  | nil => rfl
  | cons run runs ih => rw [entries, List.length_cons, ih, List.length_cons]

theorem startAt {width : Nat} {runs : List (List Char)} {i : Nat} (inside : i < runs.length) :
    ((entries width 0 runs).getD i (0, "")).1 = extent width (runs.take i) := by
  have split : runs = runs.take i ++ runs[i] :: runs.drop (i + 1) := by simp
  have length : (runs.take i).length = i := List.length_take_of_le (Nat.le_of_lt inside)
  have entry := entryAt width 0 (runs.take i) runs[i] (runs.drop (i + 1))
  rw [← split, length] at entry
  rw [List.getD_eq_getElem?_getD, entry, Option.getD_some, Nat.zero_add]

theorem extentTake (width : Nat) (runs : List (List Char)) {i j : Nat} (order : i ≤ j) :
    extent width (runs.take i) ≤ extent width (runs.take j) := by
  obtain ⟨more, same⟩ : ∃ more, runs.take j = runs.take i ++ more := by
    obtain ⟨k, rfl⟩ := Nat.exists_eq_add_of_le order
    exact ⟨_, List.take_add⟩
  rw [same, extentAppend]
  exact Nat.le_add_right _ _

theorem floorIndexFound {t : Array (Nat × String)} {n lo hi i : Nat} (above : lo ≤ i) (below : i < hi)
    (early : ∀ j, j ≤ i → (t.getD j (0, "")).1 ≤ n) (late : ∀ j, i < j → j < hi → n < (t.getD j (0, "")).1) :
    floorIndex t n lo hi = i := by
  fun_induction floorIndex t n lo hi with
  | case1 lo hi room mid reached ih =>
    have notBeyond : mid ≤ i := by
      rcases Nat.lt_or_ge i mid with beyond | order
      · exact absurd (late mid beyond (by omega)) (Nat.not_lt.mpr reached)
      · exact order
    exact ih notBeyond below late
  | case2 lo hi room mid unreached ih =>
    have before : i < mid := by
      rcases Nat.lt_or_ge i mid with order | behind
      · exact order
      · exact absurd (early mid behind) unreached
    exact ih above before (fun j after inside => late j after (by omega))
  | case3 lo hi room => omega

theorem codeOfRun {width n : Nat} {rows : List String} {before after : List (List Char)} {run : List Char}
    (runs : runsOf rows = before ++ run :: after) (reached : extent width before ≤ n)
    (inside : n < extent width before + runLength width run) :
    codeAt (table width rows) n = String.ofList (run.take width) := by
  have listed := tableEntries width rows
  have size : (table width rows).size = (runsOf rows).length := by
    rw [← Array.length_toList, listed, entriesLength]
  have entry : ∀ j, (table width rows).getD j (0, "") = (entries width 0 (runsOf rows)).getD j (0, "") := by
    intro j
    rw [← listed, Array.getD_eq_getD_getElem?, List.getD_eq_getElem?_getD, Array.getElem?_toList]
  have length : (runsOf rows).length = before.length + (after.length + 1) := by
    rw [runs, List.length_append, List.length_cons]
  have upTo : (runsOf rows).take before.length = before := by rw [runs, List.take_left]
  have found : floorIndex (table width rows) n 0 (table width rows).size = before.length := by
    refine floorIndexFound (Nat.zero_le _) (by omega) ?_ ?_
    · intro j order
      rw [entry, startAt (by omega)]
      have rises := extentTake width (runsOf rows) order
      rw [upTo] at rises
      omega
    · intro j order limit
      rw [entry, startAt (by omega)]
      have rises := extentTake width (runsOf rows) (Nat.succ_le_of_lt order)
      have next : (runsOf rows).take (before.length + 1) = before ++ [run] := by
        rw [runs, List.take_length_add_append]
        rfl
      rw [next, extentAppend, extent, extent] at rises
      omega
  rw [codeAt, found, entry, runs, List.getD_eq_getElem?_getD, entryAt, Option.getD_some]

set_option maxRecDepth 10000 in
theorem arabicDigits : ∃ before after, runsOf categoryRows = before ++ "Nda".toList :: after ∧
    extent 2 before = 0x660 := by
  have earlier : extent 2 (runsOf (categoryRows.take 29)) = 1563 := by
    simp only [categoryRows, List.take_succ_cons, List.take_zero, runsOf, List.flatMap_cons, List.flatMap_nil]
    repeat rw [String.toList_ofList]
    decide +kernel
  have row : ∃ early late, words (categoryRows.getD 29 "").toList = early ++ "Nda".toList :: late ∧
      extent 2 early = 69 := by
    refine ⟨(words (categoryRows.getD 29 "").toList).take 7, (words (categoryRows.getD 29 "").toList).drop 8, ?_⟩
    simp only [categoryRows, List.getD_cons_succ, List.getD_cons_zero]
    repeat rw [String.toList_ofList]
    decide +kernel
  obtain ⟨early, late, row, start⟩ := row
  have rows : categoryRows = categoryRows.take 29 ++ categoryRows.getD 29 "" :: categoryRows.drop 30 := rfl
  refine ⟨runsOf (categoryRows.take 29) ++ early, late ++ runsOf (categoryRows.drop 30), ?_, ?_⟩
  · refine (congrArg runsOf rows).trans ?_
    simp only [runsAppend, runsCons, row, List.append_assoc, List.cons_append]
  · rw [extentAppend, earlier, start]

theorem arabicFour : isDecimalDigit '٤' = true := by
  obtain ⟨before, after, runs, start⟩ := arabicDigits
  have code : codeAt categoryTable '٤'.toNat = "Nd" :=
    codeOfRun runs (by rw [start]; decide) (by rw [start]; decide)
  rw [isDecimalDigit, if_neg (by decide), category, code]
  rfl

end ShapeContracts.Unicode
