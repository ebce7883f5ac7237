import ShapeContracts.FileKey

/-! Names, labels and module specifiers of files. The name of a file tells its key, since the kind of file
stands behind the last dot; so does its label, with colons; and so does the specifier by which a given
file imports it. -/
namespace ShapeContracts.FileKey

theorem lastSplit {x : α} {a b a' b' : List α} (last : x ∉ b) (last' : x ∉ b')
    (same : a ++ x :: b = a' ++ x :: b') : a = a' ∧ b = b' := by
  rcases List.append_eq_append_iff.mp same with ⟨between, longer, rest⟩ | ⟨between, longer, rest⟩
  · cases between with
    | nil => simp_all
    | cons y ys =>
      have here : x ∈ b := by
        rw [(List.cons.inj rest).2]
        simp
      contradiction
  · cases between with
    | nil => simp_all
    | cons y ys =>
      have here : x ∈ b' := by
        rw [(List.cons.inj rest).2]
        simp
      contradiction

theorem subDotless (s : SubFile) : '.' ∉ s.name.toList := by
  cases s <;> decide

theorem subColonless (s : SubFile) : ':' ∉ s.name.toList := by
  cases s <;> decide

theorem subNames {a b : SubFile} (same : a.name = b.name) : a = b := by
  have read := congrArg SubFile.ofName? same
  rw [SubFile.nameRead, SubFile.nameRead] at read
  exact Option.some.inj read

theorem keyCases (k : FileKey) : (∃ s, k = primary s) ∨ ∃ space s, k = shared space s := by
  obtain ⟨group, s⟩ := k
  cases group with
  | primary => exact .inl ⟨s, rfl⟩
  | shared space => exact .inr ⟨space, s, rfl⟩

theorem textTells (text : FileKey → String) {front outer back : List Char} {mark : Char}
    (unmarked : ∀ s : SubFile, mark ∉ s.name.toList)
    (primaries : ∀ s, (text (primary s)).toList = front ++ s.name.toList ++ back)
    (shareds : ∀ space s, (text (shared space s)).toList = outer ++ space.toList ++ mark :: s.name.toList ++ back)
    (apart : ∀ space (s s' : SubFile), front ++ s'.name.toList ≠ outer ++ String.toList space ++ mark :: s.name.toList)
    {k k' : FileKey} (same : text k = text k') : k = k' := by
  have chars := congrArg String.toList same
  rcases keyCases k with ⟨s, rfl⟩ | ⟨space, s, rfl⟩ <;>
    rcases keyCases k' with ⟨s', rfl⟩ | ⟨space', s', rfl⟩ <;>
    simp only [primaries, shareds, List.append_left_inj] at chars
  · rw [subNames (String.toList_inj.mp (List.append_cancel_left chars))]
  · exact absurd chars (apart space' s' s)
  · exact absurd chars.symm (apart space s s')
  · obtain ⟨spaces, subs⟩ := lastSplit (unmarked s) (unmarked s') chars
    rw [String.toList_inj.mp (List.append_cancel_left spaces), subNames (String.toList_inj.mp subs)]

theorem sharedChars (space : String) (s : SubFile) :
    (shared space s).stem.toList = space.toList ++ '.' :: s.name.toList := by
  simp [stem, shared]

theorem primaryChars (s : SubFile) : (primary s).stem.toList = s.name.toList := rfl

theorem stemInjective {k k' : FileKey} (same : k.stem = k'.stem) : k = k' := by
  have primaries : ∀ s, (primary s).stem.toList = [] ++ s.name.toList ++ [] := by simp [primaryChars]
  have shareds : ∀ space s, (shared space s).stem.toList = [] ++ space.toList ++ '.' :: s.name.toList ++ [] := by
    simp [sharedChars]
  refine textTells stem subDotless primaries shareds (fun space s s' chars => ?_) same
  have dotted : s'.name.toList = space.toList ++ '.' :: s.name.toList := chars
  exact subDotless s' (by simp [dotted])

theorem toStringInjective {k k' : FileKey} (same : k.toString = k'.toString) : k = k' := by
  have primaries : ∀ s, (primary s).toString.toList = "primary:".toList ++ s.name.toList ++ [] := by
    simp [toString, primary]
  have shareds : ∀ space s, (shared space s).toString.toList =
      "shared:".toList ++ space.toList ++ ':' :: s.name.toList ++ [] := by
    simp [toString, shared]
  exact textTells toString subColonless primaries shareds (fun space s s' chars => by simp at chars) same

theorem neighbourPath (s : SubFile) (source : FileKey) (sharedRoot : Option String) :
    (primary s).importPath source sharedRoot = "./" ++ (primary s).stem ++ ".js" := by
  unfold importPath
  split
  · contradiction
  · rfl

theorem sharedPath (source : FileKey) (sharedRoot : Option String) :
    ∃ root, ∀ space s, (shared space s).importPath source sharedRoot =
      root ++ "/" ++ (shared space s).stem ++ ".js" := by
  obtain ⟨group, sub⟩ := source
  cases group with
  | shared space => exact ⟨".", fun _ _ => rfl⟩
  | primary =>
    cases sharedRoot with
    | none => exact ⟨".", fun _ _ => rfl⟩
    | some root => exact ⟨trimSlashes root, fun _ _ => rfl⟩

theorem importPathInjective {k k' source : FileKey} {sharedRoot : Option String}
    (same : k.importPath source sharedRoot = k'.importPath source sharedRoot) : k = k' := by
  obtain ⟨root, below⟩ := sharedPath source sharedRoot
  have primaries : ∀ s, ((primary s).importPath source sharedRoot).toList =
      ['.', '/'] ++ s.name.toList ++ ".js".toList := by simp [neighbourPath, primaryChars]
  have shareds : ∀ space s, ((shared space s).importPath source sharedRoot).toList =
      (root.toList ++ ['/']) ++ space.toList ++ '.' :: s.name.toList ++ ".js".toList := by
    simp [below, sharedChars]
  refine textTells (fun k => k.importPath source sharedRoot) subDotless primaries shareds
    (fun space s s' chars => ?_) same
  -- a shared file has a dot behind the last slash of its path, and a primary one has none
  have split : [] ++ '.' :: ('/' :: s'.name.toList) =
      (root.toList ++ ['/'] ++ space.toList) ++ '.' :: s.name.toList := chars
  have dotless : '.' ∉ '/' :: s'.name.toList := by simpa using subDotless s'
  have nothing := (lastSplit dotless (subDotless s) split).1
  simp at nothing

theorem neighboursAgree {source source' : FileKey} (beside : source.group = .primary ↔ source'.group = .primary)
    (sharedRoot : Option String) (k : FileKey) :
    k.importPath source sharedRoot = k.importPath source' sharedRoot := by
  obtain ⟨group, sub⟩ := source
  obtain ⟨group', sub'⟩ := source'
  cases group <;> cases group'
  · rfl
  · simp at beside
  · simp at beside
  · rfl

end ShapeContracts.FileKey
