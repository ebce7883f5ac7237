/-!
The order of texts by code points, decided character by character.
-/
namespace ShapeContracts.Text

def charsLe : List Char → List Char → Bool
  | [], _ => true
  | _ :: _, [] => false
  | a :: as, b :: bs => a.toNat < b.toNat || (a == b && charsLe as bs)

def le (s t : String) : Bool := charsLe s.toList t.toList

def lt (s t : String) : Bool := !le t s

theorem charsLeTotal (as bs : List Char) : charsLe as bs || charsLe bs as := by
  induction as generalizing bs with
  | nil => simp [charsLe]
  | cons a as ih =>
    cases bs with
    | nil => simp [charsLe]
    | cons b bs =>
      have h := ih bs
      have : a.toNat = b.toNat → a = b := Char.toNat_inj.1
      simp only [charsLe, Bool.or_eq_true, Bool.and_eq_true, decide_eq_true_eq, beq_iff_eq] at h ⊢
      by_cases hab : a = b
      · subst hab
        simpa using h
      · have : a.toNat ≠ b.toNat := fun e => hab (this e)
        omega

theorem charsLeTrans {as bs cs : List Char} (h₁ : charsLe as bs) (h₂ : charsLe bs cs) :
    charsLe as cs := by
  induction as generalizing bs cs with
  | nil => simp [charsLe]
  | cons a as ih =>
    cases bs with
    | nil => simp [charsLe] at h₁
    | cons b bs =>
      cases cs with
      | nil => simp [charsLe] at h₂
      | cons c cs =>
        simp only [charsLe, Bool.or_eq_true, Bool.and_eq_true, decide_eq_true_eq, beq_iff_eq]
          at h₁ h₂ ⊢
        rcases h₁ with h₁ | ⟨rfl, h₁⟩ <;> rcases h₂ with h₂ | ⟨rfl, h₂⟩
        · exact .inl (Nat.lt_trans h₁ h₂)
        · exact .inl h₁
        · exact .inl h₂
        · exact .inr ⟨rfl, ih h₁ h₂⟩

theorem charsLeAntisymm {as bs : List Char} (h₁ : charsLe as bs) (h₂ : charsLe bs as) : as = bs := by
  induction as generalizing bs with
  | nil => cases bs <;> simp_all [charsLe]
  | cons a as ih =>
    cases bs with
    | nil => simp [charsLe] at h₁
    | cons b bs =>
      simp only [charsLe, Bool.or_eq_true, Bool.and_eq_true, decide_eq_true_eq, beq_iff_eq] at h₁ h₂
      rcases h₁ with h₁ | ⟨rfl, h₁⟩ <;> rcases h₂ with h₂ | ⟨_, h₂⟩
      · omega
      · subst a; omega
      · omega
      · rw [ih h₁ h₂]

theorem leTotal (s t : String) : le s t || le t s := charsLeTotal s.toList t.toList

theorem leTrans (s t u : String) : le s t → le t u → le s u := charsLeTrans

theorem leAntisymm {s t : String} (h₁ : le s t) (h₂ : le t s) : s = t :=
  String.toList_inj.1 (charsLeAntisymm h₁ h₂)

end ShapeContracts.Text
