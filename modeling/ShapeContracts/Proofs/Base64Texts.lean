import Mathlib.Algebra.Group.Nat.Defs
import Mathlib.Data.List.Forall2
import Mathlib.Tactic.SplitIfs
import ShapeContracts.Base64

/-! Texts in base64. Read as bits, the letters of a text are the bytes one behind another, filled up with zeros to
whole letters; a text that spells bytes this way is the only one that does, and the one that is read as them. -/
namespace ShapeContracts.Base64

def alphabet : List Char :=
  ['A', 'B', 'C', 'D', 'E', 'F', 'G', 'H', 'I', 'J', 'K', 'L', 'M', 'N', 'O', 'P', 'Q', 'R', 'S', 'T', 'U', 'V', 'W',
   'X', 'Y', 'Z', 'a', 'b', 'c', 'd', 'e', 'f', 'g', 'h', 'i', 'j', 'k', 'l', 'm', 'n', 'o', 'p', 'q', 'r', 's', 't',
   'u', 'v', 'w', 'x', 'y', 'z', '0', '1', '2', '3', '4', '5', '6', '7', '8', '9', '+', '/']

def bits : Nat → Nat → List Bool
  | 0, _ => []
  | width + 1, n => bits width (n / 2) ++ [decide (n % 2 = 1)]

/-- Letters with their numbers, then padding up to a multiple of four. The bits of the letters are those of the bytes,
and fewer than a letter more, all of them zero. -/
structure Spells (text : List Char) (bytes : List UInt8) (letters : List Char) (numbers : List Nat)
    (padding zeros : Nat) : Prop where
  shown : text = letters ++ List.replicate padding '='
  known : List.Forall₂ (fun c n => alphabet[n]? = some c) letters numbers
  carried : numbers.flatMap (bits 6) = bytes.flatMap (fun b => bits 8 b.toNat) ++ List.replicate zeros false
  whole : text.length % 4 = 0
  short : padding < 4
  spare : zeros < 6

def Canonical (text : List Char) (bytes : List UInt8) : Prop :=
  ∃ letters numbers padding zeros, Spells text bytes letters numbers padding zeros

/-! Bits -/

theorem bitsLength (width n : Nat) : (bits width n).length = width := by
  induction width generalizing n with
  | zero => rfl
  | succ width ih => rw [bits, List.length_append, ih, List.length_singleton]

theorem bitsInjective {width m n : Nat} (small : m < 2 ^ width) (small' : n < 2 ^ width)
    (same : bits width m = bits width n) : m = n := by
  induction width generalizing m n with
  | zero => omega
  | succ width ih =>
    obtain ⟨high, low⟩ := List.append_inj same (by rw [bitsLength, bitsLength])
    have half : m / 2 = n / 2 := ih (by omega) (by omega) high
    have parity := decide_eq_decide.mp (List.singleton_inj.mp low)
    omega

theorem bitsJoined (width place m : Nat) {n : Nat} (small : n < 2 ^ place) :
    bits (width + place) (m * 2 ^ place + n) = bits width m ++ bits place n := by
  induction place generalizing n with
  | zero =>
    obtain rfl : n = 0 := Nat.lt_one_iff.mp small
    rw [Nat.add_zero, Nat.add_zero, Nat.pow_zero, Nat.mul_one, bits, List.append_nil]
  | succ place ih =>
    have half : (m * 2 ^ (place + 1) + n) / 2 = m * 2 ^ place + n / 2 := by
      rw [Nat.pow_succ, ← Nat.mul_assoc]
      omega
    have parity : (m * 2 ^ (place + 1) + n) % 2 = n % 2 := by
      rw [Nat.pow_succ, ← Nat.mul_assoc]
      omega
    rw [← Nat.add_assoc, bits, bits, half, parity, ih (by omega), List.append_assoc]

theorem bitsCut (width place n : Nat) :
    bits (width + place) n = bits width (n / 2 ^ place) ++ bits place (n % 2 ^ place) := by
  rw [← bitsJoined width place _ (Nat.mod_lt n (Nat.two_pow_pos place)), Nat.div_add_mod']

theorem blocksLength {f : α → List β} {width : Nat} (each : ∀ a, (f a).length = width) (l : List α) :
    (l.flatMap f).length = width * l.length := by
  induction l with
  | nil => rfl
  | cons a l ih => rw [List.flatMap_cons, List.length_append, each, ih, List.length_cons, Nat.mul_succ, Nat.add_comm]

theorem numbersInjective {numbers numbers' : List Nat} (small : ∀ n ∈ numbers, n < 2 ^ 6)
    (small' : ∀ n ∈ numbers', n < 2 ^ 6) (same : numbers.flatMap (bits 6) = numbers'.flatMap (bits 6)) :
    numbers = numbers' := by
  have length := congrArg List.length same
  rw [blocksLength (bitsLength 6), blocksLength (bitsLength 6)] at length
  induction numbers generalizing numbers' with
  | nil =>
    cases numbers' with
    | nil => rfl
    | cons n numbers' => contradiction
  | cons m numbers ih =>
    cases numbers' with
    | nil => contradiction
    | cons n numbers' =>
      rw [List.forall_mem_cons] at small small'
      rw [List.flatMap_cons, List.flatMap_cons] at same
      obtain ⟨first, later⟩ := List.append_inj same (by rw [bitsLength, bitsLength])
      rw [bitsInjective small.1 small'.1 first, ih small.2 small'.2 later (Nat.add_right_cancel length)]

/-! Letters -/

theorem symbolLetter {n : Nat} (small : n < 64) : alphabet[n]? = some (symbol n) := by
  have each : ∀ k < 64, alphabet[k]? = some (symbol k) := by decide
  exact each n small

theorem symbolValue {n : Nat} (small : n < 64) : value? (symbol n) = some n := by
  have each : ∀ k < 64, value? (symbol k) = some k := by decide
  exact each n small

theorem symbolMark {n : Nat} (small : n < 64) : symbol n ≠ '=' := by
  have each : ∀ k < 64, symbol k ≠ '=' := by decide
  exact each n small

theorem valueSymbol {c : Char} {n : Nat} (value : value? c = some n) : n < 64 ∧ c = symbol n := by
  have early : c.toNat < 128 := by
    have last {d : Char} (below : c ≤ d) (ascii : d.toNat < 128) : c.toNat < 128 :=
      Nat.lt_of_le_of_lt (UInt32.le_iff_toNat_le.mp below) ascii
    unfold value? at value
    split_ifs at value with upper lower digit plus slash
    · exact last upper.2 (by decide)
    · exact last lower.2 (by decide)
    · exact last digit.2 (by decide)
    · exact plus ▸ by decide
    · exact slash ▸ by decide
  have each : ∀ k < 128, ∀ n ∈ value? (Char.ofNat k), n < 64 ∧ Char.ofNat k = symbol n := by decide
  rw [← Char.ofNat_toNat c] at value ⊢
  exact each _ early n value

theorem valueOk {c : Char} {n : Nat} : value? c = some n ↔ n < 64 ∧ c = symbol n :=
  ⟨valueSymbol, fun ⟨small, same⟩ => same ▸ symbolValue small⟩

/-! Reading -/

theorem byteHeld {n : Nat} (small : n < 256) : (UInt8.ofNat n).toNat = n := by
  rw [UInt8.toNat_ofNat', Nat.mod_eq_of_lt small]

theorem decodedEncodes {text : List Char} {bytes : List UInt8} (read : decode? text = some bytes) :
    encode bytes = text := by
  fun_induction decode? text generalizing bytes with
  | case1 =>
    cases read
    rfl
  | case2 =>
    simp only [Option.bind_eq_bind, Option.bind_eq_some_iff, valueOk, Option.ite_none_right_eq_some,
      Option.some.injEq] at read
    obtain ⟨p, ⟨smallP, rfl⟩, q, ⟨smallQ, rfl⟩, zero, rfl⟩ := read
    have first : (p * 4 + q / 16) / 4 = p := by omega
    have second : (p * 4 + q / 16) % 4 * 16 = q := by omega
    rw [encode, byteHeld (by omega), first, second]
  | case3 =>
    simp only [Option.bind_eq_bind, Option.bind_eq_some_iff, valueOk, Option.ite_none_right_eq_some,
      Option.some.injEq] at read
    obtain ⟨p, ⟨smallP, rfl⟩, q, ⟨smallQ, rfl⟩, r, ⟨smallR, rfl⟩, zero, rfl⟩ := read
    have first : (p * 4 + q / 16) / 4 = p := by omega
    have second : (p * 4 + q / 16) % 4 * 16 + (q % 16 * 16 + r / 4) / 16 = q := by omega
    have third : (q % 16 * 16 + r / 4) % 16 * 4 = r := by omega
    rw [encode, byteHeld (by omega), byteHeld (by omega), first, second, third]
  | case4 _ _ _ _ rest _ _ ih =>
    simp only [Option.bind_eq_bind, Option.bind_eq_some_iff, valueOk, Option.some.injEq] at read
    obtain ⟨p, ⟨smallP, rfl⟩, q, ⟨smallQ, rfl⟩, r, ⟨smallR, rfl⟩, s, ⟨smallS, rfl⟩, later, more, rfl⟩ := read
    have first : (p * 4 + q / 16) / 4 = p := by omega
    have second : (p * 4 + q / 16) % 4 * 16 + (q % 16 * 16 + r / 4) / 16 = q := by omega
    have third : (q % 16 * 16 + r / 4) % 16 * 4 + (r % 4 * 64 + s) / 64 = r := by omega
    have fourth : (r % 4 * 64 + s) % 64 = s := by omega
    rw [encode, byteHeld (by omega), byteHeld (by omega), byteHeld (by omega), first, second, third, fourth,
      ih more]
  | case5 => contradiction

theorem encodedDecodes (bytes : List UInt8) : decode? (encode bytes) = some bytes := by
  have back (b : UInt8) {n : Nat} (same : n = b.toNat) : UInt8.ofNat n = b := by
    rw [same, UInt8.ofNat_toNat]
  fun_induction encode bytes with
  | case1 => rfl
  | case2 a =>
    have small := a.toNat_lt
    rw [decode?, symbolValue (by omega), symbolValue (by omega)]
    simp only [Option.bind_eq_bind, Option.bind_some]
    rw [if_pos (by omega), back a (by omega)]
  | case3 a b =>
    have small := a.toNat_lt
    have small' := b.toNat_lt
    rw [decode?, symbolValue (by omega), symbolValue (by omega), symbolValue (by omega)]
    · simp only [Option.bind_eq_bind, Option.bind_some]
      rw [if_pos (by omega), back a (by omega), back b (by omega)]
    · exact symbolMark (by omega)
  | case4 a b c rest ih =>
    have small := a.toNat_lt
    have small' := b.toNat_lt
    have small'' := c.toNat_lt
    rw [decode?, symbolValue (by omega), symbolValue (by omega), symbolValue (by omega), symbolValue (by omega), ih]
    · simp only [Option.bind_eq_bind, Option.bind_some]
      rw [back a (by omega), back b (by omega), back c (by omega)]
    · exact fun _ mark => absurd mark (symbolMark (by omega))
    · exact fun mark => absurd mark (symbolMark (by omega))

theorem decodeOk {text : List Char} {bytes : List UInt8} : decode? text = some bytes ↔ text = encode bytes :=
  ⟨fun read => (decodedEncodes read).symm, fun same => same ▸ encodedDecodes bytes⟩

/-! Spelling -/

def sextets : List UInt8 → List Nat
  | [] => []
  | [a] => [a.toNat / 4, a.toNat % 4 * 16]
  | [a, b] => [a.toNat / 4, a.toNat % 4 * 16 + b.toNat / 16, b.toNat % 16 * 4]
  | a :: b :: c :: rest =>
    [a.toNat / 4, a.toNat % 4 * 16 + b.toNat / 16, b.toNat % 16 * 4 + c.toNat / 64, c.toNat % 64] ++ sextets rest

def gap (length : Nat) : Nat := (3 - length % 3) % 3

theorem gapNext (length : Nat) : gap (length + 3) = gap length := by
  rw [gap, gap, Nat.add_mod_right]

theorem sextetsSmall (bytes : List UInt8) : ∀ n ∈ sextets bytes, n < 64 := by
  fun_induction sextets bytes with
  | case1 => exact nofun
  | case2 a =>
    have small := a.toNat_lt
    simp only [List.forall_mem_cons]
    exact ⟨by omega, by omega, nofun⟩
  | case3 a b =>
    have small := a.toNat_lt
    have small' := b.toNat_lt
    simp only [List.forall_mem_cons]
    exact ⟨by omega, by omega, by omega, nofun⟩
  | case4 a b c rest ih =>
    have small := a.toNat_lt
    have small' := b.toNat_lt
    have small'' := c.toNat_lt
    simp only [List.forall_mem_append, List.forall_mem_cons]
    exact ⟨⟨by omega, by omega, by omega, by omega, nofun⟩, ih⟩

theorem encodeShown (bytes : List UInt8) :
    encode bytes = (sextets bytes).map symbol ++ List.replicate (gap bytes.length) '=' := by
  fun_induction encode bytes with
  | case1 | case2 | case3 => rfl
  | case4 a b c rest ih =>
    have length : (a :: b :: c :: rest).length = rest.length + 3 := rfl
    rw [length, gapNext, ih]
    rfl

theorem encodeWhole (bytes : List UInt8) : (encode bytes).length % 4 = 0 := by
  fun_induction encode bytes with
  | case1 => rfl
  | case2 | case3 => exact Nat.mod_self 4
  | case4 a b c rest ih => exact (Nat.add_mod_right _ 4).trans ih

theorem firstByte (b : UInt8) : bits 8 b.toNat = bits 6 (b.toNat / 4) ++ bits 2 (b.toNat % 4) := bitsCut 6 2 _

theorem secondByte (b : UInt8) : bits 8 b.toNat = bits 4 (b.toNat / 16) ++ bits 4 (b.toNat % 16) := bitsCut 4 4 _

theorem thirdByte (b : UInt8) : bits 8 b.toNat = bits 2 (b.toNat / 64) ++ bits 6 (b.toNat % 64) := bitsCut 2 6 _

theorem secondLetter (m : Nat) {n : Nat} (small : n < 16) : bits 6 (m * 16 + n) = bits 2 m ++ bits 4 n :=
  bitsJoined 2 4 m small

theorem thirdLetter (m : Nat) {n : Nat} (small : n < 4) : bits 6 (m * 4 + n) = bits 4 m ++ bits 2 n :=
  bitsJoined 4 2 m small

theorem sextetsBits (bytes : List UInt8) : (sextets bytes).flatMap (bits 6) =
    bytes.flatMap (fun b => bits 8 b.toNat) ++ List.replicate (2 * gap bytes.length) false := by
  fun_induction sextets bytes with
  | case1 => rfl
  | case2 a =>
    have second := secondLetter (a.toNat % 4) (n := 0) (by decide)
    rw [Nat.add_zero] at second
    simp only [List.flatMap_cons, List.flatMap_nil, firstByte, second, List.append_nil, List.append_assoc]
    rfl
  | case3 a b =>
    have small := b.toNat_lt
    have second := secondLetter (a.toNat % 4) (n := b.toNat / 16) (by omega)
    have third := thirdLetter (b.toNat % 16) (n := 0) (by decide)
    rw [Nat.add_zero] at third
    simp only [List.flatMap_cons, List.flatMap_nil, firstByte a, secondByte b, second, third, List.append_nil,
      List.append_assoc]
    rfl
  | case4 a b c rest ih =>
    have small := b.toNat_lt
    have small' := c.toNat_lt
    have second := secondLetter (a.toNat % 4) (n := b.toNat / 16) (by omega)
    have third := thirdLetter (b.toNat % 16) (n := c.toNat / 64) (by omega)
    have length : (a :: b :: c :: rest).length = rest.length + 3 := rfl
    simp only [List.flatMap_append, List.flatMap_cons, List.flatMap_nil, firstByte a, secondByte b, thirdByte c,
      second, third, ih, length, gapNext, List.append_nil, List.append_assoc]

theorem encodeSpells (bytes : List UInt8) : Spells (encode bytes) bytes ((sextets bytes).map symbol) (sextets bytes)
    (gap bytes.length) (2 * gap bytes.length) where
  shown := encodeShown bytes
  known := List.forall₂_map_left_iff.mpr (List.forall₂_same.mpr (fun n mem => symbolLetter (sextetsSmall bytes n mem)))
  carried := sextetsBits bytes
  whole := encodeWhole bytes
  short := by unfold gap; omega
  spare := by unfold gap; omega

theorem knownSmall {letters : List Char} {numbers : List Nat}
    (known : List.Forall₂ (fun c n => alphabet[n]? = some c) letters numbers) : ∀ n ∈ numbers, n < 2 ^ 6 := by
  induction known with
  | nil => exact nofun
  | cons first _ ih => exact List.forall_mem_cons.mpr ⟨(List.getElem?_eq_some_iff.mp first).1, ih⟩

theorem knownOnce {letters letters' : List Char} {numbers : List Nat}
    (known : List.Forall₂ (fun c n => alphabet[n]? = some c) letters numbers)
    (known' : List.Forall₂ (fun c n => alphabet[n]? = some c) letters' numbers) : letters = letters' := by
  refine List.left_unique_forall₂' (fun c n d first second => ?_) known known'
  exact Option.some.inj (first.symm.trans second)

theorem spellsOnce {text text' letters letters' : List Char} {bytes : List UInt8} {numbers numbers' : List Nat}
    {padding padding' zeros zeros' : Nat} (first : Spells text bytes letters numbers padding zeros)
    (second : Spells text' bytes letters' numbers' padding' zeros') : text = text' := by
  have count := congrArg List.length first.carried
  have count' := congrArg List.length second.carried
  simp only [List.length_append, blocksLength (bitsLength 6), List.length_replicate] at count count'
  -- both fill the same bits up to whole letters, with less than a letter
  obtain rfl : zeros = zeros' := by
    have := first.spare
    have := second.spare
    omega
  obtain rfl : numbers = numbers' :=
    numbersInjective (knownSmall first.known) (knownSmall second.known) (first.carried.trans second.carried.symm)
  obtain rfl : letters = letters' := knownOnce first.known second.known
  obtain rfl : padding = padding' := by
    have length := first.whole
    have length' := second.whole
    rw [first.shown, List.length_append, List.length_replicate] at length
    rw [second.shown, List.length_append, List.length_replicate] at length'
    have := first.short
    have := second.short
    omega
  exact first.shown.trans second.shown.symm

theorem decodedCanonical {text : List Char} {bytes : List UInt8} :
    decode? text = some bytes ↔ Canonical text bytes := by
  rw [decodeOk]
  constructor
  · rintro rfl
    exact ⟨_, _, _, _, encodeSpells bytes⟩
  · rintro ⟨letters, numbers, padding, zeros, spells⟩
    exact spellsOnce spells (encodeSpells bytes)

end ShapeContracts.Base64
