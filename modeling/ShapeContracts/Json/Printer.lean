import ShapeContracts.Json
import ShapeContracts.Binary64.Decimal

/-!
Compact JSON text: no blanks, members in order, strings escaped only where the format asks for it.
-/
namespace ShapeContracts

def Binary64.literal (x : Binary64) : List Char :=
  let d := x.decimal .even
  let e := d.magnitude
  if -5 ≤ e ∧ e ≤ 15 then
    let (whole, fraction) := d.positional
    x.sign ++ whole ++ '.' :: if fraction.isEmpty then ['0'] else fraction
  else
    let fraction := d.digits.drop 1
    let mark := if e < 0 then ['e', '-'] else ['e', '+']
    x.sign ++ d.digits.take 1 ++ (if fraction.isEmpty then [] else '.' :: fraction)
      ++ mark ++ Nat.toDigits 10 e.natAbs

namespace Number

def render : Number → List Char
  | .whole (.ofNat n) => Nat.toDigits 10 n
  | .whole (.negSucc n) => '-' :: Nat.toDigits 10 (n + 1)
  | .float x => x.literal

end Number

namespace Json

def hexDigit (n : Nat) : Char := Nat.digitChar (n % 16)

def escape (c : Char) : List Char :=
  match c with
  | '"' => ['\\', '"']
  | '\\' => ['\\', '\\']
  | '\n' => ['\\', 'n']
  | '\r' => ['\\', 'r']
  | '\t' => ['\\', 't']
  | '\x08' => ['\\', 'b']
  | '\x0c' => ['\\', 'f']
  | c => if c.toNat < 0x20 then ['\\', 'u', '0', '0', hexDigit (c.toNat / 16), hexDigit c.toNat] else [c]

def renderString (s : List Char) : List Char := '"' :: (s.flatMap escape ++ ['"'])

mutual

def renderChars : Json → List Char
  | .null => ['n', 'u', 'l', 'l']
  | .bool true => ['t', 'r', 'u', 'e']
  | .bool false => ['f', 'a', 'l', 's', 'e']
  | .number n => n.render
  | .string s => renderString s.toList
  | .array [] => ['[', ']']
  | .array (item :: rest) => '[' :: (renderChars item ++ renderItems rest)
  | .object [] => ['{', '}']
  | .object ((name, value) :: rest) =>
    '{' :: (renderString name.toList ++ ':' :: (renderChars value ++ renderMembers rest))

def renderItems : List Json → List Char
  | [] => [']']
  | item :: rest => ',' :: (renderChars item ++ renderItems rest)

def renderMembers : List (String × Json) → List Char
  | [] => ['}']
  | (name, value) :: rest =>
    ',' :: (renderString name.toList ++ ':' :: (renderChars value ++ renderMembers rest))

end

def render (j : Json) : String := String.ofList j.renderChars

def quote (s : String) : String := String.ofList (renderString s.toList)

end Json
end ShapeContracts
