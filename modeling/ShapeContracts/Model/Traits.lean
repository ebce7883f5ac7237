import ShapeContracts.Text.Order
import ShapeContracts.Json
import ShapeContracts.Sorted

/-!
Traits of shapes and members. Those that shape the output have typed fields; every other one is
kept with its value, in document order.
-/
namespace ShapeContracts

structure Bounds (α : Type) where
  min : Option α
  max : Option α
  deriving DecidableEq

inductive TimestampFormat where
  | dateTime
  | httpDate
  | epochSeconds
  deriving DecidableEq, Repr

namespace TimestampFormat

def name : TimestampFormat → String
  | dateTime => "date-time"
  | httpDate => "http-date"
  | epochSeconds => "epoch-seconds"

def ofName? : String → Option TimestampFormat
  | "date-time" => some dateTime
  | "http-date" => some httpDate
  | "epoch-seconds" => some epochSeconds
  | _ => none

theorem nameRead (f : TimestampFormat) : ofName? f.name = some f := by
  cases f <;> rfl

end TimestampFormat

inductive ErrorKind where
  | client
  | server
  deriving DecidableEq, Repr

namespace ErrorKind

def name : ErrorKind → String
  | client => "client"
  | server => "server"

def ofName? : String → Option ErrorKind
  | "client" => some client
  | "server" => some server
  | _ => none

theorem nameRead (k : ErrorKind) : ofName? k.name = some k := by
  cases k <;> rfl

end ErrorKind

structure Traits where
  documentation : Option String
  range : Option (Bounds Binary64)
  length : Option (Bounds Nat)
  pattern : Option String
  required : Option Json
  defaultValue : Option Json
  uniqueItems : Option Json
  timestampFormat : Option TimestampFormat
  enumValue : Option Json
  error : Option ErrorKind
  httpError : Option Nat
  streaming : Option Json
  extra : List (String × Json)

namespace Traits

def empty : Traits :=
  ⟨none, none, none, none, none, none, none, none, none, none, none, none, []⟩

instance : Inhabited Traits := ⟨empty⟩

namespace Key

def documentation : String := "smithy.api#documentation"
def range : String := "smithy.api#range"
def length : String := "smithy.api#length"
def pattern : String := "smithy.api#pattern"
def required : String := "smithy.api#required"
def defaultValue : String := "smithy.api#default"
def uniqueItems : String := "smithy.api#uniqueItems"
def timestampFormat : String := "smithy.api#timestampFormat"
def enumValue : String := "smithy.api#enumValue"
def error : String := "smithy.api#error"
def httpError : String := "smithy.api#httpError"
def streaming : String := "smithy.api#streaming"

def all : List String :=
  [documentation, range, length, pattern, required, defaultValue, uniqueItems, timestampFormat,
   enumValue, error, httpError, streaming]

end Key

def isRequired (t : Traits) : Bool := t.required.isSome

def hasUniqueItems (t : Traits) : Bool := t.uniqueItems.isSome

def enumText? (t : Traits) : Option String := t.enumValue.bind Json.string?

def minLength (t : Traits) : Option Nat := t.length.bind Bounds.min

def maxLength (t : Traits) : Option Nat := t.length.bind Bounds.max

def minValue (t : Traits) : Option Binary64 := t.range.bind Bounds.min

def maxValue (t : Traits) : Option Binary64 := t.range.bind Bounds.max

def present (key : String) (value : Option Json) : List (String × Json) :=
  match value with
  | some j => [(key, j)]
  | none => []

def Bounds.toJson (number : α → Json) (b : Bounds α) : Json :=
  .object (present "min" (b.min.map number) ++ present "max" (b.max.map number))

def entries (t : Traits) : List (String × Json) :=
  present Key.documentation (t.documentation.map .string)
    ++ present Key.range (t.range.map (Bounds.toJson (fun x => .number (.float x))))
    ++ present Key.length (t.length.map (Bounds.toJson Json.ofNat))
    ++ present Key.pattern (t.pattern.map .string)
    ++ present Key.required t.required
    ++ present Key.defaultValue t.defaultValue
    ++ present Key.uniqueItems t.uniqueItems
    ++ present Key.timestampFormat (t.timestampFormat.map (fun f => .string f.name))
    ++ present Key.enumValue t.enumValue
    ++ present Key.error (t.error.map (fun k => .string k.name))
    ++ present Key.httpError (t.httpError.map Json.ofNat)
    ++ present Key.streaming t.streaming
    ++ t.extra

def toJson (t : Traits) : Json := .object t.entries

def unmapped (t : Traits) (mapped : List String) : List (String × Json) :=
  sortedBy (fun a b => Text.le a.1 b.1) (t.entries.filter (fun e => !mapped.contains e.1))

end Traits
end ShapeContracts
