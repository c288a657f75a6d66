import StepLocator.Json.Printer
import StepLocator.Shape.Integer

/-!
Places in files: a URI and the extent between two positions. A list of places is read from any
value, and printed with its keys in order.
-/
namespace StepLocator

structure Position where
  line : Int
  character : Int
  deriving DecidableEq, Repr

structure Extent where
  first : Position
  last : Position
  deriving DecidableEq, Repr

structure Place where
  uri : Text
  extent : Extent
  deriving DecidableEq, Repr

namespace Shape

/-- A table that goes by a name. -/
def named {α : Type} (name : Text) (read : Entries → Checked α) : Value → Checked α
  | .table entries => read entries
  | _ => Checked.refuse (.notShape name)

def position : Value → Checked Position :=
  named "PositionDTO" fun entries =>
    ((field "line" integer entries).both (field "character" integer entries)).map
      fun (line, character) => ⟨line, character⟩

def extent : Value → Checked Extent :=
  named "RangeDTO" fun entries =>
    ((field "start" position entries).both (field "end" position entries)).map
      fun (first, last) => ⟨first, last⟩

def place : Value → Checked Place :=
  named "LocationDTO" fun entries =>
    ((field "uri" text entries).both (field "range" extent entries)).map
      fun (uri, extent) => ⟨uri, extent⟩

end Shape

def Position.toValue (p : Position) : Value :=
  .table [("line", .int p.line), ("character", .int p.character)]

def Extent.toValue (e : Extent) : Value :=
  .table [("start", e.first.toValue), ("end", e.last.toValue)]

def Place.toValue (p : Place) : Value :=
  .table [("uri", .text p.uri), ("range", p.extent.toValue)]

namespace Place

def listKey : Text := "locations"

def listOf (v : Value) : Shape.Checked (List Place) :=
  Shape.Checked.under (.field listKey) (Shape.listOf Shape.place v)

def printList (places : List Place) : Text :=
  Json.printIndented 0 (Json.sortKeys (.table [(listKey, .list (places.map toValue))]))

end Place
end StepLocator
