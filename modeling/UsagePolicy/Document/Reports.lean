import UsagePolicy.Diagnostic
import UsagePolicy.Document.Nodes

/-! Reports as JSON. -/
namespace UsagePolicy

namespace Severity

def toJson (s : Severity) : Json := .str s.name

def ofJson? (v : Json) : Option Severity := v.choice? .json ofName?

end Severity

namespace Location

def fieldNames : List String := "file" :: Span.fieldNames

def toJson (l : Location) : Json := .obj (("file", .str l.file) :: l.span.fields)

def ofJson? (v : Json) : Option Location := do
  let r ← v.record? .json fieldNames
  return {
    file := ← r.required "file" Json.string?
    span := {
      line := ← r.required "line" Json.uint64?
      column := ← r.required "column" Json.uint64?
      offset := ← r.required "offset" Json.uint64?
      length := ← r.required "length" Json.uint64? } }

end Location

namespace Diagnostic

def fieldNames : List String := ["id", "rule", "severity", "location", "message", "doc_ref"]

def toJson (d : Diagnostic) : Json :=
  .obj ([("id", .str d.id), ("rule", .str d.rule), ("severity", d.severity.toJson),
    ("location", d.location.toJson), ("message", .str d.message)] ++
    Json.fieldIf "doc_ref" .str d.docRef)

def ofJson? (v : Json) : Option Diagnostic := do
  let r ← v.record? .json fieldNames
  return {
    id := ← r.required "id" Json.string?
    rule := ← r.required "rule" Json.string?
    severity := ← r.required "severity" Severity.ofJson?
    location := ← r.required "location" Location.ofJson?
    message := ← r.required "message" Json.string?
    docRef := ← r.optional "doc_ref" Json.string? }

/-- Drops the unknown fields of a diagnostic and of its location. -/
def outline : Json.Draft → Json.Draft
  | .arr items =>
    .arr (items.mapIdx fun i d => if i = 3 then d.keep Location.fieldNames else d)
  | d => (d.keep fieldNames).inField "location" (·.keep Location.fieldNames)

end Diagnostic

namespace Report

def fieldNames : List String := ["diagnostics", "files_checked"]

def toJson (r : Report) : Json :=
  .obj [("diagnostics", .ofList Diagnostic.toJson r.diagnostics),
    ("files_checked", .ofNat r.filesChecked)]

def ofJson? (v : Json) : Option Report := do
  let r ← v.record? .json fieldNames
  return {
    diagnostics := ← r.required "diagnostics" (Json.list? Diagnostic.ofJson?)
    filesChecked := ← r.required "files_checked" (Json.below? (Nat.pow 2 64)) }

/-- Drops the unknown fields of a report and of its diagnostics. -/
def outline : Json.Draft → Json.Draft
  | .arr items =>
    .arr (items.mapIdx fun i d => if i = 0 then d.inItems Diagnostic.outline else d)
  | d => (d.keep fieldNames).inField "diagnostics" (·.inItems Diagnostic.outline)

def ofText? (input : String) : Option Report := (Json.parseOutline? outline input).bind ofJson?

end Report

end UsagePolicy
