import SharedValues.Json.Document
import SharedValues.Report.Basic

/-!
# Reports as JSON documents

A report is written as an object with its five fields in order. It is read from such an object in
any order, with other keys ignored, or from an array of the five fields. A known key must stand
there exactly once, and every key must be a text with content.
-/

namespace SharedValues.Report

/-- The names of the fields of a report. -/
def fieldNames : List String := ["total", "passed", "failed", "errored", "failures"]

/-- A name and a reason as an array of two. -/
def failureDocument (failure : String × String) : Json :=
  .array [.ofString failure.1, .ofString failure.2]

/-- The fields of a report, as documents, in order. -/
def fieldDocuments (r : Report) : List Json :=
  [.ofNat r.total.toNat, .ofNat r.passed.toNat, .ofNat r.failed.toNat, .ofNat r.errored.toNat,
    .array (r.failures.map failureDocument)]

/-- The document of a report. -/
def document (r : Report) : Json :=
  .object (((fieldNames.map fun name => name.toList.map Json.Piece.char)).zip r.fieldDocuments)

/-- Writes a report. -/
def toJson (r : Report) : String := r.document.write

/-- A counter: a natural number within its range. -/
def counter? (v : Json) : Option UInt64 :=
  match v.natural? with
  | some n => if n < UInt64.size then some (UInt64.ofNat n) else none
  | none => none

/-- A failure: exactly two texts. -/
def failure? (v : Json) : Option (String × String) :=
  match v.items? with
  | some [name, reason] =>
    match name.string?, reason.string? with
    | some name, some reason => some (name, reason)
    | _, _ => none
  | _ => none

/-- The failures of a report. -/
def failures? (v : Json) : Option (List (String × String)) :=
  match v.items? with
  | some items => items.mapM failure?
  | none => none

/-- The report with these five fields. -/
def ofFields? : List Json → Option Report
  | [total, passed, failed, errored, failures] => do
    let total ← counter? total
    let passed ← counter? passed
    let failed ← counter? failed
    let errored ← counter? errored
    let failures ← failures? failures
    some ⟨total, passed, failed, errored, failures⟩
  | _ => none

/-- The member with a key, if there is exactly one. -/
def member? (members : List (List Char × Json)) (key : String) : Option Json :=
  match members.filter fun entry => entry.1 = key.toList with
  | [entry] => some entry.2
  | _ => none

/-- The keys of members, as their contents. -/
def keyed? (members : List (List Json.Piece × Json)) : Option (List (List Char × Json)) :=
  members.mapM fun entry => (Json.content? entry.1).map fun key => (key, entry.2)

/-- The report of a document. -/
def ofDocument? : Json → Option Report
  | .array fields => ofFields? fields
  | .object members => do
    let members ← keyed? members
    let fields ← fieldNames.mapM (member? members)
    ofFields? fields
  | _ => none

/-- Reads a report. -/
def ofJson? (s : String) : Option Report :=
  match Json.read? s with
  | some v => ofDocument? v
  | none => none

end SharedValues.Report
