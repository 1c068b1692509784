import TestIsolation.Outcome.Record
import TestIsolation.Proofs.Json.RoundTrip

/-!
# Payloads of records

Every record is read back from its payload (`ofPayload?_payload`): its JSON form is flat and holds no doubles, its
fields are found by their names, and its text comes back from its UTF-8 form.
-/

namespace TestIsolation

set_option autoImplicit false

/-- A text comes back from its UTF-8 form. -/
theorem Bytes.toString?_ofString (s : String) : Bytes.toString? (Bytes.ofString s) = some s := by
  have bytes : (⟨(Bytes.ofString s).toArray⟩ : ByteArray) = s.toByteArray := by simp [Bytes.ofString]
  rw [Bytes.toString?, bytes, String.fromUTF8?, dif_pos s.isValidUTF8]
  rfl

theorem Bytes.length_ofString (s : String) : (Bytes.ofString s).length = s.utf8ByteSize := by
  simp [Bytes.ofString]

namespace Phase

theorem ofName?_name (p : Phase) : ofName? p.name = some p := by cases p <;> decide

end Phase

namespace Verdict

theorem ofName?_name (v : Verdict) : ofName? v.name = some v := by cases v <;> decide

end Verdict

namespace Record

/-- The JSON form of a record is flat. -/
theorem fits_toJson (r : Record) : r.toJson.fits JsonReader.maxDepth = true := by
  have line (n : UInt32) : (JsonNumber.integer n.toNat).isExact = true := by
    have bound := n.toNat_lt
    have size : UInt64.size = 18446744073709551616 := rfl
    simp only [JsonNumber.isExact, decide_eq_true_eq]
    omega
  cases r with
  | phase p => rfl
  | terminal v => rfl
  | failure f =>
    simp [toJson, JsonValue.fits, JsonReader.maxDepth, JsonValue.membersFit, JsonValue.integer, line]
  | skip s =>
    cases reason : s.reason <;>
      simp [toJson, reason, JsonValue.fits, JsonReader.maxDepth, JsonValue.membersFit, JsonValue.integer, line]

theorem uint32?_integer (n : UInt32) : (JsonValue.integer n.toNat).uint32? = some n := by
  have bound := n.toNat_lt
  simp only [JsonValue.integer, JsonValue.uint32?]
  rw [if_pos ⟨by omega, by simp only [UInt32.size]; omega⟩]
  simp

/-- The JSON form of a failure, with any value that reads as its line. -/
theorem ofJson?_failure {line : JsonValue} (f : Failure) (number : line.uint32? = some f.site.line) :
    ofJson? (.object [("kind", .string "failure"), ("expression", .string f.expression),
      ("file", .string f.site.file), ("line", line), ("function", .string f.site.function),
      ("message", .string f.message), ("fatal", .boolean f.fatal)]) = some (failure f) := by
  calc
    _ = line.uint32?.bind fun n => some (failure { f with site := { f.site with line := n } }) := rfl
    _ = some (failure f) := by
      rw [number]
      rfl

/-- The JSON form of a request to be skipped, with any value that reads as its line. -/
theorem ofJson?_skip {line : JsonValue} (s : SkipNotice) (number : line.uint32? = some s.site.line) :
    ofJson? (.object ([("kind", .string "skip")] ++ (s.reason.map fun r => ("reason", .string r)).toList
      ++ [("file", .string s.site.file), ("line", line), ("function", .string s.site.function)])) =
      some (skip s) := by
  calc
    _ = line.uint32?.bind fun n => some (skip { s with site := { s.site with line := n } }) := by
      obtain ⟨reason, site⟩ := s
      cases reason <;> rfl
    _ = some (skip s) := by
      rw [number]
      rfl

theorem ofJson?_toJson (r : Record) : ofJson? r.toJson = some r := by
  cases r with
  | phase p =>
    simp [toJson, ofJson?, JsonValue.tagged?, JsonValue.fields?, JsonValue.choice?, Phase.ofName?_name]
  | terminal v =>
    simp [toJson, ofJson?, JsonValue.tagged?, JsonValue.fields?, JsonValue.choice?, Verdict.ofName?_name]
  | failure f => exact ofJson?_failure f (uint32?_integer f.site.line)
  | skip s => exact ofJson?_skip s (uint32?_integer s.site.line)

/-- A record comes back from its payload. -/
theorem ofPayload?_payload (r : Record) : ofPayload? (Bytes.ofString r.payload) = some r := by
  simp [ofPayload?, payload, Bytes.toString?_ofString, JsonValue.parse?_render (fits_toJson r), ofJson?_toJson]

end Record

end TestIsolation
