/-
# Reports of failures come back

A report is an object in an object, of two texts, a category and a truth value, and each is read
back from what it is written as. So a report is read back from its compact text and from its text
on several lines, whatever its message says, and the two texts are the same but for white space
between words (`Response.read_back_in_either_layout`).

Key theorems: `Response.reads_reader`, `Response.read_back_in_either_layout`.
-/
import TraceBacklog.Failure.Response
import TraceBacklog.Proofs.Json.Layout

namespace TraceBacklog

namespace Response

theorem find_name (c : Category) : (Variants.mk Category.all).find c.name = .ok c := by
  cases c <;> rfl

/-- The inner object is read back. -/
theorem reads_detail : Reads detailRecord.read detail where
  integral r := by simp [detail, Json.Integral, Json.FieldsIntegral]
  read r := by
    refine detailRecord.read_object
      ⟨some r.code, some r.message, some r.category, some r.recoverable⟩ ?_
    simp only [Json.fieldDrafts]
    rw [detailRecord.fillFields_slot _ rfl rfl (reads_readText.read r.code),
      detailRecord.fillFields_slot _ rfl rfl (reads_readText.read r.message),
      detailRecord.fillFields_slot _ rfl rfl ((Variants.reads find_name).read r.category),
      detailRecord.fillFields_slot _ rfl rfl (reads_readBool.read r.recoverable)]
    rfl

theorem reads_reader : Reads reader toJson where
  integral r := by
    have hdetail := reads_detail.integral r
    simp [toJson, Json.Integral, Json.FieldsIntegral, hdetail]
  read r := by
    refine record.read_object (some r) ?_
    simp only [Json.fieldDrafts]
    rw [record.fillFields_slot _ rfl rfl (reads_detail.read r)]
    rfl

/-- **A report survives either layout.** The report of any failure, whatever texts are in it, is
read back from its compact text and from its text on several lines with its code, its message,
its category and whether it is recoverable; and without the white space outside of literals the
two texts are one. -/
theorem read_back_in_either_layout (f : Failure) :
    let report := f.response.toJson
    let told : Response := ⟨f.code, f.message, f.category, f.isRecoverable⟩
    ofChars report.compact.toList = .ok told ∧
    ofChars report.pretty.toList = .ok told ∧
    condense report.pretty.toList = condense report.compact.toList := by
  intro report told
  have hcompact : report.compact.toList = report.chars := String.toList_ofList
  have hpretty : report.pretty.toList = report.prettyChars 0 := String.toList_ofList
  have hintegral : report.Integral := reads_reader.integral f.response
  rw [hcompact, hpretty]
  exact ⟨reads_reader.decodeChars_chars f.response, reads_reader.decodeChars_prettyChars _ 0,
    Json.condense_pretty_eq_condense_compact hintegral 0⟩

/-- A message with quotes, a backslash, white space of every kind and braces stays as it is. -/
example :
    let report := (Failure.io "\"a\" :\\ \x7b\n\t\x00\x7d").response.toJson
    condense (report.prettyChars 0) = report.chars ∧ report.prettyChars 0 ≠ report.chars := by
  decide +kernel

end Response

end TraceBacklog
