/-
# What a snapshot keeps of its exchange

A snapshot without a limit tells its exchange: the identity stands in it, the kind of a
header value tells apart values of equal text (`HeaderSnapshot.ofJson_injective`), and the
kind of the body tells apart bodies of equal text (`Body.eq_of_text?`). Compact JSON and
hexadecimal text lose nothing, as different values have different texts
(`Json.chars_injective`) and bytes are read back (`Hex.decode?_encode`). A limit changes
the body alone: a longer text keeps its first characters and says how many there were.

Key definitions: `Exchange.Integral`.
Key theorems: `HeaderSnapshot.ofJson_injective`, `Body.eq_of_text?`,
`Snapshot.capture_injective`, `Snapshot.capture_loses_only_clipped`.
-/
import TraceBacklog.Snapshot
import TraceBacklog.Proofs.Json.Chars

namespace TraceBacklog

/-! ### Header values -/

theorem Json.compact_injective {v w : Json} (hv : v.Integral) (hw : w.Integral)
    (h : v.compact = w.compact) : v = w :=
  chars_injective hv hw (String.ofList_injective h)

/-- The kind and the text of a header value tell the value. -/
theorem HeaderSnapshot.ofJson_injective {v w : Json} (hv : v.Integral) (hw : w.Integral)
    (h : ofJson v = ofJson w) : v = w := by
  -- values of different kinds are told apart by the kind
  cases v <;> cases w <;>
    simp only [ofJson, mk.injEq, String.reduceEq, false_and, true_and] at h
  case null.null => rfl
  case bool.bool a b => cases a <;> cases b <;> simp_all [Json.boolChars]
  case number.number m n =>
    refine Json.chars_injective hv hw ?_
    rw [Json.chars, Json.chars, h]
  case string.string s t => rw [h]
  case array.array items others => exact Json.compact_injective hv hw h
  case object.object fields others => exact Json.compact_injective hv hw h

/-- Headers are told by the snapshots of their values. -/
theorem HeaderSnapshot.entries_injective : ∀ headers others : List (String × Json),
    (∀ e ∈ headers, e.2.Integral) → (∀ e ∈ others, e.2.Integral) →
    headers.map (fun e => (e.1, ofJson e.2)) = others.map (fun e => (e.1, ofJson e.2)) →
    headers = others
  | [], [], _, _, _ => rfl
  | [], _ :: _, _, _, h => by simp at h
  | _ :: _, [], _, _, h => by simp at h
  | (key, v) :: headers, (key', w) :: others, hv, hw, h => by
    rw [List.forall_mem_cons] at hv hw
    rw [List.map_cons, List.map_cons, List.cons.injEq, Prod.mk.injEq] at h
    obtain ⟨⟨hkey, hvalue⟩, hrest⟩ := h
    rw [show key = key' from hkey, show v = w from ofJson_injective hv.1 hw.1 hvalue,
      entries_injective headers others hv.2 hw.2 hrest]

/-! ### Bodies -/

theorem Hex.encode_injective {bytes others : List UInt8} (h : encode bytes = encode others) :
    bytes = others := by
  have hdecode := congrArg decode? h
  rw [decode?_encode, decode?_encode] at hdecode
  exact Option.some.inj hdecode

/-- The numbers of an exchange are integers of 64 bits. -/
structure Exchange.Integral (e : Exchange) : Prop where
  headers : ∀ h ∈ e.headers.entries, h.2.Integral
  body : ∀ v, e.body = .json v → v.Integral

/-- The kind and the text of a body tell the body. -/
theorem Body.eq_of_text? {a b : Body} {text : Option String} (ha : ∀ v, a = .json v → v.Integral)
    (hb : ∀ v, b = .json v → v.Integral) (hkind : a.typeName = b.typeName)
    (hat : a.text? = .ok text) (hbt : b.text? = .ok text) : a = b := by
  have htext : a.text? = b.text? := hat.trans hbt.symm
  cases a <;> cases b <;> simp only [typeName, String.reduceEq] at hkind
  case empty.empty => rfl
  case text.text s t => simpa [text?] using htext
  case json.json v w =>
    simp only [text?, Except.ok.injEq, Option.some.injEq] at htext
    rw [Json.compact_injective (ha v rfl) (hb w rfl) htext]
  case bytes.bytes data others =>
    simp only [text?, Except.ok.injEq, Option.some.injEq] at htext
    rw [Hex.encode_injective (String.ofList_injective htext)]
  case opaqueValue.opaqueValue => rfl

/-- A body has a text or none, and the opaque one is without. -/
theorem Body.text?_cases (b : Body) :
    (b = .opaqueValue ∧ b.text? = .error "message body has no textual representation") ∨
      (b ≠ .opaqueValue ∧ ∃ text, b.text? = .ok text) := by
  cases b with
  | opaqueValue => exact .inl ⟨rfl, rfl⟩
  | _ => exact .inr ⟨by simp, _, rfl⟩

/-! ### Snapshots -/

namespace Snapshot

variable {e : Exchange} {node : String} {limit : Nat} {text : Option String}

theorem capture_of_text? (h : e.body.text? = .ok text) :
    capture e node limit = .ok ⟨e.id, e.headers.map HeaderSnapshot.ofJson, e.body.typeName,
      text.map (clip limit)⟩ := by
  rw [capture, h]

/-- There is no snapshot of an opaque body, and of no other. -/
theorem capture_eq_error_iff {failure : Failure} : capture e node limit = .error failure ↔
    e.body = .opaqueValue ∧
      failure = .captureFailed node "message body has no textual representation" := by
  rcases e.body.text?_cases with ⟨hwithout, htext⟩ | ⟨hwithout, text, htext⟩
  · rw [capture, htext, Except.error.injEq, eq_comm]
    exact (and_iff_right hwithout).symm
  · simp [capture_of_text? htext, hwithout]

theorem map_clip_zero (text : Option String) : text.map (clip 0) = text := by
  cases text with
  | none => rfl
  | some s => rw [Option.map_some, clip_zero]

/-- What is captured without a limit tells the exchange. -/
theorem capture_injective {x y : Exchange} (hx : x.Integral) (hy : y.Integral)
    (hxb : x.body ≠ .opaqueValue) (hyb : y.body ≠ .opaqueValue)
    (h : capture x node 0 = capture y node 0) :
    x.id = y.id ∧ x.headers = y.headers ∧ x.body = y.body := by
  obtain ⟨-, text, htext⟩ := x.body.text?_cases.resolve_left fun hwithout => hxb hwithout.1
  obtain ⟨-, other, hother⟩ := y.body.text?_cases.resolve_left fun hwithout => hyb hwithout.1
  rw [capture_of_text? htext, capture_of_text? hother, map_clip_zero, map_clip_zero,
    Except.ok.injEq, Snapshot.mk.injEq] at h
  obtain ⟨hid, hheaders, hkind, rfl⟩ := h
  have hentries := HeaderSnapshot.entries_injective x.headers.entries y.headers.entries
    hx.headers hy.headers (congrArg KeyMap.entries hheaders)
  exact ⟨hid, KeyMap.eq_of_entries hentries, Body.eq_of_text? hx.body hy.body hkind htext hother⟩

/-- A longer text keeps its first `limit` characters, and a note says so. -/
theorem clip_of_pos (h : 0 < limit) (s : String) :
    clip limit s = if s.length ≤ limit then s else
      String.ofList (s.toList.take limit) ++ "... [Body clipped after " ++ toString limit ++
        " chars, total length is " ++ toString s.length ++ "]" := by
  by_cases hs : s.length ≤ limit
  · rw [if_pos hs, clip_of_length_le (by rwa [String.length_toList])]
  · have hcut : ¬(limit = 0 ∨ s.length ≤ limit) := by omega
    rw [if_neg hs, clip]
    simp only [String.length_toList, Bool.or_eq_true, decide_eq_true_eq, if_neg hcut, clipNote,
      String.ofList_append, String.ofList_toList, String.append_assoc]

/-- A limit changes nothing but the text of the body. -/
theorem capture_limited {s : Snapshot} (h : capture e node 0 = .ok s) :
    capture e node limit = .ok { s with body := s.body.map (clip limit) } := by
  rcases e.body.text?_cases with ⟨-, htext⟩ | ⟨-, text, htext⟩
  · rw [capture, htext] at h
    cases h
  · rw [capture_of_text? htext, map_clip_zero] at h
    rw [← Except.ok.inj h, capture_of_text? htext]

/-- **A snapshot loses what a limit clips off, and nothing else.** Exchanges with the same
snapshot without a limit have the same identity, headers and body; there is no snapshot of an
opaque body and of no other; and under a limit a body text that fits is kept, while a longer
one becomes its first characters and a note with both numbers. -/
theorem capture_loses_only_clipped (node : String) :
    (∀ x y : Exchange, x.Integral → y.Integral → x.body ≠ .opaqueValue → y.body ≠ .opaqueValue →
      capture x node 0 = capture y node 0 →
        x.id = y.id ∧ x.headers = y.headers ∧ x.body = y.body) ∧
    (∀ (x : Exchange) (limit : Nat) (failure : Failure), capture x node limit = .error failure ↔
      x.body = .opaqueValue ∧
        failure = .captureFailed node "message body has no textual representation") ∧
    ∀ (x : Exchange) (limit : Nat) (s : Snapshot), 0 < limit → capture x node 0 = .ok s →
      capture x node limit = .ok { s with
        body := s.body.map fun text => if text.length ≤ limit then text else
          String.ofList (text.toList.take limit) ++ "... [Body clipped after " ++ toString limit ++
            " chars, total length is " ++ toString text.length ++ "]" } := by
  refine ⟨fun x y hx hy hxb hyb => capture_injective hx hy hxb hyb,
    fun x limit failure => capture_eq_error_iff, fun x limit s hlimit hs => ?_⟩
  rw [capture_limited hs, funext (clip_of_pos hlimit)]

/-- Two exchanges with a number and the same digits as a text, their headers set in either
order, and a body of five characters in seventeen bytes under a limit of three. -/
theorem capture_loses_only_clipped_sample :
    let first : Exchange := ((Exchange.new "id-1" (.text "🙂ñ漢🙂🙂")).setHeader "n"
      (.number (.int 1))).setHeader "s" (.string "1")
    let second : Exchange := ((Exchange.new "id-1" (.text "🙂ñ漢🙂🙂")).setHeader "s"
      (.string "1")).setHeader "n" (.number (.int 1))
    (first.id = second.id ∧ first.headers = second.headers ∧ first.body = second.body) ∧
    (capture { first with body := .opaqueValue } "probe" 3 = .error
      (.captureFailed "probe" "message body has no textual representation")) ∧
    ∃ s, capture first "probe" 3 = .ok s ∧
      s.body = some "🙂ñ漢... [Body clipped after 3 chars, total length is 5]" := by
  intro first second
  have hentries : first.headers.entries = [("n", .number (.int 1)), ("s", .string "1")] := rfl
  have hsame : first = second := rfl
  have hfirst : first.Integral := by
    refine ⟨?_, fun v hv => by cases hv⟩
    rw [hentries]
    simp only [List.forall_mem_cons, Json.Integral]
    exact ⟨by decide, trivial, by simp⟩
  obtain ⟨htells, hfails, hlimited⟩ := capture_loses_only_clipped "probe"
  refine ⟨htells first second hfirst (hsame ▸ hfirst) ?_ ?_ (by rw [hsame]), ?_, ?_⟩
  · simp [first, Exchange.setHeader, Exchange.new]
  · simp [second, Exchange.setHeader, Exchange.new]
  · exact (hfails _ 3 _).2 ⟨rfl, rfl⟩
  · exact ⟨_, hlimited first 3 _ (by decide) rfl, by decide⟩

end Snapshot

end TraceBacklog
