/-
# Headers and the history of their edits

Headers are set and removed one at a time. What a key holds in the end is what the last edit of
this key left there, or what it held before there were any (`Exchange.header?_editHeaders`). As
headers are listed in the order of their keys, the headers after two histories are the same
exactly if they hold the same under every key (`Exchange.headers_editHeaders_eq_iff`). So edits of
different keys may come in any order (`Exchange.editHeaders_eq_of_perm`), and no snapshot and no
event tells one history from another (`Exchange.history_does_not_show`).

Key definitions: `HeaderEdit`, `HeaderEdit.lastEffect`, `Exchange.editHeaders`.
Key theorems: `Exchange.header?_editHeaders`, `Exchange.headers_editHeaders_eq_iff`,
`Exchange.history_does_not_show`.
-/
import TraceBacklog.Event.Xml
import TraceBacklog.Proofs.KeyMap
import TraceBacklog.Proofs.Snapshot

namespace TraceBacklog

/-! ### Edits -/

/-- An edit of the headers. -/
inductive HeaderEdit where
  | set (key : String) (value : Json)
  | remove (key : String)

namespace HeaderEdit

def key : HeaderEdit → String
  | .set key _ => key
  | .remove key => key

/-- What the key holds after the edit. -/
def value? : HeaderEdit → Option Json
  | .set _ value => some value
  | .remove _ => none

/-- What the last edit of a key leaves under it, if there is an edit of this key. -/
def lastEffect (edits : List HeaderEdit) (key : String) : Option (Option Json) :=
  (edits.filter (·.key = key)).getLast?.map (·.value?)

theorem lastEffect_cons (edit : HeaderEdit) (rest : List HeaderEdit) (key : String) :
    lastEffect (edit :: rest) key =
      (lastEffect rest key).or (if edit.key = key then some edit.value? else none) := by
  unfold lastEffect
  by_cases h : edit.key = key
  · rw [List.filter_cons_of_pos (by simpa using h), List.getLast?_cons, if_pos h]
    cases (rest.filter (·.key = key)).getLast? <;> rfl
  · rw [List.filter_cons_of_neg (by simpa using h), if_neg h, Option.or_none]

/-- Edits of different keys have the same last effects in any order. -/
theorem lastEffect_eq_of_perm {edits others : List HeaderEdit} (h : edits.Perm others)
    (hkeys : (edits.map (·.key)).Nodup) (key : String) :
    lastEffect edits key = lastEffect others key := by
  have hkeys' : (others.map (·.key)).Nodup := (h.map _).nodup_iff.mp hkeys
  -- the edits that are kept share their key and no two edits do, so at most one is kept
  have hsame : edits.filter (·.key = key) = others.filter (·.key = key) := by
    refine (h.filter _).eq_of_pairwise (fun a b ha hb hne _ => ?_)
      ((List.pairwise_map.mp hkeys).filter _) ((List.pairwise_map.mp hkeys').filter _)
    have hakey : a.key = key := by simpa using (List.mem_filter.mp ha).2
    have hbkey : b.key = key := by simpa using (List.mem_filter.mp hb).2
    exact absurd (hakey.trans hbkey.symm) hne
  rw [lastEffect, lastEffect, hsame]

end HeaderEdit

namespace Exchange

/-- One edit of the headers. -/
def editHeader (x : Exchange) : HeaderEdit → Exchange
  | .set key value => x.setHeader key value
  | .remove key => x.removeHeader key

/-- Edits of the headers, one after the other. -/
def editHeaders (x : Exchange) (edits : List HeaderEdit) : Exchange := edits.foldl editHeader x

variable (x : Exchange)

theorem header?_editHeader (edit : HeaderEdit) (key : String) :
    (x.editHeader edit).header? key = if edit.key = key then edit.value? else x.header? key := by
  cases edit with
  | set k value => exact x.headers.get?_insert k value key
  | remove k => exact x.headers.get?_erase k key

/-- **The last edit of a key decides what it holds.** -/
theorem header?_editHeaders (edits : List HeaderEdit) (key : String) :
    (x.editHeaders edits).header? key =
      (HeaderEdit.lastEffect edits key).getD (x.header? key) := by
  induction edits generalizing x with
  | nil => rfl
  | cons edit rest ih =>
    rw [HeaderEdit.lastEffect_cons, editHeaders, List.foldl_cons, ← editHeaders, ih,
      header?_editHeader]
    cases HeaderEdit.lastEffect rest key with
    | some effect => rfl
    | none =>
      rw [Option.none_or]
      split <;> rfl

/-- Edits of the headers change nothing else. -/
theorem editHeaders_eq (edits : List HeaderEdit) :
    x.editHeaders edits = { x with headers := (x.editHeaders edits).headers } := by
  induction edits generalizing x with
  | nil => rfl
  | cons edit rest ih =>
    rw [editHeaders, List.foldl_cons, ← editHeaders, ih]
    cases edit <;> rfl

variable {x}

theorem headers_eq_iff {y : Exchange} :
    x.headers = y.headers ↔ ∀ key, x.header? key = y.header? key :=
  ⟨fun h key => congrArg (·.get? key) h, KeyMap.eq_of_get?⟩

/-- Histories leave the same headers if and only if they leave the same under every key. -/
theorem headers_editHeaders_eq_iff {y : Exchange} {edits others : List HeaderEdit} :
    (x.editHeaders edits).headers = (y.editHeaders others).headers ↔
      ∀ key, (HeaderEdit.lastEffect edits key).getD (x.header? key) =
        (HeaderEdit.lastEffect others key).getD (y.header? key) := by
  simp only [headers_eq_iff, header?_editHeaders]

/-- Edits with the same last effects have the same result. -/
theorem editHeaders_congr {edits others : List HeaderEdit}
    (h : ∀ key, HeaderEdit.lastEffect edits key = HeaderEdit.lastEffect others key) :
    x.editHeaders edits = x.editHeaders others := by
  have hheaders : (x.editHeaders edits).headers = (x.editHeaders others).headers :=
    headers_editHeaders_eq_iff.mpr fun key => by rw [h key]
  rw [editHeaders_eq, hheaders, ← editHeaders_eq]

/-- Edits of different keys may come in any order. -/
theorem editHeaders_eq_of_perm {edits others : List HeaderEdit} (h : edits.Perm others)
    (hkeys : (edits.map (·.key)).Nodup) : x.editHeaders edits = x.editHeaders others :=
  editHeaders_congr (HeaderEdit.lastEffect_eq_of_perm h hkeys)

/-- **Headers form a map whose history does not show.** After any edits of the headers they are
sorted by the UTF-8 bytes of their keys, without repetition, and hold under each key what the
last edit of this key left there, or what was there before if the key was not edited; identity
and body stay as they were. So edits with the same last effect on every key leave equal headers.
The snapshots are equal and show these headers, if the body has one at all; and events that
differ at most in the snapshots have the same text as XML and as JSON. -/
theorem history_does_not_show (x : Exchange) (edits : List HeaderEdit) :
    let after := x.editHeaders edits
    (after.headers.entries.Pairwise fun a b => utf8Bytes a.1 < utf8Bytes b.1) ∧
    (∀ key value, (key, value) ∈ after.headers.entries ↔ after.header? key = some value) ∧
    (∀ key, after.header? key = (HeaderEdit.lastEffect edits key).getD (x.header? key)) ∧
    after.id = x.id ∧ after.body = x.body ∧
    ∀ others, (∀ key, HeaderEdit.lastEffect others key = HeaderEdit.lastEffect edits key) →
      let again := x.editHeaders others
      again.headers = after.headers ∧
      ∀ node limit,
        Snapshot.capture again node limit = Snapshot.capture after node limit ∧
        (x.body ≠ .opaqueValue → ∃ s, Snapshot.capture after node limit = .ok s ∧
          ∀ key, s.headers.get? key = (after.header? key).map HeaderSnapshot.ofJson) ∧
        ∀ s s', Snapshot.capture after node limit = .ok s →
          Snapshot.capture again node limit = .ok s' → ∀ event : Event,
            (∀ depth, { event with message := s' }.xml depth =
              { event with message := s }.xml depth) ∧
            { event with message := s' }.toJson.chars =
              { event with message := s }.toJson.chars := by
  intro after
  have hafter : after = { x with headers := after.headers } := x.editHeaders_eq edits
  have hbody : after.body = x.body := congrArg (·.body) hafter
  refine ⟨after.headers.ascending_utf8Bytes, fun key value => KeyMap.mem_entries,
    x.header?_editHeaders edits, congrArg (·.id) hafter, hbody, fun others hsame => ?_⟩
  intro again
  have hagain : again = after := editHeaders_congr hsame
  refine ⟨congrArg (·.headers) hagain, fun node limit => ⟨by rw [hagain], fun hclear => ?_, ?_⟩⟩
  · obtain ⟨-, text, htext⟩ := after.body.text?_cases.resolve_left fun h => hclear (hbody ▸ h.1)
    exact ⟨_, Snapshot.capture_of_text? htext, fun key => KeyMap.get?_map _ _ key⟩
  · intro s s' hs hs' event
    rw [hagain, hs] at hs'
    obtain rfl := Except.ok.inj hs'
    exact ⟨fun depth => rfl, rfl⟩

namespace Shuffled

def start : Exchange :=
  ((Exchange.new "x1" (.text "b")).setHeader "a" (.bool true)).setHeader "z" (.string "1")

def edits : List HeaderEdit :=
  [.set "n" (.nat 1), .remove "a", .set "é" .null, .set "n" (.nat 2), .remove "q"]

def others : List HeaderEdit :=
  [.set "q" (.nat 7), .set "n" (.nat 2), .remove "q", .set "a" .null, .set "é" .null, .remove "a"]

theorem lastEffect_others (key : String) :
    HeaderEdit.lastEffect others key = HeaderEdit.lastEffect edits key := by
  by_cases hkey : key ∈ ["a", "n", "q", "é"]
  · rw [List.mem_cons, List.mem_cons, List.mem_cons, List.mem_singleton] at hkey
    rcases hkey with rfl | rfl | rfl | rfl <;> rfl
  · simp only [List.mem_cons, List.not_mem_nil, or_false, not_or] at hkey
    simp [HeaderEdit.lastEffect, others, edits, HeaderEdit.key, Ne.symm hkey.1, Ne.symm hkey.2.1,
      Ne.symm hkey.2.2.1, Ne.symm hkey.2.2.2]

end Shuffled

/-- One history sets a header twice, the other one sets two headers for a while. -/
theorem history_does_not_show_shuffled :
    let after := Shuffled.start.editHeaders Shuffled.edits
    let again := Shuffled.start.editHeaders Shuffled.others
    (∀ key, HeaderEdit.lastEffect Shuffled.others key =
      HeaderEdit.lastEffect Shuffled.edits key) ∧
    again.headers = after.headers ∧
    Shuffled.start.body ≠ .opaqueValue ∧
    ∃ s s', Snapshot.capture after "to1" 0 = .ok s ∧ Snapshot.capture again "to1" 0 = .ok s' ∧
      s.headers.entries =
        [("n", ⟨"number", "2"⟩), ("z", ⟨"string", "1"⟩), ("é", ⟨"null", ""⟩)] ∧
      (Event.mk 1 .epoch none "to1" true s').xml 2 = (Event.mk 1 .epoch none "to1" true s).xml 2 ∧
      (Event.mk 1 .epoch none "to1" true s').toJson.chars =
        (Event.mk 1 .epoch none "to1" true s).toJson.chars := by
  intro after again
  obtain ⟨-, -, -, -, -, hsame⟩ := history_does_not_show Shuffled.start Shuffled.edits
  obtain ⟨hheaders, hcaptures⟩ := hsame Shuffled.others Shuffled.lastEffect_others
  have hbody : Shuffled.start.body ≠ .opaqueValue := by
    rintro ⟨⟩
  obtain ⟨hsnapshots, hexists, hevents⟩ := hcaptures "to1" 0
  obtain ⟨s, hs, -⟩ := hexists hbody
  have hs' := hsnapshots.trans hs
  obtain ⟨hxml, hjson⟩ := hevents s s hs hs' (Event.mk 1 .epoch none "to1" true s)
  refine ⟨Shuffled.lastEffect_others, hheaders, hbody, s, s, hs, hs', ?_, hxml 2, hjson⟩
  cases hs
  decide

end Exchange

end TraceBacklog
