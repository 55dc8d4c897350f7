/-
# Readers that read back what was written

A reader reads a writer back (`Reads`) when it takes from the draft of whatever was
written exactly the value that it was written for. Reading back holds for the single
values, passes to maps, and to records field by field (`Record.fillFields_slot`); from
the draft it passes to the text (`Reads.decodeChars_chars`).

Key definitions: `Reads`.
Key theorems: `Reads.decodeChars_chars`, `Reads.readMap`, `Record.fillFields_slot`.
-/
import TraceBacklog.Proofs.Json.Chars

namespace TraceBacklog

/-- The reader `r` takes back what `w` writes. -/
structure Reads {α : Type} (r : Reader α) (w : α → Json) : Prop where
  integral : ∀ a, (w a).Integral
  read : ∀ a, r (w a).draft = .ok a

variable {α σ : Type} {r : Reader α} {w : α → Json}

/-- **What is read back from drafts is read back from texts.** -/
theorem Reads.decodeChars_chars (h : Reads r w) (a : α) :
    decodeChars r (w a).chars = .ok a := by
  simp [decodeChars, Document.ofChars_chars (h.integral a), Document.decode, h.read a, stopAt,
    bind, Except.bind, pure, Except.pure]

theorem reads_readText : Reads readText .string where
  integral s := by rw [Json.Integral]; trivial
  read s := by rw [Json.draft, readText, TextLiteral.read_of]

theorem reads_readBool : Reads readBool .bool where
  integral b := by rw [Json.Integral]; trivial
  read b := by rw [Json.draft, readBool]

theorem integral_nat (n : UInt64) : (Json.nat n.toNat).Integral := by
  have hn : n.toNat < wordBound := n.toNat_lt
  rw [Json.nat, Json.Integral]
  omega

theorem reads_readWord (expected : String) : Reads (readWord expected) (.nat ·.toNat) where
  integral := integral_nat
  read n := by
    have hn : n.toNat < wordBound := n.toNat_lt
    have hread : (Literal.ofInt n.toNat).read = .ok (.int n.toNat) :=
      Literal.read_ofInt (by omega) (by omega)
    simp [Json.nat, Json.draft, readWord, hread, bind, Except.bind]

/-- A value that is there is read as such, if it is not written as `null`. -/
theorem Reads.readOption (h : Reads r w) (a : α) (hnull : (w a).draft ≠ .null) :
    readOption r (w a).draft = .ok (some a) := by
  unfold TraceBacklog.readOption
  split
  · next heq => exact absurd heq hnull
  · rw [h.read a]
    rfl

/-- A choice that can be found by its name is read from it. -/
theorem Variants.reads {v : Variants α} {name : α → String} (h : ∀ a, v.find (name a) = .ok a) :
    Reads v.read fun a => .string (name a) where
  integral a := by rw [Json.Integral]; trivial
  read a := by
    rw [Json.draft, Variants.read, TextLiteral.read_of]
    exact h a

/-! ### Maps -/

/-- Entries that continue a map in the order of their keys are read into it. -/
theorem Reads.readEntries (h : Reads r w) : ∀ (m : KeyMap String α) (rest : List (String × α))
    (hall : Ascending (m.entries ++ rest)),
    readEntries r m (Json.fieldDrafts (rest.map fun e => (e.1, w e.2))) =
      .ok ⟨m.entries ++ rest, hall⟩
  | m, [], hall => by
    rw [List.map_nil, Json.fieldDrafts, TraceBacklog.readEntries]
    simp
  | m, (key, a) :: rest, hall => by
    -- the key is above the keys read so far, so its entry goes to the end
    have hbelow : ∀ e ∈ m.entries, e.1 < key := fun e he =>
      (List.pairwise_append.1 hall).2.2 e he (key, a) List.mem_cons_self
    have hinsert : (m.insert key a).entries = m.entries ++ [(key, a)] :=
      insertEntry_of_forall_lt a hbelow
    have hsplit : (m.insert key a).entries ++ rest = m.entries ++ (key, a) :: rest := by
      rw [hinsert, List.append_assoc, List.singleton_append]
    have hrest := Reads.readEntries h (m.insert key a) rest (hsplit ▸ hall)
    rw [List.map_cons, Json.fieldDrafts, TraceBacklog.readEntries]
    simp only [TextLiteral.read_of, h.read a, bind, Except.bind, hrest, hsplit]

theorem Reads.integral_fields (h : Reads r w) (entries : List (String × α)) :
    Json.FieldsIntegral (entries.map fun e => (e.1, w e.2)) := by
  induction entries with
  | nil => rw [List.map_nil, Json.FieldsIntegral]; trivial
  | cons e entries ih => rw [List.map_cons, Json.FieldsIntegral]; exact ⟨h.integral e.2, ih⟩

/-- A map of what is read back is read back. -/
theorem Reads.readMap (h : Reads r w) : Reads (readMap r) fun m => .ofMap (m.map w) where
  integral m := by
    rw [Json.ofMap, Json.Integral]
    exact h.integral_fields m.entries
  read m := by
    have hentries := h.readEntries .empty m.entries m.ascending
    rw [Json.ofMap, Json.draft, TraceBacklog.readMap]
    show (TraceBacklog.readEntries r .empty
      (Json.fieldDrafts (m.entries.map fun e => (e.1, w e.2))) >>= _) = _
    rw [hentries]
    rfl

/-! ### Records -/

namespace Record

/-- A known field that is free is filled. -/
theorem fillFields_known (rec : Record σ α) {name : String} {key : TextLiteral} {d : Draft}
    {f : Field σ} {s s' : σ} (rest : List (TextLiteral × Draft)) (hkey : key.read = .ok name)
    (hfind : rec.fields.find? (fun f => f.name = name) = some f) (hfree : f.isFilled s = false)
    (hfill : f.fill d s = .ok s') :
    rec.fillFields s ((key, d) :: rest) = rec.fillFields s' rest := by
  rw [fillFields]
  simp [hkey, hfind, hfree, hfill, bind, Except.bind]

/-- An unknown field is passed over. -/
theorem fillFields_unknown (rec : Record σ α) {name : String} {key : TextLiteral} {d : Draft}
    (s : σ) (rest : List (TextLiteral × Draft)) (hkey : key.read = .ok name)
    (hfind : rec.fields.find? (fun f => f.name = name) = none) (hskip : d.skip = none) :
    rec.fillFields s ((key, d) :: rest) = rec.fillFields s rest := by
  rw [fillFields]
  simp [hkey, hfind, hskip, stopAt, bind, Except.bind]

theorem fill_slot {β : Type} {name : String} {r : Reader β} {get : σ → Option β}
    {set : σ → Option β → σ} {d : Draft} {b : β} (hread : r d = .ok b) (s : σ) :
    (Field.slot name r get set).fill d s = .ok (set s (some b)) := by
  simp [Field.slot, hread, bind, Except.bind, pure, Except.pure]

/-- A field whose slot is free takes what its reader finds. -/
theorem fillFields_slot {β : Type} (rec : Record σ α) {name : String} {r : Reader β}
    {get : σ → Option β} {set : σ → Option β → σ} {s : σ} {d : Draft} {b : β}
    (rest : List (TextLiteral × Draft))
    (hfind : rec.fields.find? (fun f => f.name = name) = some (.slot name r get set))
    (hfree : get s = none) (hread : r d = .ok b) :
    rec.fillFields s ((.of name, d) :: rest) = rec.fillFields (set s (some b)) rest :=
  rec.fillFields_known rest (TextLiteral.read_of name) hfind (by simp [Field.slot, hfree])
    (fill_slot hread s)

/-- A record is made of the slots that its fields filled. -/
theorem read_object (rec : Record σ α) {fields : List (TextLiteral × Draft)} (s : σ)
    (h : rec.fillFields rec.start fields = .ok s) :
    rec.read (.object fields .closed) = rec.finish s := by
  simp [read, h, FieldsEnd.fault?, stopAt, bind, Except.bind]

end Record

end TraceBacklog
