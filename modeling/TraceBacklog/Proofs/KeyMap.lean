/-
# Maps as functions

A map lists each key once, so what is listed is what is found (`KeyMap.mem_entries`); and it
lists the keys in their order, so maps in which the same is found are one map, whatever was done
to them (`KeyMap.eq_of_get?`). Texts as keys are in the order of their UTF-8 bytes
(`lt_iff_utf8Bytes_lt`): the bytes of a greater character are greater at the first place where
they differ, and there is such a place.

Key definitions: `utf8Bytes`.
Key theorems: `KeyMap.get?_map`, `KeyMap.mem_entries`, `KeyMap.eq_of_get?`, `KeyMap.map_insert`,
`lt_iff_utf8Bytes_lt`, `KeyMap.ascending_utf8Bytes`.
-/
import Mathlib.Data.List.Perm.Basic
import Mathlib.Tactic.Common
import TraceBacklog.KeyMap

namespace TraceBacklog

namespace KeyMap

variable {κ α : Type}

theorem mem_of_findEntry [DecidableEq κ] {entries : List (κ × α)} {key : κ} {value : α}
    (h : findEntry key entries = some value) : (key, value) ∈ entries := by
  induction entries with
  | nil => cases h
  | cons entry rest ih =>
    obtain ⟨k, v⟩ := entry
    rw [findEntry] at h
    split at h
    · next hk =>
      cases h
      exact hk ▸ List.mem_cons_self
    · exact List.mem_cons_of_mem _ (ih h)

theorem findEntry_map {β : Type} [DecidableEq κ] (f : α → β) (key : κ)
    (entries : List (κ × α)) :
    findEntry key (entries.map fun e => (e.1, f e.2)) = (findEntry key entries).map f := by
  induction entries with
  | nil => rfl
  | cons entry rest ih =>
    rw [List.map_cons, findEntry, findEntry, ih]
    split <;> rfl

/-- The same is found with other values. -/
theorem get?_map {β : Type} [LT κ] [DecidableEq κ] (f : α → β) (m : KeyMap κ α) (key : κ) :
    (m.map f).get? key = (m.get? key).map f := findEntry_map f key m.entries

variable [LT κ] [LE κ] [Std.LawfulOrderLT κ]

section Entries

variable [DecidableEq κ]

theorem findEntry_of_mem {entries : List (κ × α)} (h : Ascending entries) {key : κ} {value : α}
    (hmem : (key, value) ∈ entries) : findEntry key entries = some value := by
  induction entries with
  | nil => cases hmem
  | cons entry rest ih =>
    obtain ⟨k, v⟩ := entry
    obtain ⟨hfirst, hrest⟩ := List.pairwise_cons.mp h
    rcases List.mem_cons.mp hmem with heq | hmem
    · cases heq
      exact if_pos rfl
    · have hlt : k < key := hfirst _ hmem
      have hne : k ≠ key := fun heq => Std.lt_irrefl (heq ▸ hlt)
      rw [findEntry, if_neg hne]
      exact ih hrest hmem

/-- What is listed is what is found. -/
theorem mem_entries {m : KeyMap κ α} {key : κ} {value : α} :
    (key, value) ∈ m.entries ↔ m.get? key = some value :=
  ⟨findEntry_of_mem m.ascending, mem_of_findEntry⟩

end Entries

theorem nodup_entries (m : KeyMap κ α) : m.entries.Nodup := by
  refine m.ascending.imp fun {a b} hlt heq => ?_
  rw [heq] at hlt
  exact Std.lt_irrefl hlt

/-- **Maps in which the same is found are equal.** -/
theorem eq_of_get? [Std.IsPreorder κ] [DecidableEq κ] {m n : KeyMap κ α}
    (h : ∀ key, m.get? key = n.get? key) : m = n := by
  have hmem : ∀ entry, entry ∈ m.entries ↔ entry ∈ n.entries := by
    rintro ⟨key, value⟩
    rw [mem_entries, mem_entries, h]
  have hperm : m.entries.Perm n.entries :=
    (List.perm_ext_iff_of_nodup m.nodup_entries n.nodup_entries).mpr hmem
  refine eq_of_entries (hperm.eq_of_pairwise (fun a b _ _ hab hba => ?_) m.ascending n.ascending)
  exact absurd (Std.lt_trans hab hba) Std.lt_irrefl

theorem map_insert {β : Type} [DecidableLT κ] [Std.IsLinearOrder κ] [DecidableEq κ] (f : α → β)
    (m : KeyMap κ α) (key : κ) (value : α) :
    (m.insert key value).map f = (m.map f).insert key (f value) := by
  refine eq_of_get? fun other => ?_
  rw [get?_map, get?_insert, get?_insert, get?_map]
  split <;> rfl

end KeyMap

/-! ### The order of texts -/

/-- The UTF-8 bytes of a text. -/
def utf8Bytes (s : String) : List UInt8 := s.toUTF8.data.toList

theorem utf8Bytes_eq_flatMap (s : String) :
    utf8Bytes s = s.toList.flatMap String.utf8EncodeChar := by
  rw [utf8Bytes, String.toUTF8, ← String.utf8Encode_toList, List.utf8Encode, List.data_toByteArray]

/-- The bytes of two characters compare as the characters do, whatever follows them: none are
the beginning of others. -/
theorem utf8EncodeChar_append_lt {c d : Char} (h : c < d) (first second : List UInt8) :
    String.utf8EncodeChar c ++ first < String.utf8EncodeChar d ++ second := by
  have hlt : c.val.toNat < d.val.toNat := h
  have hmax : d.val.toNat < 0x110000 := by
    rcases d.valid with hlow | hhigh
    · exact Nat.lt_trans hlow (by decide)
    · exact hhigh.2
  -- Behind marks that grow with the length the bytes hold the digits to the base 64, so the
  -- highest digit that differs decides. The cases are the lengths of both characters.
  have hc := Nat.div_div_eq_div_mul c.val.toNat
  have hd := Nat.div_div_eq_div_mul d.val.toNat
  have hc₁ := hc 64 64
  have hc₂ := hc 4096 64
  have hd₁ := hd 64 64
  have hd₂ := hd 4096 64
  simp only [String.utf8EncodeChar]
  split_ifs <;>
    simp (disch := omega) only [List.cons_append, List.nil_append, List.cons_lt_cons_iff,
      UInt8.lt_iff_toNat_lt, ← UInt8.toNat_inj, UInt8.toNat_ofNat', Nat.mod_eq_of_lt] <;>
    omega

theorem flatMap_utf8EncodeChar_lt {cs ds : List Char} (h : cs < ds) :
    cs.flatMap String.utf8EncodeChar < ds.flatMap String.utf8EncodeChar := by
  induction h with
  | @nil d ds =>
    obtain ⟨b, bs, hb⟩ := List.exists_cons_of_ne_nil (String.utf8EncodeChar_ne_nil (c := d))
    rw [List.flatMap_nil, List.flatMap_cons, hb]
    exact List.nil_lt_cons _ _
  | rel hlt =>
    rw [List.flatMap_cons, List.flatMap_cons]
    exact utf8EncodeChar_append_lt hlt _ _
  | cons _ ih =>
    rw [List.flatMap_cons, List.flatMap_cons]
    exact List.append_left_lt ih

/-- **The order of texts is the order of their UTF-8 bytes.** -/
theorem lt_iff_utf8Bytes_lt {s t : String} : s < t ↔ utf8Bytes s < utf8Bytes t := by
  rw [utf8Bytes_eq_flatMap, utf8Bytes_eq_flatMap]
  refine ⟨flatMap_utf8EncodeChar_lt, fun h => ?_⟩
  by_contra hnot
  by_cases hne : s = t
  · exact List.lt_irrefl _ (hne ▸ h)
  · have hgt : t < s := lt_of_not_lt_of_ne hnot hne
    exact List.lt_irrefl _ (List.lt_trans h (flatMap_utf8EncodeChar_lt hgt))

/-- A map with texts as keys lists them by their UTF-8 bytes, and none of them twice. -/
theorem KeyMap.ascending_utf8Bytes {α : Type} (m : KeyMap String α) :
    m.entries.Pairwise fun a b => utf8Bytes a.1 < utf8Bytes b.1 :=
  m.ascending.imp lt_iff_utf8Bytes_lt.mp

end TraceBacklog
