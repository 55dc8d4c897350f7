/-
# What a configuration text says

A text names fields and gives them values (`Config.Setting`), as the members of an object in any
order, among members that name nothing known, or as the first items of an array in the order of
the fields; white space and the escapes in names and keys are left to the writer. What counts are
the settings alone: the text is read as the default configuration with these settings, if it can
be run with. The written form of a configuration is such a text, so it is read back.

Key definitions: `Config.Setting`, `Config.Setting.Written`, `Config.Members`,
`Config.ObjectText`, `Config.Items`, `Config.ArrayText`.
Key theorems: `Config.decodeChars_of_objectText`, `Config.decodeChars_of_arrayText`,
`Config.foldl_set_perm`, `Config.reads_record`, `Config.text_means_settings`.
-/
import Mathlib.Data.List.Nodup
import TraceBacklog.Config
import TraceBacklog.Proofs.Json.Read
import TraceBacklog.Proofs.Json.Written

namespace TraceBacklog

namespace Config

/-! ### Settings -/

/-- A field and its value. -/
inductive Setting where
  | capacity (n : UInt64)
  | backlogSize (n : UInt64)
  | enabled (b : Bool)
  | lossPolicy (p : LossPolicy)
  | bodyMaxChars (n : UInt64)
deriving DecidableEq

/-- The names of the fields in their order. -/
def fieldNames : List String :=
  ["capacity", "backlog_size", "enabled", "capture_failure_policy", "body_max_chars"]

namespace Setting

def name : Setting → String
  | .capacity _ => "capacity"
  | .backlogSize _ => "backlog_size"
  | .enabled _ => "enabled"
  | .lossPolicy _ => "capture_failure_policy"
  | .bodyMaxChars _ => "body_max_chars"

/-- Replaces the field. -/
def set (s : Setting) (c : Config) : Config :=
  match s with
  | .capacity n => { c with capacity := n }
  | .backlogSize n => { c with backlogSize := n }
  | .enabled b => { c with enabled := b }
  | .lossPolicy p => { c with lossPolicy := p }
  | .bodyMaxChars n => { c with bodyMaxChars := n }

/-- The texts of the value: a number in decimal, a truth value as its word, a policy as its name
or as an object with the name as its one key and `null` as the value. -/
inductive Written : Setting → List Char → Prop
  | capacity (n : UInt64) : Written (.capacity n) (toString n.toNat).toList
  | backlogSize (n : UInt64) : Written (.backlogSize n) (toString n.toNat).toList
  | bodyMaxChars (n : UInt64) : Written (.bodyMaxChars n) (toString n.toNat).toList
  | enabled (b : Bool) : Written (.enabled b) (Json.boolChars b)
  | name {p : LossPolicy} {pieces : List Piece} {key : List Char} (hkey : Spelled pieces key)
      (hname : Denotes pieces p.name.toList) : Written (.lossPolicy p) (quote key)
  | choice {p : LossPolicy} {pieces : List Piece} {before key after before' after' : List Char}
      (hbefore : Blank before) (hkey : Spelled pieces key) (hname : Denotes pieces p.name.toList)
      (hafter : Blank after) (hbefore' : Blank before') (hafter' : Blank after') :
      Written (.lossPolicy p) ('{' :: (before ++ (quote key ++ (after ++ ':' :: (before' ++
        ("null".toList ++ after')))) ++ ['}']))

end Setting

/-! ### Texts -/

/-- A member of an object: a setting, or a name that no field has with any value. -/
inductive Member : Option Setting → List Char → Prop
  | setting {s : Setting} {pieces : List Piece} {before key after before' value after' : List Char}
      (hbefore : Blank before) (hkey : Spelled pieces key) (hname : Denotes pieces s.name.toList)
      (hafter : Blank after) (hbefore' : Blank before') (hvalue : s.Written value)
      (hafter' : Blank after') :
      Member (some s) (before ++ (quote key ++ (after ++ ':' :: (before' ++ (value ++ after')))))
  | other {name : String} {pieces : List Piece} {before key after value : List Char}
      (hbefore : Blank before) (hkey : Spelled pieces key) (hname : Denotes pieces name.toList)
      (hnew : name ∉ fieldNames) (hafter : Blank after) (hvalue : Produces .element value) :
      Member none (before ++ (quote key ++ (after ++ ':' :: value)))

/-- The members of an object, and their settings in the order of the text. -/
inductive Members : List Setting → List Char → Prop
  | member {s? : Option Setting} {cs : List Char} (h : Member s? cs) : Members s?.toList cs
  | members {s? : Option Setting} {settings : List Setting} {cs rest : List Char}
      (h : Member s? cs) (hrest : Members settings rest) :
      Members (s?.toList ++ settings) (cs ++ ',' :: rest)

/-- An object that names these settings, and white space around it. -/
inductive ObjectText : List Setting → List Char → Prop
  | empty {before ws after : List Char} (hbefore : Blank before) (h : Blank ws)
      (hafter : Blank after) : ObjectText [] (before ++ ('{' :: (ws ++ ['}']) ++ after))
  | members {settings : List Setting} {before cs after : List Char} (hbefore : Blank before)
      (h : Members settings cs) (hafter : Blank after) :
      ObjectText settings (before ++ ('{' :: (cs ++ ['}']) ++ after))

/-- The items of an array are the values of these settings. -/
inductive Items : List Setting → List Char → Prop
  | item {s : Setting} {before cs after : List Char} (hbefore : Blank before) (h : s.Written cs)
      (hafter : Blank after) : Items [s] (before ++ (cs ++ after))
  | items {s : Setting} {settings : List Setting} {before cs after rest : List Char}
      (hbefore : Blank before) (h : s.Written cs) (hafter : Blank after)
      (hrest : Items settings rest) :
      Items (s :: settings) (before ++ (cs ++ after) ++ ',' :: rest)

/-- An array of the values of these settings, and white space around it. -/
inductive ArrayText : List Setting → List Char → Prop
  | empty {before ws after : List Char} (hbefore : Blank before) (h : Blank ws)
      (hafter : Blank after) : ArrayText [] (before ++ ('[' :: (ws ++ [']']) ++ after))
  | items {settings : List Setting} {before cs after : List Char} (hbefore : Blank before)
      (h : Items settings cs) (hafter : Blank after) :
      ArrayText settings (before ++ ('[' :: (cs ++ [']']) ++ after))

/-! ### Filling the fields -/

namespace Setting

/-- The field of the record. -/
def field : Setting → Field Slots
  | .capacity _ => .slot "capacity" readSize (·.capacity) (fun s v => { s with capacity := v })
  | .backlogSize _ =>
    .slot "backlog_size" readSize (·.backlogSize) (fun s v => { s with backlogSize := v })
  | .enabled _ => .slot "enabled" readBool (·.enabled) (fun s v => { s with enabled := v })
  | .lossPolicy _ =>
    .slot "capture_failure_policy" LossPolicy.reader (·.lossPolicy)
      (fun s v => { s with lossPolicy := v })
  | .bodyMaxChars _ =>
    .slot "body_max_chars" readSize (·.bodyMaxChars) (fun s v => { s with bodyMaxChars := v })

/-- Fills the slot of the field. -/
def put (s : Setting) (slots : Slots) : Slots :=
  match s with
  | .capacity n => { slots with capacity := some n }
  | .backlogSize n => { slots with backlogSize := some n }
  | .enabled b => { slots with enabled := some b }
  | .lossPolicy p => { slots with lossPolicy := some p }
  | .bodyMaxChars n => { slots with bodyMaxChars := some n }

theorem config_put (s : Setting) (slots : Slots) : (s.put slots).config = s.set slots.config := by
  cases s <;> rfl

theorem find?_field (s : Setting) :
    record.fields.find? (fun f => f.name = s.name) = some s.field := by
  cases s <;> rfl

/-- Filling one slot leaves the others free. -/
theorem isFilled_put {s t : Setting} (h : s.name ≠ t.name) (slots : Slots) :
    t.field.isFilled (s.put slots) = t.field.isFilled slots := by
  -- settings of one field have one name, and other fields have other slots
  cases s <;> cases t <;> first | exact absurd rfl h | rfl

theorem set_comm {s t : Setting} (h : s.name ≠ t.name) (c : Config) :
    s.set (t.set c) = t.set (s.set c) := by
  cases s <;> cases t <;> first | exact absurd rfl h | rfl

theorem find_name (p : LossPolicy) : LossPolicy.variants.find p.name = .ok p := by
  cases p <;> rfl

/-- A number in decimal is read. -/
theorem readSize_written (n : UInt64) :
    (Json.nat n.toNat).draft.WrittenAs (toString n.toNat).toList ∧
      readSize (Json.nat n.toNat).draft = .ok n :=
  ⟨Draft.writtenAs_chars (integral_nat n), (reads_readWord "usize").read n⟩

/-- Whichever way the value is written, it is what the field is filled with. -/
theorem Written.exists_fill {s : Setting} {cs : List Char} (h : s.Written cs) :
    ∃ d : Draft, d.WrittenAs cs ∧ ∀ slots, s.field.fill d slots = .ok (s.put slots) := by
  cases h with
  | capacity n | backlogSize n | bodyMaxChars n =>
    obtain ⟨hwritten, hread⟩ := readSize_written n
    refine ⟨_, hwritten, fun slots => ?_⟩
    rw [field]
    exact Record.fill_slot hread slots
  | enabled b =>
    refine ⟨_, Draft.writtenAs_chars (v := .bool b) trivial, fun slots => ?_⟩
    rw [field]
    exact Record.fill_slot (reads_readBool.read b) slots
  | @name p pieces key hkey hname =>
    have hread : LossPolicy.reader (.text ⟨pieces, none⟩) = .ok p := by
      rw [LossPolicy.reader, Variants.read, TextLiteral.read_of_denotes hname]
      exact find_name p
    refine ⟨_, Draft.writtenAs_quote hkey, fun slots => ?_⟩
    rw [field]
    exact Record.fill_slot hread slots
  | @choice p pieces before key after before' after' hbefore hkey hname hafter hbefore' hafter' =>
    have hread : LossPolicy.reader (.object [(⟨pieces, none⟩, .null)] .closed) = .ok p := by
      rw [LossPolicy.reader, Variants.read, TextLiteral.read_of_denotes hname]
      simp only [bind, Except.bind, find_name, Variants.readNothing]
      rfl
    have hnull : Draft.WrittenAs .null (before' ++ ("null".toList ++ after')) :=
      (Draft.writtenAs_chars (v := .null) trivial).spaced hbefore' hafter'
    have hfield := Draft.fieldWrittenAs_keyed hbefore hkey hafter hnull
    refine ⟨_, (Draft.FieldsWrittenAs.field hfield).object, fun slots => ?_⟩
    rw [field]
    exact Record.fill_slot hread slots

end Setting

/-! ### Objects -/

/-- A member fills the field that it names, and no other member fills any. -/
theorem Member.exists_fill {s? : Option Setting} {cs : List Char} (h : Member s? cs) :
    ∃ key d, Draft.FieldWrittenAs key d cs ∧ ∀ slots rest,
      (∀ s ∈ s?, s.field.isFilled slots = false) →
      record.fillFields slots ((key, d) :: rest) =
        record.fillFields (s?.toList.foldl (fun slots s => s.put slots) slots) rest := by
  cases h with
  | @setting s pieces before key after before' value after' hbefore hkey hname hafter hbefore'
      hvalue hafter' =>
    obtain ⟨d, hd, hfill⟩ := hvalue.exists_fill
    refine ⟨_, d, Draft.fieldWrittenAs_keyed hbefore hkey hafter (hd.spaced hbefore' hafter'),
      fun slots rest hfree => ?_⟩
    exact record.fillFields_known rest (TextLiteral.read_of_denotes hname) s.find?_field
      (hfree s rfl) (hfill slots)
  | @other name pieces before key after value hbefore hkey hname hnew hafter hvalue =>
    obtain ⟨d, hd⟩ := hvalue.exists_writtenAs
    refine ⟨_, d, Draft.fieldWrittenAs_keyed hbefore hkey hafter hd, fun slots rest _ => ?_⟩
    have hfind : record.fields.find? (fun f => f.name = name) = none := by
      refine List.find?_eq_none.mpr fun f hf heq => hnew ?_
      rw [← of_decide_eq_true heq]
      exact List.mem_map_of_mem (f := Field.name) hf
    exact record.fillFields_unknown slots rest (TextLiteral.read_of_denotes hname) hfind hd.whole

/-- Filling other slots leaves a slot free. -/
theorem isFilled_foldl_put {s : Setting} {settings : List Setting}
    (h : s.name ∉ settings.map Setting.name) (slots : Slots) :
    s.field.isFilled (settings.foldl (fun slots s => s.put slots) slots) =
      s.field.isFilled slots := by
  induction settings generalizing slots with
  | nil => rfl
  | cons t settings ih =>
    rw [List.map_cons, List.mem_cons, not_or] at h
    rw [List.foldl_cons, ih h.2, Setting.isFilled_put (Ne.symm h.1)]

/-- The members of an object fill the fields of their settings, whatever stands between them. -/
theorem Members.exists_fill {settings : List Setting} {cs : List Char} (h : Members settings cs)
    (hnodup : (settings.map Setting.name).Nodup) :
    ∃ fields, Draft.FieldsWrittenAs fields cs ∧ ∀ slots,
      (∀ s ∈ settings, s.field.isFilled slots = false) →
      record.fillFields slots fields =
        .ok (settings.foldl (fun slots s => s.put slots) slots) := by
  induction h with
  | @member s? cs h =>
    obtain ⟨key, d, hwritten, hfill⟩ := h.exists_fill
    refine ⟨_, .field hwritten, fun slots hfree => ?_⟩
    rw [hfill slots [] fun s hs => hfree s (Option.mem_toList.2 hs), Record.fillFields]
  | @members s? settings cs rest h hrest ih =>
    rw [List.map_append, List.nodup_append] at hnodup
    obtain ⟨-, hnodup, hdisjoint⟩ := hnodup
    obtain ⟨key, d, hwritten, hfill⟩ := h.exists_fill
    obtain ⟨fields, hwrittenRest, hfillRest⟩ := ih hnodup
    refine ⟨_, .cons hwritten hwrittenRest, fun slots hfree => ?_⟩
    rw [List.forall_mem_append] at hfree
    have hfreeRest : ∀ s ∈ settings,
        s.field.isFilled (s?.toList.foldl (fun slots s => s.put slots) slots) = false := by
      intro s hs
      rw [isFilled_foldl_put fun hmem => hdisjoint _ hmem _ (List.mem_map_of_mem hs) rfl]
      exact hfree.2 s hs
    rw [hfill slots fields fun s hs => hfree.1 s (Option.mem_toList.2 hs), hfillRest _ hfreeRest,
      List.foldl_append]

/-- Settings that were put into slots are settings of the configuration. -/
theorem config_foldl_put (settings : List Setting) (slots : Slots) :
    (settings.foldl (fun slots s => s.put slots) slots).config =
      settings.foldl (fun c s => s.set c) slots.config :=
  (List.foldl_hom Slots.config fun slots s => (s.config_put slots).symm).symm

/-- **An object is read as the default configuration with its settings**, in whichever order
they stand and whatever else the object has. -/
theorem decodeChars_of_objectText {settings : List Setting} {cs : List Char}
    (hnodup : (settings.map Setting.name).Nodup) (h : ObjectText settings cs) :
    decodeChars record.read cs = .ok (settings.foldl (fun c s => s.set c) default) := by
  cases h with
  | empty hbefore h hafter =>
    rw [decodeChars_of_writtenAs ((Draft.writtenAs_emptyObject h).spaced hbefore hafter)]
    rfl
  | members hbefore h hafter =>
    obtain ⟨fields, hwritten, hfill⟩ := h.exists_fill hnodup
    rw [decodeChars_of_writtenAs (hwritten.object.spaced hbefore hafter),
      record.read_object _ (hfill record.start fun s _ => by cases s <;> rfl)]
    exact congrArg Except.ok (config_foldl_put settings record.start)

/-! ### Arrays -/

/-- A field is known by its name. -/
theorem Setting.field_eq {s : Setting} {f : Field Slots} (hf : f ∈ record.fields)
    (h : s.name = f.name) : s.field = f := by
  have hfind : record.fields.find? (fun g => g.name = f.name) = some f := by
    simp only [record, List.mem_cons, List.not_mem_nil, or_false] at hf
    rcases hf with rfl | rfl | rfl | rfl | rfl
    all_goals rfl
  rw [← h, s.find?_field] at hfind
  exact Option.some.inj hfind

theorem field_isPrefix {settings : List Setting} {fields : List (Field Slots)}
    (hfields : ∀ f ∈ fields, f ∈ record.fields)
    (h : settings.map Setting.name <+: fields.map Field.name) :
    settings.map Setting.field <+: fields := by
  induction settings generalizing fields with
  | nil => exact List.nil_prefix
  | cons s settings ih =>
    cases fields with
    | nil => exact absurd (List.prefix_nil.1 h) (List.cons_ne_nil _ _)
    | cons f fields =>
      rw [List.forall_mem_cons] at hfields
      rw [List.map_cons, List.map_cons, List.cons_prefix_cons] at h
      rw [List.map_cons, Setting.field_eq hfields.1 h.1]
      exact (List.prefix_cons_inj f).2 (ih hfields.2 h.2)

theorem fillItems_nil (index : ℕ) (fields : List (Field Slots)) (slots : Slots) :
    record.fillItems none index fields [] slots = .ok slots := by
  cases fields <;> rfl

/-- The items of an array fill the first fields. -/
theorem Items.exists_fill {settings : List Setting} {cs : List Char} (h : Items settings cs) :
    ∃ items, Draft.ItemsWrittenAs items cs ∧ ∀ index fields slots,
      settings.map Setting.field <+: fields →
      record.fillItems none index fields items slots =
        .ok (settings.foldl (fun slots s => s.put slots) slots) := by
  induction h with
  | @item s before cs after hbefore h hafter =>
    obtain ⟨d, hwritten, hfill⟩ := h.exists_fill
    refine ⟨_, .item (hwritten.spaced hbefore hafter), fun index fields slots hprefix => ?_⟩
    obtain ⟨more, rfl⟩ := hprefix
    rw [List.map_singleton, List.singleton_append, Record.fillItems, hfill]
    exact fillItems_nil (index + 1) more (s.put slots)
  | @items s settings before cs after rest hbefore h hafter hrest ih =>
    obtain ⟨d, hwritten, hfill⟩ := h.exists_fill
    obtain ⟨items, hwrittenRest, hfillRest⟩ := ih
    refine ⟨_, .cons (hwritten.spaced hbefore hafter) hwrittenRest,
      fun index fields slots hprefix => ?_⟩
    obtain ⟨more, rfl⟩ := hprefix
    rw [List.map_cons, List.cons_append, Record.fillItems, hfill]
    exact hfillRest (index + 1) _ (s.put slots) (List.prefix_append _ _)

/-- An array of the values of the first fields is read as the default configuration with them. -/
theorem decodeChars_of_arrayText {settings : List Setting} {cs : List Char}
    (hfirst : settings.map Setting.name <+: fieldNames) (h : ArrayText settings cs) :
    decodeChars record.read cs = .ok (settings.foldl (fun c s => s.set c) default) := by
  cases h with
  | empty hbefore h hafter =>
    rw [decodeChars_of_writtenAs ((Draft.writtenAs_emptyArray h).spaced hbefore hafter)]
    rfl
  | items hbefore h hafter =>
    obtain ⟨items, hwritten, hfill⟩ := h.exists_fill
    have hfilled := hfill 0 record.fields record.start
      (field_isPrefix (fun _ hf => hf) hfirst)
    rw [decodeChars_of_writtenAs (hwritten.array.spaced hbefore hafter), Record.read, hfilled]
    exact congrArg Except.ok (config_foldl_put settings record.start)

/-! ### Configurations that were written -/

theorem reads_policy : Reads LossPolicy.reader fun p : LossPolicy => .string p.name :=
  Variants.reads Setting.find_name

/-- What is written of a configuration is read back. -/
theorem reads_record : Reads record.read toJson where
  integral c := by
    have hcapacity := integral_nat c.capacity
    have hsize := integral_nat c.backlogSize
    have hchars := integral_nat c.bodyMaxChars
    simp [toJson, Json.Integral, Json.FieldsIntegral, hcapacity, hsize, hchars]
  read c := by
    refine record.read_object ⟨some c.capacity, some c.backlogSize, some c.enabled,
      some c.lossPolicy, some c.bodyMaxChars⟩ ?_
    have hnumber := (reads_readWord "usize").read
    simp only [Json.fieldDrafts]
    rw [record.fillFields_slot _ rfl rfl (hnumber c.capacity),
      record.fillFields_slot _ rfl rfl (hnumber c.backlogSize),
      record.fillFields_slot _ rfl rfl (reads_readBool.read c.enabled),
      record.fillFields_slot _ rfl rfl (reads_policy.read c.lossPolicy),
      record.fillFields_slot _ rfl rfl (hnumber c.bodyMaxChars)]
    rfl

/-! ### What is accepted -/

theorem ofChars_of_decodeChars {cs : List Char} {c : Config}
    (h : decodeChars record.read cs = .ok c) : ofChars cs = c.validate.map fun _ => c := by
  rw [ofChars, h]

/-- Only what can be run with is accepted. -/
theorem validate_ofChars {cs : List Char} {c : Config} (h : ofChars cs = .ok c) :
    c.validate = .ok () := by
  unfold ofChars at h
  split at h
  · cases h
  · next c' _ =>
    cases hvalid : c'.validate with
    | error f =>
      rw [hvalid] at h
      cases h
    | ok =>
      rw [hvalid] at h
      cases h
      exact hvalid

theorem map_validate (c : Config) : (c.validate.map fun _ => c) =
    if c.capacity = 0 then .error (.invalidConfig "capacity must be a positive number")
    else if c.backlogSize = 0 then .error (.invalidConfig "backlog_size must be a positive number")
    else .ok c := by
  unfold validate
  split_ifs <;> rfl

/-- Settings in another order are the same settings. -/
theorem foldl_set_perm {settings settings' : List Setting} (h : settings.Perm settings')
    (hnodup : (settings.map Setting.name).Nodup) (c : Config) :
    settings.foldl (fun c s => s.set c) c = settings'.foldl (fun c s => s.set c) c := by
  refine h.foldl_eq' (fun s hs t ht c => ?_) c
  by_cases hst : s = t
  · rw [hst]
  · exact Setting.set_comm (fun hname => hst (List.inj_on_of_nodup_map hnodup ht hs hname).symm) c

/-- **A configuration text means its settings, however it is written.** An object that names
settings, no field twice, is read as the default configuration with these settings if capacity
and backlog size are positive, and is refused for the first of them that is not; the order of
the settings does not count. An array of the values of the first fields is read as an object
that names these fields. What is written of a configuration is read back if it is valid, and is
refused for what makes it invalid. So no text is read as a configuration that is not valid. -/
theorem text_means_settings :
    (∀ (settings : List Setting) (cs : List Char), (settings.map Setting.name).Nodup →
      ObjectText settings cs →
      let c := settings.foldl (fun c s => s.set c) default
      ofChars cs =
        if c.capacity = 0 then .error (.invalidConfig "capacity must be a positive number")
        else if c.backlogSize = 0 then
          .error (.invalidConfig "backlog_size must be a positive number")
        else .ok c) ∧
    (∀ (settings settings' : List Setting) (cs cs' : List Char),
      (settings.map Setting.name).Nodup → settings.Perm settings' → ObjectText settings cs →
      ObjectText settings' cs' → ofChars cs = ofChars cs') ∧
    (∀ (settings : List Setting) (cs cs' : List Char),
      settings.map Setting.name <+: fieldNames → ArrayText settings cs →
      ObjectText settings cs' → ofChars cs = ofChars cs') ∧
    (∀ c : Config, ofChars c.toJson.chars =
      match c.validate with
      | .ok () => .ok c
      | .error failure => .error failure) ∧
    ∀ (cs : List Char) (c : Config), ofChars cs = .ok c → c.validate = .ok () := by
  have hnames : fieldNames.Nodup := by decide
  refine ⟨fun settings cs hnodup h => ?_, fun settings settings' cs cs' hnodup hperm h h' => ?_,
    fun settings cs cs' hfirst h h' => ?_, fun c => ?_, fun cs c => validate_ofChars⟩
  · exact (ofChars_of_decodeChars (decodeChars_of_objectText hnodup h)).trans (map_validate _)
  · have hnodup' : (settings'.map Setting.name).Nodup := (hperm.map _).nodup_iff.1 hnodup
    rw [ofChars_of_decodeChars (decodeChars_of_objectText hnodup h),
      ofChars_of_decodeChars (decodeChars_of_objectText hnodup' h'),
      foldl_set_perm hperm hnodup]
  · have hnodup : (settings.map Setting.name).Nodup := hfirst.sublist.nodup hnames
    rw [ofChars_of_decodeChars (decodeChars_of_arrayText hfirst h),
      ofChars_of_decodeChars (decodeChars_of_objectText hnodup h')]
  · rw [ofChars_of_decodeChars (reads_record.decodeChars_chars c)]
    cases c.validate <;> rfl

namespace Sample

/-- Two settings, one of them with an escape in its name, and an array in an array as the value
of an unknown member. -/
def object : List Char :=
  "\x7b\"note\" : [ [ ]], \"\\u0063apacity\" :50,\"backlog_size\":\t7 \x7d\n".toList

/-- The same settings in the other order. -/
def swapped : List Char :=
  "\x7b\"backlog_size\":\t7 , \"\\u0063apacity\" :50\x7d".toList

def array : List Char := " [50 , 7]".toList

def settings : List Setting := [.capacity 50, .backlogSize 7]

theorem blank_tab : Blank ['\t'] := List.forall_mem_singleton.2 rfl

theorem blank_feed : Blank ['\n'] := List.forall_mem_singleton.2 rfl

theorem member_note : Member none "\"note\" : [ [ ]]".toList := by
  have hvalue : Produces .element [' ', '[', ' ', '[', ' ', ']', ']'] :=
    .element blank_space
      (.array (.item (.element blank_space (.emptyArray blank_space) blank_nil))) blank_nil
  convert Member.other blank_nil (spelled_escape "note".toList) (denotes_map_of _)
    (by decide +kernel) blank_space hvalue using 1
  decide +kernel

theorem member_capacity : Member (some (.capacity 50)) " \"\\u0063apacity\" :50".toList := by
  have hkey : Spelled (.unit 0x63 :: "apacity".toList.map Piece.of) "\\u0063apacity".toList :=
    .unit (by decide +kernel) (spelled_escape "apacity".toList)
  have hname : Denotes (.unit 0x63 :: "apacity".toList.map Piece.of)
      (Setting.capacity 50).name.toList :=
    .unit (by decide +kernel) (denotes_map_of "apacity".toList)
  convert Member.setting blank_space hkey hname blank_space blank_nil (.capacity 50)
    blank_nil using 1
  decide +kernel

theorem member_size : Member (some (.backlogSize 7)) "\"backlog_size\":\t7 ".toList := by
  convert Member.setting blank_nil (spelled_escape "backlog_size".toList) (denotes_map_of _)
    blank_nil blank_tab (.backlogSize 7) blank_space using 1
  decide +kernel

theorem objectText : ObjectText settings object := by
  convert ObjectText.members blank_nil (.members member_note (.members member_capacity
    (.member member_size))) blank_feed using 1
  all_goals decide +kernel

theorem objectText_swapped : ObjectText [.backlogSize 7, .capacity 50] swapped := by
  convert ObjectText.members blank_nil (.members member_size (.member member_capacity))
    blank_nil using 1
  all_goals decide +kernel

theorem arrayText : ArrayText settings array := by
  have hitems := Items.items blank_nil (.capacity 50) blank_space
    (.item blank_space (.backlogSize 7) blank_nil)
  convert ArrayText.items blank_space hitems blank_nil using 1
  all_goals decide +kernel

end Sample

/-- Both objects and the array say the same, and it is accepted. -/
theorem text_means_settings_sample :
    let c : Config := { default with capacity := 50, backlogSize := 7 }
    ofChars Sample.object = .ok c ∧ ofChars Sample.swapped = .ok c ∧
      ofChars Sample.array = .ok c ∧ c.validate = .ok () := by
  intro c
  obtain ⟨hobject, hperm, harray, -, hvalid⟩ := text_means_settings
  have hnodup : (Sample.settings.map Setting.name).Nodup := by decide
  have hok : ofChars Sample.object = .ok c := hobject _ _ hnodup Sample.objectText
  have hswapped := hperm _ _ _ _ hnodup (.swap _ _ []) Sample.objectText Sample.objectText_swapped
  have hlisted := harray _ _ _ (by decide) Sample.arrayText Sample.objectText
  exact ⟨hok, hswapped.symm.trans hok, hlisted.trans hok, hvalid _ _ hok⟩

end Config

end TraceBacklog
