/-
# Factories that count labels

A factory that counts labels answers a request for an id with the label and a number. The number
goes on from the count of this label alone (`IdFactory.create_serve_counting`), so the ids of a
label are the label with 1, 2, 3 and so on, whatever is asked in between
(`IdFactory.idsOf_calls_fresh`). Where a label without a digit at its end stops and the number
begins can be seen, so the ids of such labels are all different (`IdFactory.counts_each_label`).
A label with a digit at its end may run into the numbers of another one.

Key definitions: `IdFactory.serve`, `IdFactory.countOf`, `IdFactory.calls`, `IdFactory.idsOf`,
`NoDigitLast`.
Key theorems: `IdFactory.create_serve_counting`, `IdFactory.idsOf_calls_fresh`,
`label_eq_of_append_toString_eq`, `IdFactory.counts_each_label`.
-/
import Mathlib.Data.List.Induction
import Mathlib.Data.List.Nodup
import Mathlib.Tactic.Common
import TraceBacklog.Node
import TraceBacklog.Proofs.Number.Decimal

namespace TraceBacklog

/-! ### What a factory counts -/

namespace IdFactory

/-- The factory after it was asked for ids for these labels. -/
def serve (f : IdFactory) (labels : List String) : IdFactory :=
  labels.foldl (fun f label => (f.create label).2) f

theorem serve_append (f : IdFactory) (first rest : List String) :
    f.serve (first ++ rest) = (f.serve first).serve rest := List.foldl_append

/-- How often a factory with these counts was asked for the label. -/
def countOf (counts : KeyMap String UInt64) (label : String) : UInt64 := (counts.get? label).getD 0

/-- A factory that counts labels goes on from its counts. -/
theorem exists_serve_counting (counts : KeyMap String UInt64) (labels : List String) :
    ∃ counts', (counting counts).serve labels = .counting counts' ∧
      ∀ label, countOf counts' label = countOf counts label + UInt64.ofNat (labels.count label) := by
  induction labels generalizing counts with
  | nil => exact ⟨counts, rfl, fun label => (UInt64.add_zero _).symm⟩
  | cons first rest ih =>
    obtain ⟨counts', hserve, hcounts⟩ := ih (counts.insert first (countOf counts first + 1))
    refine ⟨counts', hserve, fun label => ?_⟩
    have hinsert : countOf (counts.insert first (countOf counts first + 1)) label =
        if first = label then countOf counts label + 1 else countOf counts label := by
      rw [countOf, KeyMap.get?_insert]
      by_cases hfirst : first = label
      · rw [if_pos hfirst, if_pos hfirst, hfirst]
        rfl
      · rw [if_neg hfirst, if_neg hfirst]
        rfl
    rw [hcounts, hinsert, List.count_cons]
    by_cases hfirst : first = label
    · rw [if_pos hfirst, if_pos (beq_iff_eq.mpr hfirst), UInt64.ofNat_add, UInt64.add_assoc,
        UInt64.add_comm 1]
      rfl
    · rw [if_neg hfirst, if_neg (by simpa using hfirst), Nat.add_zero]

/-- The number in the next id is one more than the count so far, as a word. -/
theorem create_serve_counting (counts : KeyMap String UInt64) (labels : List String)
    (label : String) :
    (((counting counts).serve labels).create label).1 = label ++
      toString (((countOf counts label).toNat + labels.count label + 1) % UInt64.size) := by
  obtain ⟨counts', hserve, hcounts⟩ := exists_serve_counting counts labels
  have hnumber : (countOf counts' label + 1).toNat =
      ((countOf counts label).toNat + labels.count label + 1) % UInt64.size := by
    rw [hcounts, UInt64.toNat_add, UInt64.toNat_add, UInt64.toNat_ofNat']
    show ((_ + labels.count label % UInt64.size) % UInt64.size + 1) % UInt64.size = _
    rw [Nat.add_mod_mod, Nat.mod_add_mod]
  rw [hserve, ← hnumber]
  rfl

/-- The next id of a factory is the label and how often it was asked for it, this time
included. -/
theorem create_serve_fresh {labels : List String} {label : String}
    (hfew : labels.count label + 1 < UInt64.size) :
    ((fresh.serve labels).create label).1 = label ++ toString (labels.count label + 1) := by
  have hcount : (countOf .empty label).toNat = 0 := rfl
  rw [fresh, create_serve_counting, hcount, Nat.zero_add, Nat.mod_eq_of_lt hfew]

end IdFactory

/-! ### Labels and numbers -/

theorem number_eq_of_toString_eq {j k : ℕ} (h : toString j = toString k) : j = k := by
  have hdigits : Nat.toDigits 10 j = Nat.toDigits 10 k := by
    rw [← toList_toString, ← toList_toString, h]
  calc j = denote (digits j) := (denote_digits j).symm
    _ = denote (digits k) := by rw [digits, hdigits, digits]
    _ = k := denote_digits k

/-- The last character of the text is not a digit. -/
def NoDigitLast (s : String) : Prop := NoDigit s.toList.reverse

/-- Where a label without a digit at its end stops and the number begins can be seen. -/
theorem label_eq_of_append_toString_eq {l m : String} (hl : NoDigitLast l) (hm : NoDigitLast m)
    {j k : ℕ} (h : l ++ toString j = m ++ toString k) : l = m := by
  have hdigit (n : ℕ) : ∀ c ∈ (Nat.toDigits 10 n).reverse, c.isDigit = true := fun c hc =>
    isDigit_of_mem_toDigits (List.mem_reverse.mp hc)
  have hdrop {s : String} (hs : NoDigitLast s) (n : ℕ) :
      (s ++ toString n).toList.reverse.dropWhile Char.isDigit = s.toList.reverse := by
    rw [String.toList_append, toList_toString, List.reverse_append,
      List.dropWhile_append_of_pos (hdigit n), NoDigit.dropWhile hs]
  have hreverse : l.toList.reverse = m.toList.reverse := by rw [← hdrop hl j, h, hdrop hm k]
  exact String.toList_injective (List.reverse_injective hreverse)

theorem not_noDigitLast_append_toString (label : String) (k : ℕ) :
    ¬ NoDigitLast (label ++ toString k) := by
  intro h
  have hne : Nat.toDigits 10 k ≠ [] := Nat.toDigits_ne_nil
  have hlast : (Nat.toDigits 10 k).getLast hne ∈ (label ++ toString k).toList.reverse.head? := by
    rw [List.head?_reverse, String.toList_append, toList_toString,
      List.getLast?_append_of_ne_nil _ hne, List.getLast?_eq_some_getLast hne]
    rfl
  have hdigit := isDigit_of_mem_toDigits (List.getLast_mem hne)
  rw [h _ hlast] at hdigit
  cases hdigit

theorem append_toString_injective (label : String) :
    Function.Injective fun k : ℕ => label ++ toString k := fun _ _ h =>
  number_eq_of_toString_eq ((String.append_right_inj label).mp h)

/-! ### Calls one after the other -/

namespace IdFactory

/-- The labels that a factory is asked for, each with the id that it makes up. -/
def calls (f : IdFactory) : List String → List (String × String)
  | [] => []
  | label :: rest => (label, (f.create label).1) :: (f.create label).2.calls rest

/-- The ids of the calls for one label. -/
def idsOf (label : String) (calls : List (String × String)) : List String :=
  (calls.filter (·.1 = label)).map (·.2)

theorem map_fst_calls (f : IdFactory) (labels : List String) :
    (f.calls labels).map (·.1) = labels := by
  induction labels generalizing f with
  | nil => rfl
  | cons label rest ih => rw [calls, List.map_cons, ih]

/-- The last call is made to the factory that served the others. -/
theorem calls_append_singleton (f : IdFactory) (labels : List String) (label : String) :
    f.calls (labels ++ [label]) =
      f.calls labels ++ [(label, ((f.serve labels).create label).1)] := by
  induction labels generalizing f with
  | nil => rfl
  | cons first rest ih =>
    rw [List.cons_append, calls, ih]
    rfl

theorem idsOf_append (label : String) (first rest : List (String × String)) :
    idsOf label (first ++ rest) = idsOf label first ++ idsOf label rest := by
  rw [idsOf, List.filter_append, List.map_append, idsOf, idsOf]

/-- **The ids of a label are the label with 1, 2, 3 and so on**, whatever is asked in between. -/
theorem idsOf_calls_fresh {labels : List String} {label : String}
    (hfew : labels.count label < UInt64.size) :
    idsOf label (fresh.calls labels) =
      (List.range' 1 (labels.count label)).map fun k => label ++ toString k := by
  induction labels using List.reverseRecOn with
  | nil => rfl
  | append_singleton labels last ih =>
    rw [List.count_append] at hfew ⊢
    rw [calls_append_singleton, idsOf_append, ih (by omega)]
    by_cases hlast : last = label
    · subst hlast
      rw [List.count_singleton_self] at hfew ⊢
      rw [create_serve_fresh hfew, List.range'_1_concat, List.map_append, Nat.add_comm 1]
      simp [idsOf]
    · simp [idsOf, hlast]

theorem nodup_idsOf_calls_fresh {labels : List String} {label : String}
    (hfew : labels.count label < UInt64.size) : (idsOf label (fresh.calls labels)).Nodup := by
  rw [idsOf_calls_fresh hfew]
  exact (List.nodup_range' 1).map (append_toString_injective label)

theorem mem_idsOf {label id : String} {calls : List (String × String)} :
    id ∈ idsOf label calls ↔ (label, id) ∈ calls := by
  simp [idsOf]

/-- **A factory counts each label on its own and does not repeat itself.** It is asked for ids
for any labels, none of them more often than a word can count. The calls for a label are answered
with the label and 1, 2, 3 and so on in this order, whatever labels are asked in between; and the
answers to all calls for labels without a digit at their end are different from each other. -/
theorem counts_each_label {labels : List String}
    (hfew : ∀ label, labels.count label < UInt64.size) :
    (fresh.calls labels).map (·.1) = labels ∧
    (∀ label, idsOf label (fresh.calls labels) =
      (List.range' 1 (labels.count label)).map fun k => label ++ toString k) ∧
    (fresh.calls labels).Pairwise fun a b => NoDigitLast a.1 → NoDigitLast b.1 → a.2 ≠ b.2 := by
  refine ⟨map_fst_calls _ _, fun label => idsOf_calls_fresh (hfew label), ?_⟩
  have hnumbered : ∀ call ∈ fresh.calls labels, ∃ k : ℕ, call.2 = call.1 ++ toString k := by
    rintro ⟨label, id⟩ hcall
    have hid := mem_idsOf.mpr hcall
    rw [idsOf_calls_fresh (hfew label)] at hid
    obtain ⟨k, -, hk⟩ := List.mem_map.mp hid
    exact ⟨k, hk.symm⟩
  refine List.pairwise_iff_forall_sublist.mpr fun {a b} hsub ha hb heq => ?_
  obtain ⟨j, hj⟩ := hnumbered a (hsub.subset (by simp))
  obtain ⟨k, hk⟩ := hnumbered b (hsub.subset (by simp))
  -- calls with the same id are calls for one label, and this one is not answered twice alike
  have hlabel : a.1 = b.1 := label_eq_of_append_toString_eq ha hb (hj.symm.trans (heq.trans hk))
  have hpair : [a.2, b.2].Sublist (idsOf a.1 (fresh.calls labels)) := by
    simpa [idsOf, hlabel] using (hsub.filter (·.1 = a.1)).map (·.2)
  exact (List.nodup_cons.mp ((nodup_idsOf_calls_fresh (hfew a.1)).sublist hpair)).1 (by simp [heq])

/-- The number of a label goes on across other labels, also across the empty one. -/
theorem counts_each_label_interleaved :
    let labels := ["to", "log", "to", "", "to1", "to"]
    (∀ label, labels.count label < UInt64.size) ∧
    idsOf "to" (fresh.calls labels) = ["to1", "to2", "to3"] ∧
    List.Pairwise (fun a b => NoDigitLast a.1 → NoDigitLast b.1 → a.2 ≠ b.2)
      [("to", "to1"), ("log", "log1"), ("to", "to2"), ("", "1"), ("to1", "to11"),
        ("to", "to3")] := by
  intro labels
  have hfew : ∀ label, labels.count label < UInt64.size := fun label =>
    Nat.lt_of_le_of_lt List.count_le_length (show labels.length < UInt64.size by decide)
  obtain ⟨-, hids, hapart⟩ := counts_each_label hfew
  exact ⟨hfew, hids "to", hapart⟩

/-- With a digit at the end of a label two labels come to one id. -/
example : let calls := fresh.calls (List.replicate 11 "to" ++ ["to1"])
    ("to", "to11") ∈ calls ∧ ("to1", "to11") ∈ calls := by decide +kernel

end IdFactory

end TraceBacklog
