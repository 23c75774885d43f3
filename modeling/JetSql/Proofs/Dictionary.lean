/-
The order of dictionaries.

A dictionary that was put together by inserting is `Sorted`: its entries are listed in ascending order
of their keys, and no key is listed twice. Then what is listed and what is looked up are the same.

* **`Sorted.mem_iff`:** an entry is listed exactly if its value is found at its key.
* **`ofList_congr`:** a dictionary does not depend on the order in which its entries were put in,
  unless one key was given two values.
-/

import JetSql.Dictionary
import Mathlib.Data.List.Induction
import Mathlib.Data.List.Sort
import Mathlib.Data.String.Basic

namespace JetSql.Dictionary

variable {key value : String} {entries entries' : List (String × String)} {dictionary : Dictionary}

/-! ### What is listed -/

theorem mem_of_lookupEntry (h : lookupEntry key entries = some value) : (key, value) ∈ entries := by
  fun_induction lookupEntry key entries with
  | case1 => cases h
  | case2 =>
    cases h
    exact List.mem_cons_self
  | case3 _ _ _ _ ih => exact List.mem_cons_of_mem _ (ih h)

theorem forall_mem_insertEntry {p : String × String → Prop} (hentry : p (key, value))
    (hentries : ∀ entry ∈ entries, p entry) : ∀ entry ∈ insertEntry key value entries, p entry := by
  fun_induction insertEntry key value entries with
  | case1 => exact List.forall_mem_singleton.mpr hentry
  | case2 => exact List.forall_mem_cons.mpr ⟨hentry, hentries⟩
  | case3 => exact List.forall_mem_cons.mpr ⟨hentry, (List.forall_mem_cons.mp hentries).2⟩
  | case4 k v rest _ _ ih =>
    obtain ⟨hfirst, hrest⟩ := List.forall_mem_cons.mp hentries
    exact List.forall_mem_cons.mpr ⟨hfirst, ih hrest⟩

theorem forall_mem_ofList {p : String × String → Prop} (h : ∀ entry ∈ entries, p entry) :
    ∀ entry ∈ (ofList entries).entries, p entry := by
  refine List.foldlRecOn entries _
    (motive := fun dictionary : Dictionary => ∀ entry ∈ dictionary.entries, p entry) ?_ ?_
  · exact fun _ h => nomatch h
  · intro dictionary hdictionary entry hentry
    exact forall_mem_insertEntry (h entry hentry) hdictionary

/-! ### Order -/

/-- The keys ascend, so none stands twice. -/
def Sorted (dictionary : Dictionary) : Prop :=
  dictionary.entries.Pairwise fun entry entry' => entry.1 < entry'.1

theorem Sorted.insert (h : dictionary.Sorted) (key value : String) :
    (dictionary.insert key value).Sorted := by
  obtain ⟨entries⟩ := dictionary
  simp only [Sorted, Dictionary.insert] at h ⊢
  fun_induction insertEntry key value entries with
  | case1 => exact List.pairwise_singleton _ _
  | case2 k v rest hlt =>
    refine List.pairwise_cons.mpr ⟨List.forall_mem_cons.mpr ⟨hlt, fun entry hentry => ?_⟩, h⟩
    exact lt_trans hlt (List.rel_of_pairwise_cons h hentry)
  | case3 v rest => exact List.pairwise_cons.mpr (List.pairwise_cons.mp h)
  | case4 k v rest hlt hne ih =>
    obtain ⟨hfirst, hrest⟩ := List.pairwise_cons.mp h
    have hkey : k < key := lt_of_le_of_ne (not_lt.mp hlt) (Ne.symm hne)
    exact List.pairwise_cons.mpr ⟨forall_mem_insertEntry hkey hfirst, ih hrest⟩

theorem sorted_ofList (entries : List (String × String)) : (ofList entries).Sorted :=
  List.foldlRecOn entries _ (motive := Sorted) List.Pairwise.nil
    fun _ hdictionary entry _ => hdictionary.insert entry.1 entry.2

/-- **What is listed at a key is what is found there.** -/
theorem Sorted.mem_iff (h : dictionary.Sorted) :
    (key, value) ∈ dictionary.entries ↔ dictionary.get? key = some value := by
  refine ⟨fun hmem => ?_, mem_of_lookupEntry⟩
  obtain ⟨entries⟩ := dictionary
  simp only [Sorted, get?] at h hmem ⊢
  induction entries with
  | nil => cases hmem
  | cons entry rest ih =>
    obtain ⟨hfirst, hrest⟩ := List.pairwise_cons.mp h
    rcases List.mem_cons.mp hmem with rfl | hmem
    · simp [lookupEntry]
    · have hne : key ≠ entry.1 := (hfirst _ hmem).ne'
      rw [lookupEntry, if_neg hne, ih hrest hmem]

theorem Sorted.eq_of_mem_iff {dictionary' : Dictionary} (h : dictionary.Sorted)
    (h' : dictionary'.Sorted)
    (hsame : ∀ entry, entry ∈ dictionary.entries ↔ entry ∈ dictionary'.entries) :
    dictionary = dictionary' := by
  have hirrefl : Std.Irrefl fun entry entry' : String × String => entry.1 < entry'.1 :=
    ⟨fun entry => lt_irrefl entry.1⟩
  have hantisymm : Std.Antisymm fun entry entry' : String × String => entry.1 < entry'.1 :=
    ⟨fun _ _ hlt hgt => absurd hlt (lt_asymm hgt)⟩
  obtain ⟨entries⟩ := dictionary
  obtain ⟨entries'⟩ := dictionary'
  exact congrArg mk (List.Pairwise.eq_of_mem_iff h h' hsame)

/-! ### Entries in any order -/

/-- No key is given two values. -/
def OneValued (entries : List (String × String)) : Prop :=
  ∀ entry ∈ entries, ∀ entry' ∈ entries, entry.1 = entry'.1 → entry = entry'

theorem exists_get?_ofList (h : (key, value) ∈ entries) :
    ∃ value', (ofList entries).get? key = some value' := by
  induction entries using List.reverseRecOn with
  | nil => cases h
  | append_singleton entries entry ih =>
    obtain ⟨k, v⟩ := entry
    rw [ofList, List.foldl_append, List.foldl_cons, List.foldl_nil, get?_insert]
    split
    · exact ⟨v, rfl⟩
    · rename_i hne
      rcases List.mem_append.mp h with h | h
      · exact ih h
      · obtain ⟨rfl, -⟩ := Prod.mk.inj (List.mem_singleton.mp h)
        exact absurd rfl hne

theorem mem_ofList_iff (h : OneValued entries) {entry : String × String} :
    entry ∈ (ofList entries).entries ↔ entry ∈ entries := by
  have hlisted : ∀ entry ∈ (ofList entries).entries, entry ∈ entries :=
    forall_mem_ofList fun _ => id
  refine ⟨hlisted entry, fun hmem => ?_⟩
  obtain ⟨value, hvalue⟩ := exists_get?_ofList hmem
  have hfound := mem_of_lookupEntry hvalue
  exact h _ hmem _ (hlisted _ hfound) rfl ▸ hfound

/-- **The order in which entries are put in makes no difference**, if no key is given two values. -/
theorem ofList_congr (h : OneValued entries) (hsame : ∀ entry, entry ∈ entries' ↔ entry ∈ entries) :
    ofList entries' = ofList entries := by
  have h' : OneValued entries' := fun entry hentry entry' hentry' =>
    h entry ((hsame entry).mp hentry) entry' ((hsame entry').mp hentry')
  refine (sorted_ofList entries').eq_of_mem_iff (sorted_ofList entries) fun entry => ?_
  rw [mem_ofList_iff h', mem_ofList_iff h, hsame]

end JetSql.Dictionary
