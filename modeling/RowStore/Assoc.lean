/-!
# Finite maps in order of arrival

An `Assoc` is a list of bindings. Binding a new key puts it at the end, binding a known key keeps
its place, so the order of the keys is the order in which they arrived. The view is `get?`; the main
statements say what each operation does to it.
-/
namespace RowStore

structure Assoc (α β : Type) where
  entries : List (α × β) := []
  deriving DecidableEq, Repr

namespace Assoc
variable {α β γ : Type} [DecidableEq α]

/-- The value of the first binding of the key. -/
def lookup (key : α) : List (α × β) → Option β
  | [] => none
  | (k, v) :: rest => if k = key then some v else lookup key rest

def get? (m : Assoc α β) (key : α) : Option β := lookup key m.entries

def keys (m : Assoc α β) : List α := m.entries.map Prod.fst

def values (m : Assoc α β) : List β := m.entries.map Prod.snd

def size (m : Assoc α β) : Nat := m.entries.length

def contains (m : Assoc α β) (key : α) : Bool := (m.get? key).isSome

def modify (m : Assoc α β) (key : α) (change : β → β) : Assoc α β :=
  ⟨m.entries.map fun entry => if entry.1 = key then (entry.1, change entry.2) else entry⟩

def erase (m : Assoc α β) (key : α) : Assoc α β :=
  ⟨m.entries.filter fun entry => decide (entry.1 ≠ key)⟩

def insert (m : Assoc α β) (key : α) (value : β) : Assoc α β :=
  if m.contains key then m.modify key fun _ => value else ⟨m.entries ++ [(key, value)]⟩

def map (f : β → γ) (m : Assoc α β) : Assoc α γ := ⟨m.entries.map fun entry => (entry.1, f entry.2)⟩

@[simp] theorem get?_empty (key : α) : (⟨[]⟩ : Assoc α β).get? key = none := rfl

theorem get?_modify (m : Assoc α β) (key other : α) (change : β → β) :
    (m.modify key change).get? other =
      if other = key then (m.get? other).map change else m.get? other := by
  obtain ⟨entries⟩ := m
  induction entries with
  | nil => simp [get?, modify, lookup]
  | cons entry rest ih =>
    obtain ⟨k, v⟩ := entry
    simp only [get?, modify, List.map_cons] at ih ⊢
    by_cases hk : k = key <;> by_cases ho : k = other <;> by_cases hoo : other = key <;>
      simp_all [lookup]

theorem get?_erase (m : Assoc α β) (key other : α) :
    (m.erase key).get? other = if other = key then none else m.get? other := by
  obtain ⟨entries⟩ := m
  induction entries with
  | nil => simp [get?, erase, lookup]
  | cons entry rest ih =>
    obtain ⟨k, v⟩ := entry
    simp only [get?, erase, List.filter_cons, decide_eq_true_eq] at ih ⊢
    by_cases hk : k = key
    · rw [if_neg (by simp [hk]), ih]
      by_cases ho : other = key
      · simp [ho]
      · rw [if_neg ho, if_neg ho, lookup, if_neg (by rw [hk]; exact Ne.symm ho)]
    · rw [if_pos hk, lookup, lookup]
      by_cases ho : k = other
      · rw [if_pos ho, if_pos ho, if_neg (by rw [← ho]; exact hk)]
      · rw [if_neg ho, if_neg ho, ih]

private theorem lookup_append (key : α) (xs ys : List (α × β)) :
    lookup key (xs ++ ys) = (lookup key xs).or (lookup key ys) := by
  induction xs with
  | nil => simp [lookup]
  | cons entry rest ih =>
    obtain ⟨k, v⟩ := entry
    by_cases hk : k = key <;> simp [lookup, hk, ih]

theorem get?_insert (m : Assoc α β) (key other : α) (value : β) :
    (m.insert key value).get? other = if other = key then some value else m.get? other := by
  unfold insert contains
  cases h : m.get? key with
  | none =>
    simp only [Option.isSome_none, Bool.false_eq_true, if_false, get?, lookup_append, lookup]
    by_cases ho : other = key
    · subst ho
      simp only [get?] at h
      simp [h]
    · rw [if_neg (Ne.symm ho), if_neg ho, Option.or_none]
  | some old =>
    simp only [Option.isSome_some, if_true, get?_modify]
    by_cases ho : other = key
    · subst ho
      simp [h]
    · simp [ho]

@[simp] theorem get?_insert_self (m : Assoc α β) (key : α) (value : β) :
    (m.insert key value).get? key = some value := by
  rw [get?_insert, if_pos rfl]

@[simp] theorem keys_modify (m : Assoc α β) (key : α) (change : β → β) :
    (m.modify key change).keys = m.keys := by
  simp only [modify, keys, List.map_map]
  refine List.map_congr_left fun entry _ => ?_
  simp only [Function.comp]
  split <;> rfl

theorem keys_erase (m : Assoc α β) (key : α) :
    (m.erase key).keys = m.keys.filter fun k => decide (k ≠ key) := by
  simp [erase, keys, List.filter_map, Function.comp_def]

theorem contains_iff_mem_keys (m : Assoc α β) (key : α) : m.contains key = true ↔ key ∈ m.keys := by
  obtain ⟨entries⟩ := m
  simp only [contains, get?, keys]
  induction entries with
  | nil => simp [lookup]
  | cons entry rest ih =>
    obtain ⟨k, v⟩ := entry
    by_cases hk : k = key
    · simp [lookup, hk]
    · rw [lookup, if_neg hk, ih, List.map_cons, List.mem_cons]
      exact ⟨Or.inr, fun h => h.resolve_left fun he => hk he.symm⟩

theorem get?_eq_none_iff (m : Assoc α β) (key : α) : m.get? key = none ↔ key ∉ m.keys := by
  rw [← contains_iff_mem_keys, contains]
  cases m.get? key <;> simp

theorem mem_keys_of_get? {m : Assoc α β} {key : α} {value : β} (h : m.get? key = some value) :
    key ∈ m.keys := by
  rw [← contains_iff_mem_keys, contains, h, Option.isSome_some]

theorem mem_entries_of_get? {m : Assoc α β} {key : α} {value : β} (h : m.get? key = some value) :
    (key, value) ∈ m.entries := by
  obtain ⟨entries⟩ := m
  simp only [get?] at h ⊢
  induction entries with
  | nil => cases h
  | cons entry rest ih =>
    obtain ⟨k, v⟩ := entry
    rw [lookup] at h
    split at h
    · next hk =>
      cases h
      rw [hk]
      exact List.mem_cons_self
    · exact List.mem_cons_of_mem _ (ih h)

/-- Where no key occurs twice, every binding is found. -/
theorem get?_of_mem_entries {m : Assoc α β} (hnodup : m.keys.Nodup) {key : α} {value : β}
    (h : (key, value) ∈ m.entries) : m.get? key = some value := by
  obtain ⟨entries⟩ := m
  simp only [get?, keys] at hnodup h ⊢
  induction entries with
  | nil => cases h
  | cons entry rest ih =>
    obtain ⟨k, v⟩ := entry
    rw [List.map_cons, List.nodup_cons] at hnodup
    rcases List.mem_cons.mp h with heq | hmem
    · cases heq
      rw [lookup, if_pos rfl]
    · have hk : k ≠ key := by
        intro hk
        exact hnodup.1 (List.mem_map.mpr ⟨(key, value), hmem, hk.symm⟩)
      rw [lookup, if_neg hk]
      exact ih hnodup.2 hmem

/-- A change that keeps the value changes nothing. -/
theorem modify_eq_self {m : Assoc α β} (hnodup : m.keys.Nodup) {key : α} {value : β}
    {change : β → β} (h : m.get? key = some value) (hchange : change value = value) :
    m.modify key change = m := by
  have hentries : ∀ entry ∈ m.entries,
      (if entry.1 = key then (entry.1, change entry.2) else entry) = entry := by
    rintro ⟨k, v⟩ hmem
    have hfound := get?_of_mem_entries hnodup hmem
    split
    · next hk =>
      dsimp only at hk
      rw [hk, h, Option.some.injEq] at hfound
      rw [← hfound, hchange]
    · rfl
  exact congrArg Assoc.mk ((List.map_congr_left hentries).trans (List.map_id _))

/-- A value that is bound already can be bound again. -/
theorem insert_eq_self {m : Assoc α β} (hnodup : m.keys.Nodup) {key : α} {value : β}
    (h : m.get? key = some value) : m.insert key value = m := by
  rw [insert, contains, h, Option.isSome_some, if_pos rfl]
  exact modify_eq_self hnodup h rfl

theorem entries_insert_of_get?_eq_none {m : Assoc α β} {key : α} (h : m.get? key = none)
    (value : β) : (m.insert key value).entries = m.entries ++ [(key, value)] := by
  rw [insert, contains, h]
  rfl

/-- A known key keeps its place and a new key goes to the end. -/
theorem keys_insert (m : Assoc α β) (key : α) (value : β) :
    (m.insert key value).keys = if key ∈ m.keys then m.keys else m.keys ++ [key] := by
  unfold insert
  by_cases h : key ∈ m.keys
  · rw [if_pos ((contains_iff_mem_keys m key).mpr h), if_pos h, keys_modify]
  · rw [if_neg fun hc => h ((contains_iff_mem_keys m key).mp hc), if_neg h]
    simp [keys]

theorem nodup_keys_insert {m : Assoc α β} (hnodup : m.keys.Nodup) (key : α) (value : β) :
    (m.insert key value).keys.Nodup := by
  rw [keys_insert]
  split
  · exact hnodup
  · next hnew =>
    rw [List.nodup_append]
    refine ⟨hnodup, List.nodup_cons.mpr ⟨List.not_mem_nil, List.nodup_nil⟩, ?_⟩
    intro known hknown added hadded heq
    rw [List.mem_singleton] at hadded
    exact hnew (hadded ▸ heq ▸ hknown)

/-- A known key takes the new value where it is. -/
theorem insert_of_mem {m : Assoc α β} {key : α} (h : key ∈ m.keys) (value : β) :
    m.insert key value = m.modify key fun _ => value :=
  if_pos ((contains_iff_mem_keys m key).mpr h)

/-- The second of two values of a key takes the place of the first. -/
theorem insert_insert {m : Assoc α β} {key : α} (h : key ∈ m.keys) (value value' : β) :
    (m.insert key value).insert key value' = m.insert key value' := by
  have hkept : key ∈ (m.modify key fun _ => value).keys := by rwa [keys_modify]
  rw [insert_of_mem h, insert_of_mem hkept, insert_of_mem h, modify, modify, modify, List.map_map]
  congr 1
  refine List.map_congr_left fun entry _ => ?_
  by_cases hentry : entry.1 = key <;> simp [hentry]

omit [DecidableEq α] in
@[simp] theorem keys_map (f : β → γ) (m : Assoc α β) : (m.map f).keys = m.keys := by
  rw [keys, map, List.map_map]
  rfl

@[simp] theorem get?_map (f : β → γ) (m : Assoc α β) (key : α) :
    (m.map f).get? key = (m.get? key).map f := by
  obtain ⟨entries⟩ := m
  simp only [get?, map]
  induction entries with
  | nil => rfl
  | cons entry rest ih =>
    obtain ⟨k, v⟩ := entry
    by_cases hk : k = key <;> simp [lookup, hk, ih]

theorem map_insert (f : β → γ) (m : Assoc α β) (key : α) (value : β) :
    (m.insert key value).map f = (m.map f).insert key (f value) := by
  by_cases h : key ∈ m.keys
  · rw [insert_of_mem h, insert_of_mem (by rwa [keys_map]), map, modify, map, modify, List.map_map,
      List.map_map]
    congr 1
    refine List.map_congr_left fun entry _ => ?_
    by_cases hentry : entry.1 = key <;> simp [hentry]
  · have hnone := (get?_eq_none_iff m key).mpr h
    have hnone' : (m.map f).get? key = none := by rw [get?_map, hnone, Option.map_none]
    rw [insert, contains, hnone, insert, contains, hnone']
    simp [map]

end Assoc
end RowStore
