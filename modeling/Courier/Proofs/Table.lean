import Mathlib.Data.List.Basic
import Mathlib.Data.List.Nodup
import Courier.Table

/-! A table seen through `get?`: what each operation does to the entry of any one key. All that is
proved of the stores rests on these equations, and none of it looks at the order of the entries. -/

namespace Courier.Table

variable {κ α : Type} [DecidableEq κ]

theorem lookup_eq_some_iff_mem {l : List (κ × α)} (h : (l.map Prod.fst).Nodup) (k : κ) (a : α) :
    l.lookup k = some a ↔ (k, a) ∈ l := by
  induction l with
  | nil => simp
  | cons e l ih =>
    obtain ⟨k', b⟩ := e
    simp only [List.map_cons, List.nodup_cons] at h
    by_cases hk : k = k'
    · subst hk
      have hn : (k, a) ∉ l := fun hm => h.1 (List.mem_map_of_mem hm)
      simp [hn, eq_comm]
    · have hb : (k == k') = false := by simpa using hk
      simp [List.lookup_cons, hb, hk, ih h.2]

theorem get?_eq_some_iff (t : Table κ α) (k : κ) (a : α) :
    t.get? k = some a ↔ (k, a) ∈ t.entries := lookup_eq_some_iff_mem t.nodup k a

theorem mem_values_iff (t : Table κ α) (a : α) : a ∈ t.values ↔ ∃ k, t.get? k = some a := by
  simp only [values, get?_eq_some_iff, List.mem_map, Prod.exists, exists_eq_right]

theorem mem_keys_iff (t : Table κ α) (k : κ) :
    k ∈ t.entries.map Prod.fst ↔ ∃ a, t.get? k = some a := by
  simp only [get?_eq_some_iff, List.mem_map, Prod.exists, exists_and_right, exists_eq_right]

theorem entries_eq_map (d : α) (t : Table κ α) :
    t.entries = t.keys.map fun k => (k, (t.get? k).getD d) := by
  rw [keys, List.map_map]
  refine (List.map_id' t.entries).symm.trans (List.map_congr_left fun e he => ?_)
  have : t.get? e.1 = some e.2 := (get?_eq_some_iff _ _ _).2 he
  simp [this]

/-- Two tables with the same keys in the same order and the same values are one. -/
theorem ext_getD {t t' : Table κ α} (d : α) (keys : t.keys = t'.keys)
    (values : ∀ k, (t.get? k).getD d = (t'.get? k).getD d) : t = t' := by
  have entries : t.entries = t'.entries := by
    rw [entries_eq_map d t, entries_eq_map d t', keys]
    simp only [values]
  cases t
  cases t'
  cases entries
  rfl

@[simp] theorem get?_empty (k : κ) : (empty : Table κ α).get? k = none := rfl

@[simp] theorem get?_mapValues (f : κ → α → α) (t : Table κ α) (k : κ) :
    (t.mapValues f).get? k = (t.get? k).map (f k) := by
  ext b
  rw [get?_eq_some_iff, Option.map_eq_some_iff]
  simp only [mapValues, List.mem_map, Prod.mk.injEq, Prod.exists, get?_eq_some_iff]
  constructor
  · rintro ⟨k', a, hm, rfl, rfl⟩
    exact ⟨a, hm, rfl⟩
  · rintro ⟨a, hm, rfl⟩
    exact ⟨k, a, hm, rfl, rfl⟩

@[simp] theorem get?_filter (keep : κ → α → Bool) (t : Table κ α) (k : κ) :
    (t.filter keep).get? k = (t.get? k).filter (keep k) := by
  ext b
  rw [get?_eq_some_iff, Option.filter_eq_some_iff, get?_eq_some_iff]
  simp [filter]

theorem get?_insert (k : κ) (a : α) (t : Table κ α) (k' : κ) :
    (t.insert k a).get? k' = if k' = k then some a else t.get? k' := by
  unfold insert
  split_ifs with hk hk' hk'
  · subst hk'
    obtain ⟨b, hb⟩ := (mem_keys_iff t k').1 hk
    simp [hb]
  · simp [hk']
  · subst hk'
    rw [get?_eq_some_iff]
    exact List.mem_append_right _ (List.mem_singleton_self _)
  · ext b
    rw [get?_eq_some_iff, get?_eq_some_iff]
    simp [hk']

theorem get?_erase (k : κ) (t : Table κ α) (k' : κ) :
    (t.erase k).get? k' = if k' = k then none else t.get? k' := by
  unfold erase
  rw [get?_filter]
  split_ifs with h
  · simp [h]
  · cases t.get? k' <;> simp [h]

theorem get?_modify (k : κ) (f : α → α) (t : Table κ α) (k' : κ) :
    (t.modify k f).get? k' = if k' = k then (t.get? k').map f else t.get? k' := by
  unfold modify
  rw [get?_mapValues]
  split_ifs <;> simp

omit [DecidableEq κ] in
@[simp] theorem keys_mapValues (f : κ → α → α) (t : Table κ α) : (t.mapValues f).keys = t.keys := by
  simp [keys, mapValues, Function.comp_def]

@[simp] theorem keys_modify (k : κ) (f : α → α) (t : Table κ α) : (t.modify k f).keys = t.keys :=
  keys_mapValues _ t

theorem keys_insert (k : κ) (a : α) (t : Table κ α) :
    (t.insert k a).keys = if k ∈ t.keys then t.keys else t.keys ++ [k] := by
  unfold insert
  split
  · rename_i h
    rw [keys_mapValues, if_pos (show k ∈ t.keys from h)]
  · rename_i h
    rw [if_neg (show k ∉ t.keys from h), keys, keys, List.map_append]
    rfl

/-- A new key comes last. -/
theorem values_insert_of_none {k : κ} {t : Table κ α} (h : t.get? k = none) (a : α) :
    (t.insert k a).values = t.values ++ [a] := by
  have new : k ∉ t.entries.map Prod.fst := by
    rw [mem_keys_iff, h]
    nofun
  rw [insert, dif_neg new, values, values, List.map_append]
  rfl

/-- Of values that none of the others is like, an insertion leaves one. -/
theorem countP_values_insert {k : κ} {a : α} {t : Table κ α} {p : α → Bool} (ha : p a = true)
    (others : ∀ b ∈ t.values, p b = false) : (t.insert k a).values.countP p = 1 := by
  have values : (t.insert k a).values =
      (t.insert k a).keys.map fun k' => ((t.insert k a).get? k').getD a := by
    rw [Table.values, entries_eq_map a, List.map_map]
    rfl
  have one : (t.insert k a).keys.countP (fun k' => k' == k) = 1 :=
    List.count_eq_one_of_mem (t.insert k a).nodup
      ((mem_keys_iff _ _).2 ⟨a, by rw [get?_insert, if_pos rfl]⟩)
  rw [values, List.countP_map, ← one]
  refine List.countP_congr fun k' hk' => ?_
  obtain ⟨b, hb⟩ := (mem_keys_iff _ _).1 hk'
  simp only [Function.comp_apply, hb, Option.getD_some, beq_iff_eq]
  rw [get?_insert] at hb
  split_ifs at hb with same
  · rw [← Option.some.inj hb]
    exact iff_of_true ha same
  · have unlike := others b ((mem_values_iff _ _).2 ⟨k', hb⟩)
    exact iff_of_false (by rw [unlike]; nofun) same

/-- Values that know their keys are all different. -/
theorem nodup_map_values {t : Table κ α} {f : α → κ} (h : ∀ k a, t.get? k = some a → f a = k) :
    (t.values.map f).Nodup := by
  have keys : t.values.map f = t.entries.map Prod.fst := by
    rw [values, List.map_map]
    exact List.map_congr_left fun e he => h e.1 e.2 ((get?_eq_some_iff _ _ _).2 he)
  rw [keys]
  exact t.nodup

omit [DecidableEq κ] in
theorem values_filter (keep : α → Bool) (t : Table κ α) :
    (t.filter fun _ a => keep a).values = t.values.filter keep := by
  rw [values, values, filter, List.filter_map]
  rfl

omit [DecidableEq κ] in
/-- What every entry keeps when it changes, the values keep together. -/
theorem map_values_mapValues {β : Type} {g : α → β} {f : κ → α → α} {t : Table κ α}
    (h : ∀ e ∈ t.entries, g (f e.1 e.2) = g e.2) :
    (t.mapValues f).values.map g = t.values.map g := by
  simp only [values, mapValues, List.map_map]
  exact List.map_congr_left h

theorem map_values_insert {β : Type} {g : α → β} {k : κ} {a b : α} {t : Table κ α}
    (h : t.get? k = some b) (hg : g a = g b) : (t.insert k a).values.map g = t.values.map g := by
  have old : k ∈ t.entries.map Prod.fst := (mem_keys_iff t k).2 ⟨b, h⟩
  rw [insert, dif_pos old]
  refine map_values_mapValues fun e he => ?_
  split_ifs with hk
  · have : t.get? k = some e.2 := (get?_eq_some_iff _ _ _).2 (hk ▸ he)
    rw [h] at this
    rw [hg, Option.some.inj this]
  · rfl

end Courier.Table
