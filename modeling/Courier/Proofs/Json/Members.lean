import Mathlib.Data.List.Induction
import Mathlib.Data.String.Basic
import Courier.Json.Reading

/-! Members in the order of their keys. A list of members is put in order by setting its keys one
after the other; nothing but the last member under each key counts, and a list that is in order
already stays as it is. Values have the members of all their objects in order, which is why they are
read as they stand. -/

namespace Courier.Json

variable {α : Type}

/-- The keys are in strict order. -/
def Ascending (ms : List (String × α)) : Prop := ms.Pairwise fun m m' => m.1 < m'.1

/-- The keys set one after the other. -/
def setKeys (ms : List (String × α)) : List (String × α) :=
  ms.foldl (fun acc m => setKey m.1 m.2 acc) []

theorem setMember_eq_setKey (k : String) (v : Json) (ms : List (String × Json)) :
    setMember k v ms = setKey k v ms := by
  induction ms with
  | nil => rfl
  | cons m ms ih => rw [setMember, setKey, ih]

theorem sortMembers_eq_setKeys (ms : List (String × Json)) : sortMembers ms = setKeys ms := by
  unfold sortMembers setKeys
  simp only [setMember_eq_setKey]

theorem lookup_setKey (k : String) (a : α) (ms : List (String × α)) (k' : String) :
    (setKey k a ms).lookup k' = if k' = k then some a else ms.lookup k' := by
  induction ms with
  | nil => grind [setKey]
  | cons m ms ih =>
    obtain ⟨k₀, a₀⟩ := m
    rw [setKey]
    split_ifs <;> grind

theorem mem_keys_setKey {k k' : String} {a : α} {ms : List (String × α)} :
    k' ∈ (setKey k a ms).map Prod.fst ↔ k' = k ∨ k' ∈ ms.map Prod.fst := by
  induction ms with
  | nil => simp [setKey]
  | cons m ms ih =>
    obtain ⟨k₀, a₀⟩ := m
    rw [setKey]
    split_ifs with same before
    · simp [same]
    · simp
    · simp only [List.map_cons, List.mem_cons, ih]
      tauto

theorem Ascending.setKey {ms : List (String × α)} (h : Ascending ms) (k : String) (a : α) :
    Ascending (setKey k a ms) := by
  induction ms with
  | nil => simp [Json.setKey, Ascending]
  | cons m ms ih =>
    obtain ⟨k₀, a₀⟩ := m
    obtain ⟨first, rest⟩ := List.pairwise_cons.1 h
    rw [Json.setKey]
    split_ifs with same before
    · subst same
      exact List.pairwise_cons.2 ⟨first, rest⟩
    · refine List.pairwise_cons.2 ⟨fun m hm => ?_, h⟩
      rcases List.mem_cons.1 hm with rfl | hm
      · exact before
      · exact lt_trans before (first m hm)
    · refine List.pairwise_cons.2 ⟨fun m hm => ?_, ih rest⟩
      rcases mem_keys_setKey.1 (List.mem_map_of_mem hm) with hk | hm
      · exact hk ▸ lt_of_le_of_ne (not_lt.1 before) (Ne.symm same)
      · obtain ⟨m', hm', hk⟩ := List.mem_map.1 hm
        exact hk ▸ first m' hm'

theorem setKey_of_forall_lt {k : String} {ms : List (String × α)} (h : ∀ m ∈ ms, m.1 < k) (a : α) :
    setKey k a ms = ms ++ [(k, a)] := by
  induction ms with
  | nil => rfl
  | cons m ms ih =>
    obtain ⟨k₀, a₀⟩ := m
    have last : k₀ < k := h _ List.mem_cons_self
    rw [setKey, if_neg last.ne', if_neg last.not_gt, List.cons_append,
      ih fun m hm => h m (List.mem_cons_of_mem _ hm)]

theorem setKeys_concat (ms : List (String × α)) (m : String × α) :
    setKeys (ms ++ [m]) = setKey m.1 m.2 (setKeys ms) := by
  simp [setKeys, List.foldl_append]

theorem lookup_setKeys (ms : List (String × α)) (k : String) :
    (setKeys ms).lookup k = ms.reverse.lookup k := by
  induction ms using List.reverseRecOn with
  | nil => rfl
  | append_singleton ms m ih =>
    rw [setKeys_concat, lookup_setKey, ih, List.reverse_concat]
    grind

theorem mem_keys_setKeys {k : String} {ms : List (String × α)} :
    k ∈ (setKeys ms).map Prod.fst ↔ k ∈ ms.map Prod.fst := by
  induction ms using List.reverseRecOn with
  | nil => rfl
  | append_singleton ms m ih =>
    rw [setKeys_concat, mem_keys_setKey, ih]
    simp [or_comm]

theorem ascending_setKeys (ms : List (String × α)) : Ascending (setKeys ms) := by
  induction ms using List.reverseRecOn with
  | nil => exact List.Pairwise.nil
  | append_singleton ms m ih => exact setKeys_concat ms m ▸ ih.setKey _ _

theorem Ascending.nodup_keys {ms : List (String × α)} (h : Ascending ms) :
    (ms.map Prod.fst).Nodup := by
  rw [List.Nodup, List.pairwise_map]
  exact h.imp ne_of_lt

theorem Ascending.setKeys_eq {ms : List (String × α)} (h : Ascending ms) : setKeys ms = ms := by
  induction ms using List.reverseRecOn with
  | nil => rfl
  | append_singleton ms m ih =>
    obtain ⟨before, -, last⟩ := List.pairwise_append.1 h
    rw [setKeys_concat, ih before,
      setKey_of_forall_lt fun m' hm => last m' hm m List.mem_cons_self]

/-- A value in its own right: read to its end, with the members of each object in order. -/
inductive IsValue : Json → Prop
  | null : IsValue null
  | bool (b : Bool) : IsValue (bool b)
  | int (n : Int) : IsValue (int n)
  | float (x : Float) : IsValue (float x)
  | str (s : String) : IsValue (str s)
  | arr {xs : List Json} (parts : ∀ x ∈ xs, IsValue x) : IsValue (arr xs)
  | obj {ms : List (String × Json)} (order : Ascending ms) (parts : ∀ m ∈ ms, IsValue m.2) :
    IsValue (obj ms)

theorem allRead_iff {ranged : Bool} {xs : List Json} :
    allRead ranged xs = true ↔ ∀ x ∈ xs, x.isRead ranged = true := by
  induction xs with
  | nil => simp [allRead]
  | cons x xs ih => simp [allRead, ih]

theorem allMembersRead_iff {ranged : Bool} {ms : List (String × Json)} :
    allMembersRead ranged ms = true ↔ ∀ m ∈ ms, m.2.isRead ranged = true := by
  induction ms with
  | nil => simp [allMembersRead]
  | cons m ms ih => simp [allMembersRead, ih]

theorem normalizeAll_eq_map (xs : List Json) : normalizeAll xs = xs.map normalize := by
  induction xs with
  | nil => rfl
  | cons x xs ih => rw [normalizeAll, ih, List.map_cons]

theorem normalizeMembers_eq_map (ms : List (String × Json)) :
    normalizeMembers ms = ms.map fun m => (m.1, m.2.normalize) := by
  induction ms with
  | nil => rfl
  | cons m ms ih => rw [normalizeMembers, ih, List.map_cons]

theorem IsValue.isRead {v : Json} (h : v.IsValue) : v.isRead true = true := by
  induction h with
  | arr _ ih => exact allRead_iff.2 ih
  | obj _ _ ih => exact allMembersRead_iff.2 ih
  | _ => rfl

theorem IsValue.normalize {v : Json} (h : v.IsValue) : v.normalize = v := by
  induction h with
  | arr _ ih => rw [Json.normalize, normalizeAll_eq_map, List.map_congr_left ih, List.map_id']
  | obj order _ ih =>
    rename_i ms _
    have same : ∀ m ∈ ms, (m.1, m.2.normalize) = m := fun m hm => by rw [ih m hm]
    rw [Json.normalize, normalizeMembers_eq_map, List.map_congr_left same, List.map_id',
      sortMembers_eq_setKeys, order.setKeys_eq]
  | _ => rfl

/-- A value is read as it stands. -/
theorem IsValue.readAny {v : Json} (h : v.IsValue) : readAny v = .ok v := by
  rw [Json.readAny, if_pos h.isRead, h.normalize]

end Courier.Json
