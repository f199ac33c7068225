import Mathlib.Algebra.GroupWithZero.Nat
import Mathlib.Data.List.Nodup
import Courier.Proofs.Json.Members
import Courier.Proofs.Table

/-! Reading back what was written in order. A record is read from its members by name, so each of
its fields can be looked at alone: a field is read if the member of its name is. -/

namespace Courier

namespace Reading

variable {α β : Type}

theorem map_eq_ok_iff {f : α → β} {x : Reading α} {b : β} :
    f <$> x = ok b ↔ ∃ a, x = ok a ∧ f a = b := by
  cases x <;> simp [Functor.map, map]

theorem seq_eq_ok_iff {f : Reading (α → β)} {x : Reading α} {b : β} :
    f <*> x = ok b ↔ ∃ g a, f = ok g ∧ x = ok a ∧ g a = b := by
  cases f <;> cases x <;> simp [Seq.seq, ap]
  split_ifs <;> simp

theorem inPlace_eq_ok_iff {x : Reading α} {n : Nat} {a : α} : x.inPlace n = ok a ↔ x = ok a := by
  cases x <;> simp [inPlace]

theorem inPlace_map_seq_ok (x : Reading α) (u : Unit) :
    ((fun a _ => a) <$> x <*> ok u).inPlace 0 = x.inPlace 0 := by
  cases x <;> rfl

end Reading

namespace Json

open Reading

variable {α : Type}

theorem readString?_str (s : String) : readString? (str s) = ok s := rfl

namespace Fields

variable {f : Fields} {name : String} {v : Json} {read : Json → Reading α} {a : α}

/-- A record with the members as they are written. -/
def ofMembers (ms : List (String × Json)) : Fields := ⟨sortMembers ms, false⟩

theorem lookup_ofMembers (ms : List (String × Json)) (k : String) :
    (ofMembers ms).members.lookup k = ms.reverse.lookup k := by
  rw [ofMembers, sortMembers_eq_setKeys, lookup_setKeys]

theorem lookup_ofMembers_of_mem {ms : List (String × Json)} (once : (ms.map Prod.fst).Nodup)
    {k : String} {v : Json} (h : (k, v) ∈ ms) : (ofMembers ms).members.lookup k = some v := by
  have reversed : (ms.reverse.map Prod.fst).Nodup := by
    rwa [List.map_reverse, List.nodup_reverse]
  rw [lookup_ofMembers, Table.lookup_eq_some_iff_mem reversed]
  exact List.mem_reverse.2 h

theorem find?_map_snd (f : Fields) (name : String) :
    (f.find? name).map Prod.snd = f.members.lookup name := by
  have searched : ∀ ms n, (find?.go name n ms).map Prod.snd = ms.lookup name := by
    intro ms
    induction ms with
    | nil => exact fun _ => rfl
    | cons m ms ih => grind [find?.go]
  exact searched f.members 0

theorem exists_find?_eq (h : f.members.lookup name = some v) :
    ∃ n, f.find? name = some (n, v) := by
  rw [← find?_map_snd, Option.map_eq_some_iff] at h
  obtain ⟨⟨n, _⟩, found, rfl⟩ := h
  exact ⟨n, found⟩

theorem find?_eq_none (h : f.members.lookup name = none) : f.find? name = none := by
  rwa [← find?_map_snd, Option.map_eq_none_iff] at h

theorem required_eq_ok_iff (h : f.members.lookup name = some v) :
    f.required name read = ok a ↔ read v = ok a := by
  obtain ⟨n, found⟩ := exists_find?_eq h
  rw [required, found]
  exact inPlace_eq_ok_iff

theorem orElse_eq_ok_iff {other : α} (h : f.members.lookup name = some v) :
    f.orElse name other read = ok a ↔ read v = ok a := by
  obtain ⟨n, found⟩ := exists_find?_eq h
  rw [orElse, found]
  exact inPlace_eq_ok_iff

theorem orElse_of_lookup_eq_none {other : α} (h : f.members.lookup name = none) :
    f.orElse name other read = ok other := by
  rw [orElse, find?_eq_none h]

theorem optional_eq_ok_iff {a : Option α} (h : f.members.lookup name = some v) :
    f.optional name read = ok a ↔ readOption read v = ok a := by
  obtain ⟨n, found⟩ := exists_find?_eq h
  rw [optional, found]
  exact inPlace_eq_ok_iff

end Fields

theorem checkMembers_eq_ok {names seen : List String} {ms : List (String × Json)}
    (known : ∀ k ∈ ms.map Prod.fst, k ∈ names) (once : (ms.map Prod.fst).Nodup)
    (fresh : ∀ k ∈ ms.map Prod.fst, k ∉ seen) (place : Nat) :
    checkMembers names seen place ms = ok () := by
  induction ms generalizing seen place with
  | nil => rfl
  | cons m ms ih =>
    obtain ⟨k, v⟩ := m
    simp only [List.map_cons, List.nodup_cons, List.forall_mem_cons] at known once fresh
    rw [checkMembers, if_pos (List.contains_iff_mem.2 known.1),
      if_neg (mt List.contains_iff_mem.1 fresh.1)]
    refine ih known.2 once.2 (fun k' hk' => ?_) _
    rw [List.mem_cons, not_or]
    exact ⟨fun same => once.1 (same ▸ hk'), fresh.2 k' hk'⟩

/-- A record is read from its members in order, each of which it knows. -/
theorem readRecord_sorted {names : List String} {ms : List (String × Json)}
    (known : ∀ k ∈ ms.map Prod.fst, k ∈ names) (read : Fields → Reading α) :
    readRecord names read (sorted ms) = (read (.ofMembers ms)).inPlace 0 := by
  have checked : checkMembers names [] 0 (sortMembers ms) = ok () := by
    rw [sortMembers_eq_setKeys]
    exact checkMembers_eq_ok (fun k hk => known k (mem_keys_setKeys.1 hk))
      (ascending_setKeys ms).nodup_keys (by simp) 0
  rw [sorted, readRecord, checked, inPlace_map_seq_ok, Fields.ofMembers]

theorem readOption_ofOption {read : Json → Reading α} {write : α → Json} {o : Option α}
    (h : ∀ a ∈ o, write a ≠ null ∧ read (write a) = ok a) :
    readOption read (ofOption write o) = ok o := by
  cases o with
  | none => rfl
  | some a =>
    obtain ⟨written, back⟩ := h a rfl
    rw [ofOption, readOption]
    · rw [back, map_ok]
    · exact written

theorem readOption_readAny {v : Json} (h : v.IsValue) :
    readOption readAny v = ok (if v.isNull then none else some v) := by
  cases v with
  | null => rfl
  | _ => exact congrArg (some <$> ·) h.readAny

theorem readU32_ofNat {n : Nat} (h : n < 2 ^ 32) : readU32 (ofNat n) = ok n := by
  have range : (0 : Int) ≤ n ∧ (n : Int) < Nat.pow 2 32 := ⟨by omega, by exact_mod_cast h⟩
  rw [readU32, ofNat, readNat, if_pos range, Int.toNat_natCast]

theorem readFloat_ofFloat {x : Float} (h : x.isFinite = true) : readFloat (ofFloat x) = ok x := by
  rw [ofFloat, if_pos h, readFloat]

/-- A number without a written form is not read back. -/
theorem isFinite_of_readFloat_ofFloat {x y : Float} (h : readFloat (ofFloat x) = ok y) :
    x.isFinite = true := by
  by_contra infinite
  rw [ofFloat, if_neg infinite] at h
  cases h

theorem readEach_readAny {vs : List Json} (h : ∀ v ∈ vs, v.IsValue) :
    readEach readAny vs = ok vs := by
  induction vs with
  | nil => rfl
  | cons v vs ih =>
    rw [List.forall_mem_cons] at h
    rw [readEach, h.1.readAny, ih h.2, map_ok, seq_ok]

theorem readMembers_map {write : α → Json} {read : Json → Reading α} {ms : List (String × α)}
    (h : ∀ m ∈ ms, read (write m.2) = ok m.2) :
    readMembers read (ms.map fun m => (m.1, write m.2)) = ok ms := by
  induction ms with
  | nil => rfl
  | cons m ms ih =>
    rw [List.forall_mem_cons] at h
    rw [List.map_cons, readMembers, h.1, ih h.2, map_ok, seq_ok]

theorem exists_of_readMembers_map {write : α → Json} {read : Json → Reading α}
    {ms ms' : List (String × α)}
    (h : readMembers read (ms.map fun m => (m.1, write m.2)) = ok ms') :
    ∀ m ∈ ms, ∃ a, read (write m.2) = ok a := by
  induction ms generalizing ms' with
  | nil => simp
  | cons m ms ih =>
    rw [List.map_cons, readMembers] at h
    obtain ⟨g, rest, first, others, -⟩ := seq_eq_ok_iff.1 h
    obtain ⟨a, ha, -⟩ := map_eq_ok_iff.1 first
    exact List.forall_mem_cons.2 ⟨⟨a, ha⟩, ih others⟩

end Json

end Courier
