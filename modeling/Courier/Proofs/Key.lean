import Mathlib.Algebra.GroupWithZero.Nat
import Mathlib.Data.List.Basic
import Courier.Job.Basic

/-! Identifiers as they are written, and the keys that are made of them. The written form has a
fixed length and is read back as the identifier, so the end of a key tells whose key it is, whatever
the text before it. The key of a route has no such end: a colon in a platform may as well belong to
the target. -/

namespace Courier

theorem Diagnostic.hexValue?_hexDigit (v : Nat) : Json.hexValue? (hexDigit v) = some (v % 16) := by
  have digits : ∀ n < 16, Json.hexValue? (hexDigit n) = some n := by decide
  have reduced : hexDigit v = hexDigit (v % 16) := by simp [hexDigit]
  rw [reduced, digits _ (Nat.mod_lt _ (by decide))]

namespace Uuid

theorem length_hexDigits (n v : Nat) : (hexDigits n v).length = n := by
  induction n generalizing v with
  | zero => rfl
  | succ n ih => simp [hexDigits, ih]

theorem hexDigits_add (m n v : Nat) :
    hexDigits (m + n) v = hexDigits m (v / 16 ^ n) ++ hexDigits n v := by
  induction n generalizing v with
  | zero => simp [hexDigits]
  | succ n ih =>
    rw [← Nat.add_assoc, hexDigits, hexDigits, ih, Nat.div_div_eq_div_mul, ← Nat.pow_succ',
      List.append_assoc]

theorem hexNumber?_hexDigits (n v : Nat) : hexNumber? (hexDigits n v) = some (v % 16 ^ n) := by
  induction n generalizing v with
  | zero => simp [hexDigits, hexNumber?, Nat.mod_one]
  | succ n ih =>
    have upper := ih (v / 16)
    rw [hexNumber?] at upper ⊢
    rw [hexDigits, List.foldl_append, upper, List.foldl_cons, List.foldl_nil,
      Diagnostic.hexValue?_hexDigit, Nat.pow_succ', Nat.mod_mul]
    simp only [Option.bind_eq_bind, Option.bind_some, Option.some.injEq]
    omega

theorem ofDigits?_hexDigits (u : Uuid) : ofDigits? (hexDigits 32 u.value) = some u := by
  have whole : u.value % 16 ^ 32 = u.value := Nat.mod_eq_of_lt u.bound
  have same : ofNat u.value = u := by
    cases u with
    | mk v bound => simp [ofNat, Nat.mod_eq_of_lt bound]
  rw [ofDigits?, if_pos (length_hexDigits 32 _), hexNumber?_hexDigits, whole, Option.map_some, same]

/-- The five groups have all the digits of a number between them. -/
theorem hexDigits_groups (v : Nat) :
    hexDigits 32 v = hexDigits 8 (v >>> 96) ++ hexDigits 4 (v >>> 80) ++ hexDigits 4 (v >>> 64) ++
      hexDigits 4 (v >>> 48) ++ hexDigits 12 v := by
  simp only [Nat.shiftRight_eq_div_pow]
  rw [hexDigits_add 20 12, hexDigits_add 16 4, hexDigits_add 12 4, hexDigits_add 8 4]
  simp only [Nat.div_div_eq_div_mul, Nat.reducePow, Nat.reduceMul]

theorem length_toChars (u : Uuid) : u.toChars.length = 36 := by
  simp [toChars, length_hexDigits]

theorem ofHyphenated?_toChars (u : Uuid) : ofHyphenated? u.toChars = some u := by
  have digits := ofDigits?_hexDigits u
  rw [hexDigits_groups] at digits
  rw [ofHyphenated?, if_pos]
  · simpa [toChars, List.take_append, List.drop_append, length_hexDigits, List.take_of_length_le,
      List.drop_of_length_le] using digits
  · simp [toChars, length_hexDigits]

/-- An identifier is read back from its written form. -/
theorem ofText?_toText (u : Uuid) : ofText? u.toText = some u := by
  simp only [ofText?, toText, String.toList_ofList, length_toChars, Nat.reduceEqDiff, if_false,
    if_true, ofHyphenated?_toChars]

theorem toText_inj {u v : Uuid} (h : u.toText = v.toText) : u = v := by
  rw [← Option.some.injEq, ← ofText?_toText u, h, ofText?_toText]

end Uuid

theorem JobId.toText_inj {a b : JobId} (h : a.toText = b.toText) : a = b := by
  have same : a.uuid = b.uuid := Uuid.toText_inj h
  cases a
  cases b
  congr

namespace Job

/-- Jobs that share a key carry out the same intent under the same identifier. -/
theorem attemptKey_inj {j k : Job} (h : j.attemptKey = k.attemptKey) :
    j.intentId = k.intentId ∧ j.id = k.id := by
  have chars := congrArg String.toList h
  simp only [attemptKey, String.toList_append] at chars
  obtain ⟨before, id⟩ := List.append_inj' chars <| by
    simp [JobId.toText, Uuid.toText, Uuid.length_toChars]
  exact ⟨String.toList_inj.1 (List.append_inj' before rfl).1,
    JobId.toText_inj (String.toList_inj.1 id)⟩

theorem attemptKey_eq_iff {j k : Job} :
    j.attemptKey = k.attemptKey ↔ j.intentId = k.intentId ∧ j.id = k.id := by
  refine ⟨attemptKey_inj, fun ⟨intent, id⟩ => ?_⟩
  have intent : j.intent.intentId = k.intent.intentId := intent
  rw [attemptKey, attemptKey, intent, id]

end Job

/-- Where two pairs of texts meet in one text with a mark between them, the pairs are the same, or
one first text goes on with the mark into the other's second text. -/
theorem append_cons_eq_iff {α : Type} {a b a' b' : List α} {mark : α} :
    a ++ mark :: b = a' ++ mark :: b' ↔ (a = a' ∧ b = b') ∨
      (∃ s, a' = a ++ mark :: s ∧ b = s ++ mark :: b') ∨
        ∃ s, a = a' ++ mark :: s ∧ b' = s ++ mark :: b := by
  constructor
  · intro same
    rcases List.append_eq_append_iff.1 same with ⟨l, more, rest⟩ | ⟨l, more, rest⟩
    · cases l with
      | nil =>
        rw [List.append_nil] at more
        exact Or.inl ⟨more.symm, (List.cons.inj rest).2⟩
      | cons c s =>
        obtain ⟨rfl, onward⟩ := List.cons.inj rest
        exact Or.inr (Or.inl ⟨s, more, onward⟩)
    · cases l with
      | nil =>
        rw [List.append_nil] at more
        exact Or.inl ⟨more, (List.cons.inj rest).2.symm⟩
      | cons c s =>
        obtain ⟨rfl, onward⟩ := List.cons.inj rest
        exact Or.inr (Or.inr ⟨s, more, onward⟩)
  · rintro (⟨rfl, rfl⟩ | ⟨s, rfl, rfl⟩ | ⟨s, rfl, rfl⟩) <;> simp

namespace Intent

/-- The route of `i` can be read as that of `j`: the platform of `j` is that of `i` and goes on
after a colon, with what the target of `i` has before that of `j`. -/
def Overlaps (i j : Intent) : Prop :=
  ∃ s, j.platform = i.platform ++ ":" ++ s ∧ i.target = s ++ ":" ++ j.target

theorem overlaps_iff {i j : Intent} : i.Overlaps j ↔ ∃ s,
    j.platform.toList = i.platform.toList ++ ':' :: s ∧
      i.target.toList = s ++ ':' :: j.target.toList := by
  constructor
  · rintro ⟨s, platform, target⟩
    exact ⟨s.toList, by simp [platform], by simp [target]⟩
  · rintro ⟨s, platform, target⟩
    refine ⟨String.ofList s, String.toList_inj.1 ?_, String.toList_inj.1 ?_⟩
    · simp [platform]
    · simp [target]

theorem routeKey_eq_iff {i j : Intent} : i.routeKey = j.routeKey ↔
    (i.platform = j.platform ∧ i.target = j.target) ∨ i.Overlaps j ∨ j.Overlaps i := by
  have marked (k : Intent) : k.routeKey.toList = k.platform.toList ++ ':' :: k.target.toList := by
    simp [routeKey]
  rw [← String.toList_inj, marked, marked, append_cons_eq_iff, overlaps_iff, overlaps_iff,
    String.toList_inj, String.toList_inj]

/-- Platforms without a colon are told apart by their routes, whatever the targets. -/
theorem routeKey_inj {i j : Intent} (hi : ':' ∉ i.platform.toList) (hj : ':' ∉ j.platform.toList)
    (h : i.routeKey = j.routeKey) : i.platform = j.platform ∧ i.target = j.target := by
  rcases routeKey_eq_iff.1 h with same | overlaps | overlaps
  · exact same
  · obtain ⟨s, platform, -⟩ := overlaps_iff.1 overlaps
    exact absurd (by simp [platform]) hj
  · obtain ⟨s, platform, -⟩ := overlaps_iff.1 overlaps
    exact absurd (by simp [platform]) hi

end Intent
end Courier
