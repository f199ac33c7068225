import Mathlib.Data.String.Basic

/-! A text split at slashes is the list of its characters split at slashes, so the parts joined
again are the text. -/

namespace Courier.Text

open String

theorem splitOnAux_slash (s : String) (b i : Pos.Raw) (parts : List String) :
    splitOnAux s "/" b i 0 parts = splitAux s (· == '/') b i parts := by
  have slash : Pos.Raw.get "/" 0 = '/' := by decide +kernel
  have one : Pos.Raw.next "/" 0 = ⟨1⟩ := by decide +kernel
  fun_induction splitAux s (· == '/') b i parts with
  | case1 b i parts stop => rw [splitOnAux, if_pos stop]
  | case2 b i parts go _ found next ih =>
    have back : (Pos.Raw.next s i).unoffsetBy ⟨1⟩ = i := by
      rw [Pos.Raw.next, beq_iff_eq.1 found]
      simp [Pos.Raw.unoffsetBy, Char.utf8Size]
    rw [splitOnAux, if_neg go, slash, if_pos found, ← ih]
    dsimp only
    rw [one, back]
    rfl
  | case3 b i parts go _ other ih =>
    rw [splitOnAux, if_neg go, slash, if_neg other, ← ih]
    rfl

theorem splitOn_slash (s : String) : s.splitOn "/" = (s.toList.splitOn '/').map ofList := by
  have list : s.splitOn "/" = s.splitToList (· == '/') := splitOnAux_slash s 0 0 []
  rw [list, splitToList_of_valid, List.splitOn_eq_splitOnP]

/-- The parts between the slashes are all there is to a text. -/
theorem join_splitOn_slash (s : String) :
    ofList (['/'].intercalate ((s.splitOn "/").map toList)) = s := by
  have back : toList ∘ ofList = id := funext fun l => String.toList_ofList
  rw [splitOn_slash, List.map_map, back, List.map_id, List.intercalate_splitOn, ofList_toList]

end Courier.Text
