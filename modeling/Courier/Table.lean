/-!
A table with one entry per key, in the order in which the keys came in. An entry that is written
again keeps its place.
-/

namespace Courier

structure Table (κ α : Type) where
  entries : List (κ × α)
  nodup : (entries.map Prod.fst).Nodup

namespace Table

variable {κ α : Type} [DecidableEq κ]

def empty : Table κ α := ⟨[], List.nodup_nil⟩

def keys (t : Table κ α) : List κ := t.entries.map Prod.fst

def values (t : Table κ α) : List α := t.entries.map Prod.snd

def size (t : Table κ α) : Nat := t.entries.length

def get? (t : Table κ α) (k : κ) : Option α := t.entries.lookup k

/-- Every entry changed in place; the keys stay. -/
def mapValues (f : κ → α → α) (t : Table κ α) : Table κ α where
  entries := t.entries.map fun e => (e.1, f e.1 e.2)
  nodup := by
    have h : (t.entries.map fun e => (e.1, f e.1 e.2)).map Prod.fst = t.entries.map Prod.fst := by
      simp [Function.comp_def]
    rw [h]; exact t.nodup

/-- The entries that `keep` accepts. -/
def filter (keep : κ → α → Bool) (t : Table κ α) : Table κ α where
  entries := t.entries.filter fun e => keep e.1 e.2
  nodup := t.nodup.sublist (List.filter_sublist.map Prod.fst)

/-- Sets the entry of `k`; a new key comes last. -/
def insert (k : κ) (a : α) (t : Table κ α) : Table κ α :=
  if h : k ∈ t.entries.map Prod.fst then
    t.mapValues fun k' b => if k' = k then a else b
  else
    { entries := t.entries ++ [(k, a)]
      nodup := by
        rw [List.map_append, List.nodup_append]
        refine ⟨t.nodup, by simp, ?_⟩
        intro x hx y hy e
        simp only [List.map_cons, List.map_nil, List.mem_singleton] at hy
        exact h (hy ▸ e ▸ hx) }

/-- Changes the entry of `k`, if there is one. -/
def modify (k : κ) (f : α → α) (t : Table κ α) : Table κ α :=
  t.mapValues fun k' a => if k' = k then f a else a

def erase (k : κ) (t : Table κ α) : Table κ α := t.filter fun k' _ => k' ≠ k

end Table

end Courier
