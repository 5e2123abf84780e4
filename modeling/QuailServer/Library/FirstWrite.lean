import Mathlib.Data.Finmap

set_option autoImplicit false

namespace FirstWrite

variable {K V : Type*} [DecidableEq K]

def insertNew (m : Finmap fun _ : K => V) (k : K) (v : V) : Finmap fun _ : K => V :=
  if k ∈ m then m else m.insert k v

def ofWrites (ws : List (K × V)) : Finmap fun _ : K => V :=
  ws.foldl (fun m w => insertNew m w.1 w.2) ∅

def firstWrite (ws : List (K × V)) (k : K) : Option V :=
  (ws.find? fun w => w.1 = k).map Prod.snd

theorem lookup_insertNew (m : Finmap fun _ : K => V) (k j : K) (v : V) :
    (insertNew m k v).lookup j = (m.lookup j).or (if k = j then some v else none) := by
  unfold insertNew
  by_cases hk : k ∈ m
  · rw [if_pos hk]
    by_cases hj : k = j
    · subst hj
      obtain ⟨u, hu⟩ := Finmap.mem_iff.mp hk
      simp [hu]
    · simp [hj]
  · rw [if_neg hk]
    by_cases hj : k = j
    · subst hj
      simp [Finmap.lookup_eq_none.mpr hk]
    · simp [Finmap.lookup_insert_of_ne m (Ne.symm hj), hj]

theorem insertNew_of_mem {m : Finmap fun _ : K => V} {k : K} (h : k ∈ m) (v : V) :
    insertNew m k v = m := if_pos h

theorem ofWrites_concat (ws : List (K × V)) (k : K) (v : V) :
    ofWrites (ws ++ [(k, v)]) = insertNew (ofWrites ws) k v := by
  unfold ofWrites
  rw [List.foldl_append]
  rfl

theorem firstWrite_append (xs ys : List (K × V)) (k : K) :
    firstWrite (xs ++ ys) k = (firstWrite xs k).or (firstWrite ys k) := by
  unfold firstWrite
  rw [List.find?_append, Option.map_or]

theorem firstWrite_singleton (k j : K) (v : V) :
    firstWrite [(k, v)] j = if k = j then some v else none := by
  unfold firstWrite
  by_cases h : k = j <;> simp [h]

theorem lookup_writes (m : Finmap fun _ : K => V) (ws : List (K × V)) (k : K) :
    (ws.foldl (fun m w => insertNew m w.1 w.2) m).lookup k = (m.lookup k).or (firstWrite ws k) := by
  induction ws generalizing m with
  | nil => exact (Option.or_none).symm
  | cons w ws ih =>
    have hsplit : firstWrite (w :: ws) k = (firstWrite [w] k).or (firstWrite ws k) :=
      firstWrite_append [w] ws k
    rw [List.foldl_cons, ih, lookup_insertNew, hsplit, firstWrite_singleton, Option.or_assoc]

theorem lookup_ofWrites (ws : List (K × V)) (k : K) :
    (ofWrites ws).lookup k = firstWrite ws k := by
  unfold ofWrites
  rw [lookup_writes, Finmap.lookup_empty, Option.none_or]

theorem firstWrite_isSome (ws : List (K × V)) (k : K) :
    (firstWrite ws k).isSome ↔ k ∈ ws.map Prod.fst := by
  simp [firstWrite, List.find?_isSome]

theorem firstWrite_append_of_some {xs : List (K × V)} {k : K} {v : V}
    (h : firstWrite xs k = some v) (ys : List (K × V)) : firstWrite (xs ++ ys) k = some v := by
  rw [firstWrite_append, h]
  rfl

end FirstWrite
